import Registrar.Decimal.Text
import Registrar.Proofs.Json.Number

namespace Registrar

open Json.NumberState (AllDigits allDigits_toDigits allDigits_replicate)

namespace Quantity

theorem split_digits {ds rest : List Char} (hds : AllDigits ds)
    (hrest : ∀ c ∈ rest.head?, c.isDigit = false) :
    (ds ++ rest).takeWhile Char.isDigit = ds ∧ (ds ++ rest).dropWhile Char.isDigit = rest := by
  induction ds with
  | nil =>
      cases rest with
      | nil => exact ⟨rfl, rfl⟩
      | cons c cs =>
          have hc : ¬c.isDigit = true := Bool.eq_false_iff.mp (hrest c rfl)
          exact ⟨List.takeWhile_cons_of_neg hc, List.dropWhile_cons_of_neg hc⟩
  | cons d ds ih =>
      obtain ⟨hd, hds⟩ := List.forall_mem_cons.mp hds
      obtain ⟨htake, hdrop⟩ := ih hds
      rw [List.cons_append, List.takeWhile_cons_of_pos hd, List.dropWhile_cons_of_pos hd, htake]
      exact ⟨rfl, hdrop⟩

theorem natural?_toDigits (n : Nat) : natural? (Nat.toDigits 10 n) = some n := by
  have hall : (Nat.toDigits 10 n).all Char.isDigit = true :=
    List.all_eq_true.mpr (allDigits_toDigits n)
  rw [natural?, if_pos ⟨Nat.toDigits_ne_nil, hall⟩, Nat.ofDigitChars_ten_toDigits]

theorem exponent?_mark (lead : Int) :
    exponent? ('E' :: (if lead < 0 then '-' else '+') :: Nat.toDigits 10 lead.natAbs) =
      some lead := by
  rw [exponent?, if_pos (.inr rfl)]
  by_cases hneg : lead < 0
  · rw [if_pos hneg, integer?, natural?_toDigits, Option.map_some, Option.some.injEq]
    omega
  · rw [if_neg hneg, integer?, natural?_toDigits, Option.map_some, Option.some.injEq,
      Int.ofNat_eq_natCast]
    omega

theorem head_of_exponent? {tail : List Char} {exponent : Int}
    (h : exponent? tail = some exponent) : ∀ c ∈ tail.head?, c = 'e' ∨ c = 'E' := by
  cases tail with
  | nil => exact nofun
  | cons mark rest =>
      rintro _ ⟨⟩
      rw [exponent?] at h
      split at h
      · next hmark => exact hmark
      · cases h

variable {whole fraction tail : List Char} {exponent : Int}

theorem magnitude?_pointed (hwhole : AllDigits whole) (hfraction : AllDigits fraction)
    (hne : whole ≠ []) (htail : exponent? tail = some exponent) :
    magnitude? (whole ++ '.' :: (fraction ++ tail)) =
      some (Nat.ofDigitChars 10 (whole ++ fraction) 0, exponent - fraction.length) := by
  have hmark : ∀ c ∈ tail.head?, c.isDigit = false := by
    intro c hc
    rcases head_of_exponent? htail c hc with rfl | rfl <;> rfl
  have hpoint : ∀ c ∈ ('.' :: (fraction ++ tail)).head?, c.isDigit = false := by
    rintro _ ⟨⟩
    rfl
  obtain ⟨hwholes, hrest⟩ := split_digits hwhole hpoint
  obtain ⟨hfractions, htails⟩ := split_digits hfraction hmark
  rw [magnitude?, hwholes, hrest, splitFraction, hfractions, htails]
  dsimp only
  rw [if_neg (List.append_ne_nil_of_left_ne_nil hne _), htail, Option.map_some]

theorem magnitude?_point (hwhole : AllDigits whole) (hfraction : AllDigits fraction)
    (hne : whole ≠ []) :
    magnitude? (whole ++ '.' :: fraction) =
      some (Nat.ofDigitChars 10 (whole ++ fraction) 0, -(fraction.length : Int)) := by
  have hread := magnitude?_pointed hwhole hfraction hne (show exponent? [] = some 0 from rfl)
  rwa [List.append_nil, Int.zero_sub] at hread

theorem magnitude?_whole (hwhole : AllDigits whole) (hne : whole ≠ [])
    (htail : exponent? tail = some exponent) :
    magnitude? (whole ++ tail) = some (Nat.ofDigitChars 10 whole 0, exponent) := by
  have hmark : ∀ c ∈ tail.head?, c.isDigit = false := by
    intro c hc
    rcases head_of_exponent? htail c hc with rfl | rfl <;> rfl
  have hpoint : ∀ rest, tail = '.' :: rest → False := by
    rintro rest rfl
    rcases head_of_exponent? htail '.' rfl with h | h <;> exact absurd h (by decide)
  obtain ⟨hwholes, hrest⟩ := split_digits hwhole hmark
  rw [magnitude?, hwholes, hrest, splitFraction.eq_2 _ hpoint]
  dsimp only
  rw [List.append_nil, if_neg hne, htail, Option.map_some]
  rw [List.length_nil, Int.natCast_zero, Int.sub_zero]

end Quantity

namespace Decimal

open Quantity (magnitude? magnitude?_whole magnitude?_pointed)

theorem magnitude?_plainText (digits : Nat) (exponent : Int) :
    magnitude? (plainText digits exponent) =
      some (digits * power exponent.toNat, exponent - exponent.toNat) := by
  have hdigits := allDigits_toDigits digits
  have hvalue : Nat.ofDigitChars 10 (Nat.toDigits 10 digits) 0 = digits :=
    Nat.ofDigitChars_ten_toDigits
  have hne := @Nat.toDigits_ne_nil digits 10
  rw [plainText]
  dsimp only
  generalize Nat.toDigits 10 digits = ds at *
  split
  · next hwhole =>
    have hzeros := allDigits_replicate exponent.toNat
    have hread := magnitude?_whole (hdigits.append hzeros)
      (List.append_ne_nil_of_left_ne_nil hne _) (show Quantity.exponent? [] = some 0 from rfl)
    rw [List.append_nil, Nat.ofDigitChars_append, hvalue, Nat.ofDigitChars_replicate_zero] at hread
    have hpower : 10 ^ exponent.toNat * digits = digits * power exponent.toNat := Nat.mul_comm _ _
    have hexponent : exponent - exponent.toNat = 0 := by omega
    rw [hread, hpower, hexponent]
  have hzero : exponent.toNat = 0 := by omega
  have hsame : digits * power 0 = digits := Nat.mul_one digits
  rw [hzero, hsame, Int.natCast_zero, Int.sub_zero]
  split
  · next hinside =>
    refine (Quantity.magnitude?_point (fun c hc => hdigits c (List.mem_of_mem_take hc))
      (fun c hc => hdigits c (List.mem_of_mem_drop hc)) ?_).trans ?_
    · exact fun hnil => (List.take_eq_nil_iff.mp hnil).elim (Nat.succ_ne_zero _) hne
    · rw [List.take_append_drop, hvalue, List.length_drop]
      congr 2
      omega
  · next hsmall =>
    have hzeros := allDigits_replicate (-(exponent + ds.length - 1) - 1).toNat
    have hlayout (zeros : List Char) : '0' :: '.' :: zeros ++ ds = ['0'] ++ '.' :: (zeros ++ ds) :=
      rfl
    rw [hlayout]
    refine (Quantity.magnitude?_point (allDigits_replicate 1) (hzeros.append hdigits)
      (List.cons_ne_nil _ _)).trans ?_
    rw [Nat.ofDigitChars_append, Nat.ofDigitChars_append, Nat.ofDigitChars_replicate_zero,
      Nat.ofDigitChars_replicate_zero, Nat.mul_zero, hvalue, List.length_append,
      List.length_replicate]
    congr 2
    have hlength := List.length_pos_iff.mpr hne
    omega

theorem exists_toDigits (n : Nat) :
    ∃ c cs, Nat.toDigits 10 n = c :: cs ∧ c.isDigit = true ∧ AllDigits cs ∧
      Nat.ofDigitChars 10 (c :: cs) 0 = n := by
  obtain ⟨c, cs, hds⟩ := List.exists_cons_of_ne_nil (@Nat.toDigits_ne_nil n 10)
  obtain ⟨hc, hcs⟩ := List.forall_mem_cons.mp (hds ▸ allDigits_toDigits n)
  exact ⟨c, cs, hds, hc, hcs, hds ▸ Nat.ofDigitChars_ten_toDigits⟩

theorem magnitude?_scaledText (digits : Nat) (exponent : Int) :
    magnitude? (scaledText digits exponent) = some (digits, exponent) := by
  obtain ⟨c, rest, hds, hc, hrest, hvalue⟩ := exists_toDigits digits
  rw [scaledText, hds]
  have hfirst : AllDigits [c] := List.forall_mem_singleton.mpr hc
  have hmark := Quantity.exponent?_mark (exponent + (c :: rest).length - 1)
  rw [List.take_succ_cons, List.take_zero, List.drop_succ_cons, List.drop_zero]
  split
  · next hsingle =>
    have hnil : rest = [] := List.length_eq_zero_iff.mp (Nat.succ.inj hsingle)
    subst hnil
    refine (magnitude?_whole hfirst (List.cons_ne_nil c []) hmark).trans ?_
    rw [hvalue, List.length_singleton]
    congr 2
    omega
  · refine (magnitude?_pointed hfirst hrest (List.cons_ne_nil c []) hmark).trans ?_
    rw [List.singleton_append, hvalue, List.length_cons]
    congr 2
    omega

end Decimal

namespace Quantity

theorem ne_of_isDigit {c : Char} (hc : c.isDigit = true) :
    c.toLower ≠ 'n' ∧ c.toLower ≠ 'i' ∧ c ≠ '-' ∧ c ≠ '+' := by
  have hdigits : ∀ n < 58, 48 ≤ n → (Char.ofNat n).toLower ≠ 'n' ∧ (Char.ofNat n).toLower ≠ 'i' ∧
      Char.ofNat n ≠ '-' ∧ Char.ofNat n ≠ '+' := by decide
  obtain ⟨hlow, hhigh⟩ := Char.isDigit_iff_toNat.mp hc
  rw [← Char.ofNat_toNat c]
  exact hdigits c.toNat (Nat.lt_succ_of_le hhigh) hlow

theorem ofText?_signText {c : Char} (hc : c.isDigit = true) (negative : Bool) (cs : List Char) :
    ofText? (signText negative ++ c :: cs) =
      (magnitude? (c :: cs)).map fun m => .decimal negative m.1 m.2 := by
  obtain ⟨hn, hi, hminus, hplus⟩ := ne_of_isDigit hc
  have hword (d : Char) (word : List Char) (hd : c.toLower ≠ d) :
      (c :: cs).map Char.toLower ≠ d :: word :=
    fun h => hd (List.cons.inj h).1
  have hunsigned : unsigned? negative (c :: cs) =
      (magnitude? (c :: cs)).map fun m => .decimal negative m.1 m.2 := by
    rw [unsigned?]
    dsimp only
    rw [if_neg (hword _ _ hn), if_neg (not_or.mpr ⟨hword _ _ hi, hword _ _ hi⟩)]
  cases negative with
  | true => exact hunsigned
  | false =>
      rw [← hunsigned]
      refine ofText?.eq_3 (c :: cs) ?_ ?_
      · exact fun rest h => hminus (List.cons.inj h).1
      · exact fun rest h => hplus (List.cons.inj h).1

end Quantity

namespace Decimal

open Quantity (ofText? ofText?_signText)

theorem exists_plainText (digits : Nat) (exponent : Int) :
    ∃ c cs, plainText digits exponent = c :: cs ∧ c.isDigit = true := by
  obtain ⟨c, rest, hds, hc, _⟩ := exists_toDigits digits
  rw [plainText, hds]
  dsimp only
  split
  · exact ⟨c, _, rfl, hc⟩
  split
  · exact ⟨c, _, rfl, hc⟩
  · exact ⟨'0', _, rfl, rfl⟩

theorem exists_scaledText (digits : Nat) (exponent : Int) :
    ∃ c cs, scaledText digits exponent = c :: cs ∧ c.isDigit = true := by
  obtain ⟨c, rest, hds, hc, _⟩ := exists_toDigits digits
  rw [scaledText, hds]
  exact ⟨c, _, rfl, hc⟩

theorem ofText?_plainText (negative : Bool) (digits : Nat) (exponent : Int) :
    ofText? (signText negative ++ plainText digits exponent) =
      some (.decimal negative (digits * power exponent.toNat) (exponent - exponent.toNat)) := by
  obtain ⟨c, cs, htext, hc⟩ := exists_plainText digits exponent
  have hread := magnitude?_plainText digits exponent
  rw [htext] at hread ⊢
  rw [ofText?_signText hc, hread, Option.map_some]

theorem ofText?_scaledText (negative : Bool) (digits : Nat) (exponent : Int) :
    ofText? (signText negative ++ scaledText digits exponent) =
      some (.decimal negative digits exponent) := by
  obtain ⟨c, cs, htext, hc⟩ := exists_scaledText digits exponent
  have hread := magnitude?_scaledText digits exponent
  rw [htext] at hread ⊢
  rw [ofText?_signText hc, hread, Option.map_some]

theorem ofText?_text (d : Decimal) :
    ofText? d.text = some (.decimal (d.coefficient < 0) d.coefficient.natAbs d.exponent) := by
  rw [text]
  split
  · next hplain =>
    have hzero : d.exponent.toNat = 0 := by omega
    have hsame : d.coefficient.natAbs * power 0 = d.coefficient.natAbs := Nat.mul_one _
    rw [ofText?_plainText, hzero, hsame, Int.natCast_zero, Int.sub_zero]
  · exact ofText?_scaledText _ _ _

end Decimal

theorem Binary64.ofText?_text {x : Binary64} (h : x.isFinite) : ofText? x.text = some x := by
  cases x with
  | finite negative rank =>
      rw [text, ofText?, Decimal.ofText?_plainText, Option.map_some, ofQuantity, ofDecimal_shift,
        Option.some.injEq]
      by_cases hzero : rank.val = 0
      · have hrank : rank = zeroRank := Fin.ext hzero
        rw [hrank]
        rfl
      · obtain ⟨c, k, hshortest, hrounds, _⟩ :=
          shortest_rounds .up negative (Nat.pos_of_ne_zero hzero) rank.isLt
        rw [hshortest, natAbs_signed]
        exact ofDecimal_of_rounds hrounds rank.isLt negative
  | _ => cases h

namespace Total

theorem ofText?_text (t : Total) : Binary64.ofText? t.text = some t.toBinary64 := by
  cases t with
  | nan => rfl
  | infinite negative => cases negative <;> rfl
  | finite d => rw [text, Binary64.ofText?, Decimal.ofText?_text]; rfl

end Total

end Registrar
