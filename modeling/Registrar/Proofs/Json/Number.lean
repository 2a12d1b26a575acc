import Registrar.Json.Printer
import Registrar.Json.Reader.Number
import Registrar.Proofs.Binary64.Shortest

namespace Registrar.Json

open Numeral (valuesOf)

def digitsOf (cs : List Char) : List Nat := (valuesOf cs).reverse

theorem digitsOf_cons (c : Char) (cs : List Char) :
    digitsOf (c :: cs) = digitsOf cs ++ [c.toNat - '0'.toNat] := List.reverse_cons

theorem ofDigits_digitsOf_append (cs : List Char) (digits : List Nat) :
    Decimal.ofDigits 10 (digitsOf cs ++ digits) =
      Nat.ofDigitChars 10 cs (Decimal.ofDigits 10 digits) := by
  induction cs generalizing digits with
  | nil => rfl
  | cons c cs ih =>
      rw [digitsOf_cons, List.append_assoc, List.singleton_append, ih, Decimal.ofDigits_cons,
        Nat.ofDigitChars_cons, Nat.add_comm]

theorem ofDigits_digitsOf (cs : List Char) :
    Decimal.ofDigits 10 (digitsOf cs) = Nat.ofDigitChars 10 cs 0 := by
  have h := ofDigits_digitsOf_append cs []
  rw [List.append_nil] at h
  rw [h, Decimal.ofDigits_eq_foldr, List.foldr_nil]

theorem digitsOf_append (cs ds : List Char) : digitsOf (cs ++ ds) = digitsOf ds ++ digitsOf cs := by
  rw [digitsOf, valuesOf, List.map_append, List.reverse_append]
  rfl

namespace NumberState

def AllDigits (cs : List Char) : Prop := ∀ c ∈ cs, c.isDigit = true

theorem digit?_of_isDigit {c : Char} (h : c.isDigit = true) :
    digit? c = some (c.toNat - '0'.toNat) := by
  obtain ⟨hlow, hhigh⟩ := Char.isDigit_iff_toNat.mp h
  exact if_pos ⟨hlow, hhigh⟩

theorem allDigits_toDigits (n : Nat) : AllDigits (Nat.toDigits 10 n) :=
  fun _ hc => Nat.isDigit_of_mem_toDigits (by decide) (by decide) hc

theorem allDigits_replicate (n : Nat) : AllDigits (List.replicate n '0') := by
  intro c hc
  rw [List.eq_of_mem_replicate hc]
  rfl

theorem AllDigits.append {cs ds : List Char} (h : AllDigits cs) (hd : AllDigits ds) :
    AllDigits (cs ++ ds) :=
  fun c hc => (List.mem_append.mp hc).elim (h c) (hd c)

variable {negative powerNegative : Bool} {digits power : List Nat} {places : Nat}

theorem foldlM_whole {cs : List Char} (h : AllDigits cs) (digits : List Nat) :
    cs.foldlM extend? ⟨.whole, negative, digits, places, powerNegative, power⟩ =
      some ⟨.whole, negative, digitsOf cs ++ digits, places, powerNegative, power⟩ := by
  induction cs generalizing digits with
  | nil => rfl
  | cons c cs ih =>
      obtain ⟨hc, hcs⟩ := List.forall_mem_cons.mp h
      rw [List.foldlM_cons, extend?, digit?_of_isDigit hc, digitsOf_cons, List.append_assoc]
      exact ih hcs _

theorem foldlM_fraction {cs : List Char} (h : AllDigits cs) (digits : List Nat) (places : Nat) :
    cs.foldlM extend? ⟨.fraction, negative, digits, places, powerNegative, power⟩ =
      some ⟨.fraction, negative, digitsOf cs ++ digits, places + cs.length, powerNegative,
        power⟩ := by
  induction cs generalizing digits places with
  | nil => rfl
  | cons c cs ih =>
      obtain ⟨hc, hcs⟩ := List.forall_mem_cons.mp h
      rw [List.foldlM_cons, extend?, digit?_of_isDigit hc, digitsOf_cons, List.append_assoc,
        List.length_cons, Nat.add_comm cs.length, ← Nat.add_assoc]
      exact ih hcs _ _

theorem foldlM_exponent {cs : List Char} (h : AllDigits cs) (power : List Nat) :
    cs.foldlM extend? ⟨.exponent, negative, digits, places, powerNegative, power⟩ =
      some ⟨.exponent, negative, digits, places, powerNegative, digitsOf cs ++ power⟩ := by
  induction cs generalizing power with
  | nil => rfl
  | cons c cs ih =>
      obtain ⟨hc, hcs⟩ := List.forall_mem_cons.mp h
      rw [List.foldlM_cons, extend?, digit?_of_isDigit hc, digitsOf_cons, List.append_assoc]
      exact ih hcs _

def IsInteger (cs : List Char) : Prop :=
  ∀ negative, ∃ part, (part = .zero ∨ part = .whole) ∧
    cs.foldlM extend? (start negative) = some ⟨part, negative, digitsOf cs, 0, false, []⟩

theorem isInteger_zero : IsInteger ['0'] := fun _ => ⟨.zero, .inl rfl, rfl⟩

theorem foldlM_integer {c : Char} {cs : List Char} (hc : c ≠ '0') (h : AllDigits (c :: cs))
    (negative : Bool) : (c :: cs).foldlM extend? (start negative) =
      some ⟨.whole, negative, digitsOf (c :: cs), 0, false, []⟩ := by
  obtain ⟨hdigit, hcs⟩ := List.forall_mem_cons.mp h
  have hvalue : c.toNat - '0'.toNat ≠ 0 := by
    obtain ⟨hlow, _⟩ := Char.isDigit_iff_toNat.mp hdigit
    intro hzero
    exact hc (Char.toNat_inj.mp (by omega))
  rw [List.foldlM_cons, start, extend?, digit?_of_isDigit hdigit, digitsOf_cons]
  dsimp only
  rw [if_neg hvalue]
  exact foldlM_whole hcs _

theorem isInteger_cons {c : Char} {cs : List Char} (hc : c ≠ '0') (h : AllDigits (c :: cs)) :
    IsInteger (c :: cs) :=
  fun negative => ⟨.whole, .inr rfl, foldlM_integer hc h negative⟩

theorem foldlM_point {part : NumberPart} (hpart : part = .zero ∨ part = .whole) {c : Char}
    {cs : List Char} (h : AllDigits (c :: cs)) :
    ('.' :: c :: cs).foldlM extend? ⟨part, negative, digits, places, powerNegative, power⟩ =
      some ⟨.fraction, negative, digitsOf (c :: cs) ++ digits, places + (c :: cs).length,
        powerNegative, power⟩ := by
  obtain ⟨hc, hcs⟩ := List.forall_mem_cons.mp h
  have hpoint : extend? ⟨part, negative, digits, places, powerNegative, power⟩ '.' =
      some ⟨.point, negative, digits, places, powerNegative, power⟩ := by
    rcases hpart with rfl | rfl <;> rfl
  rw [List.foldlM_cons, hpoint, Option.bind_eq_bind, Option.bind_some, List.foldlM_cons, extend?,
    digit?_of_isDigit hc, digitsOf_cons, List.append_assoc, List.length_cons,
    Nat.add_comm cs.length, ← Nat.add_assoc]
  exact foldlM_fraction hcs _ _

theorem foldlM_mark {part : NumberPart} (hpart : part = .whole ∨ part = .fraction)
    (below : Bool) {c : Char} {cs : List Char} (h : AllDigits (c :: cs)) :
    ('e' :: (if below then '-' else '+') :: c :: cs).foldlM extend?
        ⟨part, negative, digits, places, false, power⟩ =
      some ⟨.exponent, negative, digits, places, below, digitsOf (c :: cs) ++ power⟩ := by
  obtain ⟨hc, hcs⟩ := List.forall_mem_cons.mp h
  have hmark : extend? ⟨part, negative, digits, places, false, power⟩ 'e' =
      some ⟨.exponentMark, negative, digits, places, false, power⟩ := by
    rcases hpart with rfl | rfl <;> rfl
  have hsign : extend? ⟨.exponentMark, negative, digits, places, false, power⟩
      (if below then '-' else '+') =
        some ⟨.exponentSign, negative, digits, places, below, power⟩ := by
    cases below <;> rfl
  rw [List.foldlM_cons, hmark, Option.bind_eq_bind, Option.bind_some, List.foldlM_cons, hsign,
    Option.bind_eq_bind, Option.bind_some, List.foldlM_cons, extend?, digit?_of_isDigit hc,
    digitsOf_cons, List.append_assoc]
  exact foldlM_exponent hcs _

end NumberState

theorem toDigits_eq_cons {n : Nat} (h : 0 < n) :
    ∃ c cs, Nat.toDigits 10 n = c :: cs ∧ c ≠ '0' := by
  induction n using Nat.strongRecOn with
  | ind n ih =>
      by_cases hsmall : n < 10
      · have hdigit : ∀ d < 10, 0 < d → d.digitChar ≠ '0' := by decide
        exact ⟨n.digitChar, [], Nat.toDigits_of_lt_base hsmall, hdigit n hsmall h⟩
      · obtain ⟨c, cs, hcs, hc⟩ := ih (n / 10) (Nat.div_lt_self h (by decide)) (by omega)
        refine ⟨c, cs ++ [(n % 10).digitChar], ?_, hc⟩
        rw [Nat.toDigits_of_base_le (by decide) (Nat.not_lt.mp hsmall), hcs, List.cons_append]

def WritesNumeral (cs : List Char) (n : Numeral) : Prop :=
  ∃ state, cs.foldlM NumberState.extend? (.start n.negative) = some state ∧
    state.isComplete = true ∧ state.numeral = n

theorem numeral_digitsOf (part : NumberPart) (negative : Bool) (whole fraction : List Char)
    (below : Bool) (power : List Nat) :
    NumberState.numeral
        ⟨part, negative, digitsOf (whole ++ fraction), fraction.length, below, power⟩ =
      ⟨negative, valuesOf whole, valuesOf fraction,
        if power = [] then none else some (Binary64.signed below (Decimal.ofDigits 10 power))⟩ := by
  have hlength : fraction.length = (digitsOf fraction).length := by
    rw [digitsOf, List.length_reverse, valuesOf, List.length_map]
  rw [NumberState.numeral, digitsOf_append, hlength, List.drop_left, List.take_left, digitsOf,
    digitsOf, List.reverse_reverse, List.reverse_reverse]

namespace Numeral

structure Says (n : Numeral) (negative : Bool) (digits : Nat) (exponent : Int) : Prop where
  negative : n.negative = negative
  broken : n.whole = false
  digits : n.digits = digits
  exponent : n.exponent = exponent

theorem digits_valuesOf (negative : Bool) (whole fraction : List Char) (power : Option Int) :
    digits ⟨negative, valuesOf whole, valuesOf fraction, power⟩ =
      Nat.ofDigitChars 10 (whole ++ fraction) 0 := by
  rw [digits, valuesOf, valuesOf, ← List.map_append]
  exact ofDigits_digitsOf (whole ++ fraction)

theorem exponent_valuesOf (negative : Bool) (whole : List Nat) (fraction : List Char)
    (power : Option Int) :
    exponent ⟨negative, whole, valuesOf fraction, power⟩ = power.getD 0 - fraction.length := by
  rw [exponent, valuesOf, List.length_map]

end Numeral

def WritesDecimal (cs : List Char) (negative : Bool) (digits : Nat) (exponent : Int) : Prop :=
  ∃ n : Numeral, WritesNumeral cs n ∧ n.Says negative digits exponent

section Layouts

variable {negative : Bool} {digits : Nat} {exponent : Int}

theorem writes_whole (negative : Bool) (n : Nat) :
    WritesNumeral (Nat.toDigits 10 n) ⟨negative, valuesOf (Nat.toDigits 10 n), [], none⟩ := by
  have hdigits := NumberState.allDigits_toDigits n
  have hinteger : NumberState.IsInteger (Nat.toDigits 10 n) := by
    rcases Nat.eq_zero_or_pos n with rfl | hpos
    · exact NumberState.isInteger_zero
    · obtain ⟨c, cs, hcs, hc⟩ := toDigits_eq_cons hpos
      rw [hcs] at hdigits ⊢
      exact NumberState.isInteger_cons hc hdigits
  obtain ⟨part, hpart, hrun⟩ := hinteger negative
  refine ⟨_, hrun, ?_, ?_⟩
  · rcases hpart with rfl | rfl <;> rfl
  · have hnumeral := numeral_digitsOf part negative (Nat.toDigits 10 n) [] false []
    rwa [List.append_nil, if_pos rfl] at hnumeral

theorem foldlM_pointed {whole fraction : List Char} (hwhole : NumberState.IsInteger whole)
    (hfraction : NumberState.AllDigits fraction) (hne : fraction ≠ []) (negative : Bool) :
    (whole ++ '.' :: fraction).foldlM NumberState.extend? (.start negative) =
      some ⟨.fraction, negative, digitsOf (whole ++ fraction), fraction.length, false, []⟩ := by
  obtain ⟨part, hpart, hrun⟩ := hwhole negative
  obtain ⟨c, cs, rfl⟩ := List.exists_cons_of_ne_nil hne
  rw [List.foldlM_append, hrun, Option.bind_eq_bind, Option.bind_some,
    NumberState.foldlM_point hpart hfraction, digitsOf_append, Nat.zero_add]

theorem writes_pointed {whole fraction : List Char} (hwhole : NumberState.IsInteger whole)
    (hfraction : NumberState.AllDigits fraction) (hne : fraction ≠ [])
    (hdigits : Nat.ofDigitChars 10 (whole ++ fraction) 0 = digits)
    (hlength : exponent = -fraction.length) :
    WritesDecimal (whole ++ '.' :: fraction) negative digits exponent := by
  refine ⟨_, ⟨_, foldlM_pointed hwhole hfraction hne negative, rfl, numeral_digitsOf ..⟩, ?_⟩
  constructor
  case negative => rfl
  case broken =>
    obtain ⟨c, cs, rfl⟩ := List.exists_cons_of_ne_nil hne
    rfl
  case digits => rw [Numeral.digits_valuesOf, hdigits]
  case exponent =>
    rw [Numeral.exponent_valuesOf, if_pos rfl, Option.getD_none, hlength]
    exact Int.zero_sub _

section Leading

variable {c : Char} {rest : List Char} (hc : c ≠ '0')
  (hdigits : NumberState.AllDigits (c :: rest))
  (hvalue : Nat.ofDigitChars 10 (c :: rest) 0 = digits)

include hdigits hvalue

theorem writes_small (zeros : Nat) (hexponent : exponent = -(zeros + (c :: rest).length)) :
    WritesDecimal ('0' :: '.' :: List.replicate zeros '0' ++ c :: rest) negative digits
      exponent := by
  have hlayout : '0' :: '.' :: List.replicate zeros '0' ++ c :: rest =
      ['0'] ++ '.' :: (List.replicate zeros '0' ++ c :: rest) := rfl
  rw [hlayout]
  refine writes_pointed NumberState.isInteger_zero
    ((NumberState.allDigits_replicate zeros).append hdigits) ?_ ?_ ?_
  · exact List.append_ne_nil_of_right_ne_nil _ (List.cons_ne_nil c rest)
  · rw [List.singleton_append, Nat.ofDigitChars_cons, Nat.ofDigitChars_append,
      Nat.ofDigitChars_replicate_zero, Nat.sub_self]
    simpa using hvalue
  · rw [List.length_append, List.length_replicate, hexponent]
    omega

include hc

theorem writes_padded (zeros : Nat) (hexponent : exponent = zeros) :
    WritesDecimal (c :: rest ++ List.replicate zeros '0' ++ ['.', '0']) negative
      (digits * Decimal.power (zeros + 1)) (exponent - (zeros + 1 : Nat)) := by
  have hzeros := NumberState.allDigits_replicate zeros
  refine writes_pointed (NumberState.isInteger_cons hc (hdigits.append hzeros))
    (NumberState.allDigits_replicate 1) (List.cons_ne_nil _ _) ?_ ?_
  · have hpower : Decimal.power (zeros + 1) = 10 ^ zeros * 10 := Nat.pow_succ 10 zeros
    rw [List.append_cons, List.append_nil, Nat.ofDigitChars_append, Nat.ofDigitChars_append,
      hvalue, Nat.ofDigitChars_replicate_zero, Nat.ofDigitChars_cons, Nat.ofDigitChars_nil,
      Nat.sub_self, Nat.add_zero, hpower]
    ring
  · rw [List.length_singleton]
    omega

theorem writes_inside (lead : Nat) (hexponent : exponent = lead - rest.length)
    (hinside : exponent < 0) :
    WritesDecimal ((c :: rest).take (lead + 1) ++ '.' :: (c :: rest).drop (lead + 1)) negative
      digits exponent := by
  refine writes_pointed ?_ (fun d hd => hdigits d (List.mem_of_mem_drop hd)) ?_ ?_ ?_
  · rw [List.take_succ_cons]
    exact NumberState.isInteger_cons hc fun d hd =>
      hdigits d (List.mem_of_mem_take (i := lead + 1) hd)
  · intro hnil
    have hlength := List.drop_eq_nil_iff.mp hnil
    rw [List.length_cons] at hlength
    omega
  · rw [List.take_append_drop, hvalue]
  · rw [List.length_drop, List.length_cons]
    omega

theorem writes_scaled (lead : Int) (hexponent : exponent = lead - rest.length) :
    WritesDecimal
      ((c :: rest).take 1 ++ (if (c :: rest).length = 1 then [] else '.' :: (c :: rest).drop 1) ++
        'e' :: (if lead < 0 then '-' else '+') :: Nat.toDigits 10 lead.natAbs)
      negative digits exponent := by
  obtain ⟨e, es, hes⟩ := List.exists_cons_of_ne_nil (@Nat.toDigits_ne_nil lead.natAbs 10)
  have hpower := NumberState.allDigits_toDigits lead.natAbs
  have hscale : Decimal.ofDigits 10 (digitsOf (Nat.toDigits 10 lead.natAbs)) = lead.natAbs := by
    rw [ofDigits_digitsOf, Nat.ofDigitChars_ten_toDigits]
  rw [hes] at hpower hscale ⊢
  have hsignificand : ∃ part, (part = .whole ∨ part = .fraction) ∧
      ((c :: rest).take 1 ++ (if (c :: rest).length = 1 then [] else '.' :: (c :: rest).drop 1)
        ).foldlM NumberState.extend? (.start negative) =
          some ⟨part, negative, digitsOf ([c] ++ rest), rest.length, false, []⟩ := by
    obtain ⟨hfirst, hrest⟩ := List.forall_mem_cons.mp hdigits
    have hsingle : NumberState.AllDigits [c] := List.forall_mem_singleton.mpr hfirst
    cases rest with
    | nil => exact ⟨.whole, .inl rfl, NumberState.foldlM_integer hc hsingle negative⟩
    | cons d ds =>
        exact ⟨.fraction, .inr rfl, foldlM_pointed (NumberState.isInteger_cons hc hsingle) hrest
          (List.cons_ne_nil d ds) negative⟩
  obtain ⟨part, hpart, hrun⟩ := hsignificand
  have hmark := @NumberState.foldlM_mark negative (digitsOf ([c] ++ rest)) [] rest.length part hpart
    (lead < 0) e es hpower
  rw [List.append_nil] at hmark
  simp only [decide_eq_true_eq] at hmark
  have hall : (((c :: rest).take 1 ++
      (if (c :: rest).length = 1 then [] else '.' :: (c :: rest).drop 1) ++
        'e' :: (if lead < 0 then '-' else '+') :: e :: es)).foldlM NumberState.extend?
          (.start negative) = some ⟨.exponent, negative, digitsOf ([c] ++ rest), rest.length,
            lead < 0, digitsOf (e :: es)⟩ := by
    rw [List.foldlM_append, hrun]
    exact hmark
  refine ⟨_, ⟨_, hall, rfl, numeral_digitsOf ..⟩, ?_⟩
  have hmarked : digitsOf (e :: es) ≠ [] := by
    rw [digitsOf_cons]
    exact List.append_ne_nil_of_right_ne_nil _ (List.cons_ne_nil _ _)
  rw [if_neg hmarked]
  constructor
  case negative => rfl
  case broken => exact Bool.and_false _
  case digits => rw [Numeral.digits_valuesOf, List.singleton_append, hvalue]
  case exponent =>
    rw [Numeral.exponent_valuesOf, Option.getD_some, hscale, Binary64.signed_natAbs, hexponent]

end Leading

theorem writes_positiveText (hpos : 0 < digits) (exponent : Int) (negative : Bool) :
    ∃ k : Nat, WritesDecimal (positiveText digits exponent).toList negative
      (digits * Decimal.power k) (exponent - k) := by
  obtain ⟨c, rest, hdigit, hc⟩ := toDigits_eq_cons hpos
  have hdigits := NumberState.allDigits_toDigits digits
  have hvalue : Nat.ofDigitChars 10 (Nat.toDigits 10 digits) 0 = digits :=
    Nat.ofDigitChars_ten_toDigits
  rw [positiveText]
  dsimp only
  rw [String.toList_ofList]
  rw [hdigit] at hdigits hvalue ⊢
  have hlength : ((c :: rest).length : Int) = rest.length + 1 := Int.natCast_succ rest.length
  split
  · next hwhole =>
    exact ⟨exponent.toNat + 1, writes_padded hc hdigits hvalue exponent.toNat (by omega)⟩
  refine ⟨0, ?_⟩
  have hsame : digits * Decimal.power 0 = digits := Nat.mul_one digits
  rw [hsame, Int.natCast_zero, Int.sub_zero]
  split
  · exact writes_inside hc hdigits hvalue _ (by omega) (by omega)
  split
  · exact writes_small hdigits hvalue _ (by omega)
  · exact writes_scaled hc hdigits hvalue _ (by omega)

end Layouts

end Registrar.Json
