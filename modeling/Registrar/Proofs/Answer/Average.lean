import Mathlib.Algebra.BigOperators.Group.List.Basic
import Registrar.Proofs.Answer.Aggregation
import Registrar.Proofs.Decimal.Text
import Registrar.Proofs.Decimal.Value

namespace Registrar

namespace Total

inductive Same : Total → Total → Prop
  | nan : Same .nan .nan
  | infinite (negative : Bool) : Same (.infinite negative) (.infinite negative)
  | finite {a b : Decimal} (h : a.value = b.value) : Same (.finite a) (.finite b)

variable {s t u v : Total}

theorem Same.toBinary64_eq (h : s.Same t) : s.toBinary64 = t.toBinary64 := by
  cases h with
  | nan => rfl
  | infinite => rfl
  | finite h => exact Decimal.toBinary64_congr h

theorem Same.add (h : s.Same t) (h' : u.Same v) : (s.add u).Same (t.add v) := by
  cases h with
  | nan => exact .nan
  | infinite negative =>
      cases h' with
      | nan => exact .nan
      | infinite other =>
          rw [Total.add]
          split
          · exact .infinite negative
          · exact .nan
      | finite => exact .infinite negative
  | finite h =>
      cases h' with
      | nan => exact .nan
      | infinite other => exact .infinite other
      | finite h' =>
          refine .finite (Decimal.value_rounded_congr ?_)
          rw [Decimal.value_add, Decimal.value_add, h, h']

theorem exists_ofText? (x : Binary64) :
    ∃ t, ofText? x.text = some t ∧ t.Same (ofBinary64 x) := by
  cases x with
  | nan => exact ⟨.nan, rfl, .nan⟩
  | infinite negative => cases negative <;> exact ⟨_, rfl, .infinite _⟩
  | finite negative rank =>
      have hshort := Binary64.natAbs_shortest_lt .up negative rank
      have hsign := Binary64.signed_natAbs_shortest .up negative rank
      rw [Binary64.text, ofText?, Decimal.ofText?_plainText, Option.map_some, ofQuantity,
        Binary64.signed_mul, ofBinary64]
      generalize Binary64.shortest .up negative rank = d at *
      rw [hsign]
      exact ⟨_, rfl, .finite (Decimal.value_rounded_shift_of_lt hshort _ _)⟩

theorem exists_ofTexts? (xs : List Binary64) :
    ∃ t, ofTexts? (xs.map Binary64.text) = some t ∧ t.Same (ofList xs) := by
  suffices ∀ s t : Total, s.Same t → ∃ u,
      (xs.map Binary64.text).foldlM (fun total term => (ofText? term).map total.add) s = some u ∧
        u.Same (xs.foldl (fun total x => total.add (ofBinary64 x)) t) from
    this zero zero (.finite rfl)
  induction xs with
  | nil => exact fun s t h => ⟨s, rfl, h⟩
  | cons x rest ih =>
      intro s t h
      obtain ⟨term, hterm, hsame⟩ := exists_ofText? x
      obtain ⟨u, hu, hresult⟩ := ih _ _ (h.add hsame)
      refine ⟨u, ?_, hresult⟩
      rw [List.map_cons, List.foldlM_cons, hterm]
      exact hu

end Total

namespace Aggregate

theorem decimalTotal?_eq (xs : List Binary64) :
    decimalTotal? xs = some (Total.ofList xs).toBinary64 := by
  obtain ⟨t, ht, hsame⟩ := Total.exists_ofTexts? xs
  rw [decimalTotal?, ht, Option.bind_some, Total.ofText?_text, hsame.toBinary64_eq]

theorem average_eq {xs : List Binary64} (h : xs ≠ []) :
    average xs = ((Total.ofList xs).toBinary64 / .ofNat xs.length).toCents := by
  rw [average, if_neg h, decimalTotal?_eq, Option.getD_some]

end Aggregate

namespace Binary64

def decimal : Binary64 → Decimal
  | .finite negative rank => shortest .up negative rank
  | _ => .zero

theorem ofBinary64_of_isFinite {x : Binary64} (h : x.isFinite) :
    Total.ofBinary64 x = .finite x.decimal := by
  cases x with
  | finite => rfl
  | _ => cases h

end Binary64

namespace Aggregate

def decimalSum (xs : List Binary64) : ℚ := (xs.map fun x => x.decimal.value).sum

structure AddsUp (xs : List Binary64) : Prop where
  finite : ∀ x ∈ xs, x.isFinite
  representable : ∀ ys, ys <+: xs → Decimal.Representable (decimalSum ys)

variable {xs ys : List Binary64}

theorem decimalSum_append_singleton (xs : List Binary64) (x : Binary64) :
    decimalSum (xs ++ [x]) = decimalSum xs + x.decimal.value := by
  rw [decimalSum, List.map_append, List.sum_append, List.map_singleton, List.sum_singleton]
  rfl

theorem decimalSum_of_perm (h : xs.Perm ys) : decimalSum xs = decimalSum ys :=
  (h.map _).sum_eq

theorem decimalSum_nil : decimalSum [] = 0 := rfl

theorem decimalSum_cons (x : Binary64) (xs : List Binary64) :
    decimalSum (x :: xs) = x.decimal.value + decimalSum xs := List.sum_cons

theorem AddsUp.of_prefix (h : AddsUp ys) (hinit : xs <+: ys) : AddsUp xs where
  finite x hx := h.finite x (hinit.subset hx)
  representable zs hzs := h.representable zs (hzs.trans hinit)

theorem addsUp_nil : AddsUp [] where
  finite _ hx := absurd hx List.not_mem_nil
  representable ys hys := by
    rw [List.prefix_nil.mp hys]
    exact ⟨0, 0, by rw [abs_zero]; exact pow_pos (by decide) _, by rw [Int.cast_zero, zero_mul]; rfl⟩

theorem AddsUp.concat {x : Binary64} (h : AddsUp xs) (hx : x.isFinite)
    (hsum : Decimal.Representable (decimalSum xs + x.decimal.value)) : AddsUp (xs ++ [x]) where
  finite y hy := by
    rcases List.mem_append.mp hy with hy | hy
    · exact h.finite y hy
    · rwa [List.mem_singleton.mp hy]
  representable ys hys := by
    rcases List.prefix_concat_iff.mp hys with rfl | hys
    · rwa [decimalSum_append_singleton]
    · exact h.representable ys hys

theorem AddsUp.exists_ofList (h : AddsUp xs) :
    ∃ d, Total.ofList xs = .finite d ∧ d.value = decimalSum xs := by
  induction xs using List.reverseRecOn with
  | nil => exact ⟨.zero, rfl, Decimal.value_zero⟩
  | append_singleton xs x ih =>
      obtain ⟨d, hd, hvalue⟩ := ih (h.of_prefix (List.prefix_append xs [x]))
      have hx : x.isFinite := h.finite x (List.mem_append_right xs (List.mem_singleton_self x))
      have hsum : (d + x.decimal).value = decimalSum (xs ++ [x]) := by
        rw [Decimal.value_add, hvalue, decimalSum_append_singleton]
      have hexact : (d + x.decimal).rounded.value = (d + x.decimal).value :=
        Decimal.value_rounded (hsum ▸ h.representable _ (List.prefix_refl _))
      refine ⟨(d + x.decimal).rounded, ?_, hexact.trans hsum⟩
      rw [Total.ofList, List.foldl_concat, ← Total.ofList, hd,
        Binary64.ofBinary64_of_isFinite hx, Total.add]

theorem AddsUp.exists_ofTexts? (h : AddsUp xs) :
    ∃ d, Total.ofTexts? (xs.map Binary64.text) = some (.finite d) ∧ d.value = decimalSum xs := by
  obtain ⟨d, hd, hvalue⟩ := h.exists_ofList
  obtain ⟨t, ht, hsame⟩ := Total.exists_ofTexts? xs
  rw [hd] at hsame
  cases hsame with
  | finite heq => exact ⟨_, ht, heq.trans hvalue⟩

theorem apply_avg (hne : xs ≠ []) : avg.apply (xs.map .number) =
    .number (((Total.ofList xs).toBinary64 / .ofNat xs.length).toCents) := by
  rw [apply, numbers_map, average_eq hne]

theorem AddsUp.apply_avg_of_perm (h : AddsUp xs) (h' : AddsUp ys) (hperm : xs.Perm ys) :
    avg.apply (xs.map .number) = avg.apply (ys.map .number) := by
  by_cases hne : xs = []
  · subst hne
    rw [hperm.nil_eq]
  · have hne' : ys ≠ [] := fun hnil => hne (hnil ▸ hperm).eq_nil
    obtain ⟨d, hd, hvalue⟩ := h.exists_ofList
    obtain ⟨d', hd', hvalue'⟩ := h'.exists_ofList
    have hsame : d.value = d'.value := by rw [hvalue, hvalue', decimalSum_of_perm hperm]
    rw [apply_avg hne, apply_avg hne', hd, hd', hperm.length_eq, Total.toBinary64,
      Total.toBinary64, Decimal.toBinary64_congr hsame]

theorem average_exact :
    (∀ x : Binary64, x.isFinite → Binary64.ofText? x.text = some x) ∧
    (∀ xs : List Binary64, xs ≠ [] → AddsUp xs → ∃ d x,
      Total.ofTexts? (xs.map Binary64.text) = some (.finite d) ∧ d.value = decimalSum xs ∧
      decimalTotal? xs = some x ∧ x = d.toBinary64 ∧
      avg.apply (xs.map .number) = .number (x / .ofNat xs.length).toCents) ∧
    ∀ xs ys : List Binary64, xs.Perm ys → AddsUp xs → AddsUp ys →
      avg.apply (xs.map .number) = avg.apply (ys.map .number) := by
  refine ⟨fun x => Binary64.ofText?_text, fun xs hne h => ?_,
    fun xs ys hperm h h' => h.apply_avg_of_perm h' hperm⟩
  obtain ⟨d, hd, hvalue⟩ := h.exists_ofTexts?
  have htotal : decimalTotal? xs = some d.toBinary64 := by
    rw [decimalTotal?, hd, Option.bind_some, Total.ofText?_text, Total.toBinary64]
  refine ⟨d, d.toBinary64, hd, hvalue, htotal, rfl, ?_⟩
  rw [apply, numbers_map, average, if_neg hne, htotal, Option.getD_some]

end Aggregate

namespace Sample

open Aggregate (AddsUp addsUp_nil decimalSum_nil decimalSum_cons)

def tenth : Binary64 := .finite false ⟨0x3FB999999999999A, by decide⟩

def vast : Binary64 := .finite false ⟨0x4341C37937E08000, by decide⟩

theorem value_tenth : tenth.decimal.value = 10 ^ (-1 : Int) := by
  have h : tenth.decimal = ⟨1, -1⟩ := by decide +kernel
  rw [h, Decimal.value, Int.cast_one, one_mul]

theorem value_vast : vast.decimal.value = 10 ^ (16 : Int) := by
  have h : vast.decimal = ⟨1, 16⟩ := by decide +kernel
  rw [h, Decimal.value, Int.cast_one, one_mul]

theorem value_neg_vast : vast.neg.decimal.value = -10 ^ (16 : Int) := by
  have h : vast.neg.decimal = ⟨-1, 16⟩ := by decide +kernel
  rw [h, Decimal.value, Int.cast_neg, Int.cast_one, neg_one_mul]

theorem representable_power (e : ℤ) : Decimal.Representable (10 ^ e) :=
  ⟨1, e, by norm_num [Decimal.precision], by rw [Int.cast_one, one_mul]⟩

theorem representable_vast_add_tenth : Decimal.Representable (10 ^ (16 : Int) + 10 ^ (-1 : Int)) :=
  ⟨100000000000000001, -1, by norm_num [Decimal.precision], by norm_num⟩

theorem addsUp_cancelling : AddsUp [vast, tenth, vast.neg] := by
  have hvast : AddsUp [vast] := addsUp_nil.concat rfl <| by
    rw [decimalSum_nil, zero_add, value_vast]
    exact representable_power 16
  have htenth : AddsUp [vast, tenth] := hvast.concat rfl <| by
    rw [decimalSum_cons, decimalSum_nil, add_zero, value_vast, value_tenth]
    exact representable_vast_add_tenth
  refine htenth.concat rfl ?_
  rw [decimalSum_cons, decimalSum_cons, decimalSum_nil, value_vast, value_tenth, value_neg_vast,
    add_zero, add_neg_cancel_comm]
  exact representable_power (-1)

theorem addsUp_reordered : AddsUp [tenth, vast, vast.neg] := by
  have htenth : AddsUp [tenth] := addsUp_nil.concat rfl <| by
    rw [decimalSum_nil, zero_add, value_tenth]
    exact representable_power (-1)
  have hvast : AddsUp [tenth, vast] := htenth.concat rfl <| by
    rw [decimalSum_cons, decimalSum_nil, add_zero, value_vast, value_tenth, add_comm]
    exact representable_vast_add_tenth
  refine hvast.concat rfl ?_
  rw [decimalSum_cons, decimalSum_cons, decimalSum_nil, value_vast, value_tenth, value_neg_vast,
    add_zero, add_neg_cancel_right]
  exact representable_power (-1)

end Sample

theorem Aggregate.average_exact_cancelling :
    decimalTotal? [Sample.vast, Sample.tenth, Sample.vast.neg] = some Sample.tenth ∧
    total [Sample.vast, Sample.tenth, Sample.vast.neg] = .zero ∧
    (∃ d, Total.ofTexts? ([Sample.vast, Sample.tenth, Sample.vast.neg].map Binary64.text) =
      some (.finite d) ∧ d.value = 10 ^ (-1 : Int)) ∧
    avg.apply ([Sample.vast, Sample.tenth, Sample.vast.neg].map .number) =
      avg.apply ([Sample.tenth, Sample.vast, Sample.vast.neg].map .number) := by
  obtain ⟨_, hexact, hperm⟩ := average_exact
  refine ⟨by decide +kernel, by decide +kernel, ?_, ?_⟩
  · obtain ⟨d, _, hd, hvalue, _⟩ := hexact _ (List.cons_ne_nil _ _) Sample.addsUp_cancelling
    refine ⟨d, hd, hvalue.trans ?_⟩
    rw [decimalSum_cons, decimalSum_cons, decimalSum_cons, decimalSum_nil, Sample.value_vast,
      Sample.value_tenth, Sample.value_neg_vast, add_zero, ← add_assoc, add_neg_cancel_comm]
  · exact hperm _ _ (.swap _ _ _) Sample.addsUp_cancelling Sample.addsUp_reordered

end Registrar
