import Mathlib.Tactic.Common
import Registrar.Catalog.Cell

namespace Registrar

namespace Binary64

theorem isNan_of_isFinite {x : Binary64} (h : x.isFinite) : x.isNan = false := by
  cases x with
  | nan => cases h
  | infinite => rfl
  | finite => rfl

theorem equal_self {x : Binary64} (h : x.isNan = false) : x.equal x := by
  cases x with
  | nan => cases h
  | infinite => exact decide_eq_true rfl
  | finite => exact decide_eq_true rfl

theorem equal_finite_iff {s t : Bool} {r q : Fin rankCount} :
    (finite s r).equal (finite t q) ↔ finite s r = finite t q ∨ r.val = 0 ∧ q.val = 0 := by
  have hplaces : (finite s r).equal (finite t q) ↔ signed s r = signed t q := decide_eq_true_iff
  rw [hplaces, finite.injEq, Fin.ext_iff]
  unfold signed
  cases s <;> cases t <;> simp only [Bool.false_eq_true, if_true, if_false, reduceCtorEq,
    true_and, false_and, false_or]
  all_goals omega

theorem equal_zero_iff {s : Bool} {r : Fin rankCount} :
    (finite s r).equal .zero ↔ r.val = 0 := by
  have hplaces : (finite s r).equal .zero ↔ signed s r = 0 := decide_eq_true_iff
  rw [hplaces]
  unfold signed
  split <;> omega

theorem finite_ne_zero {s : Bool} {r : Fin rankCount} (h : r.val ≠ 0) : finite s r ≠ zero := by
  intro heq
  obtain ⟨_, hrank⟩ := (finite.injEq ..).mp heq
  exact h (congrArg Fin.val hrank)

theorem folded_eq_iff {s t : Bool} {r q : Fin rankCount} :
    ((if r.val = 0 then zero else finite s r) = if q.val = 0 then zero else finite t q) ↔
      finite s r = finite t q ∨ r.val = 0 ∧ q.val = 0 := by
  have hranks : finite s r = finite t q → r.val = q.val := by
    intro heq
    exact congrArg Fin.val ((finite.injEq ..).mp heq).2
  by_cases hr : r.val = 0 <;> by_cases hq : q.val = 0 <;> simp only [hr, hq, if_true, if_false]
  · simp
  · refine ⟨fun h => absurd h.symm (finite_ne_zero hq), ?_⟩
    rintro (h | h)
    · exact absurd (hranks h) (by omega)
    · exact absurd h.2 (by simp)
  · refine ⟨fun h => absurd h (finite_ne_zero hr), ?_⟩
    rintro (h | h)
    · exact absurd (hranks h) (by omega)
    · exact absurd h.1 (by simp)
  · simp

theorem signed_rankCount_ne (s t : Bool) (q : Fin rankCount) : signed s rankCount ≠ signed t q := by
  have hq := q.isLt
  unfold signed
  cases s <;> cases t <;> simp only [Bool.false_eq_true, if_true, if_false] <;> omega

theorem not_equal_infinite_finite (s t : Bool) (q : Fin rankCount) :
    ¬(infinite s).equal (finite t q) := mt of_decide_eq_true (signed_rankCount_ne s t q)

theorem not_equal_finite_infinite (s t : Bool) (q : Fin rankCount) :
    ¬(finite t q).equal (infinite s) := mt of_decide_eq_true (signed_rankCount_ne s t q).symm

theorem infinite_ne_folded (s t : Bool) (q : Fin rankCount) :
    infinite s ≠ if (finite t q).equal .zero then zero else finite t q := by
  split <;> exact nofun

theorem folded_zero_eq_iff {x y : Binary64} (hx : x.isNan = false) (hy : y.isNan = false) :
    ((if x.equal .zero then zero else x) = if y.equal .zero then zero else y) ↔ x.equal y := by
  cases x with
  | nan => cases hx
  | infinite s =>
      cases y with
      | nan => cases hy
      | infinite t => cases s <;> cases t <;> decide +kernel
      | finite t q =>
          have hzero : ¬(infinite s).equal zero := not_equal_infinite_finite s false zeroRank
          rw [if_neg hzero]
          exact iff_of_false (infinite_ne_folded s t q) (not_equal_infinite_finite s t q)
  | finite s r =>
      cases y with
      | nan => cases hy
      | infinite t =>
          have hzero : ¬(infinite t).equal zero := not_equal_infinite_finite t false zeroRank
          rw [if_neg hzero]
          exact iff_of_false (infinite_ne_folded t s r).symm (not_equal_finite_infinite t s r)
      | finite t q =>
          rw [equal_finite_iff]
          simp only [equal_zero_iff]
          exact folded_eq_iff

end Binary64

namespace Cell

def Finite : Cell → Prop
  | .number x => x.isFinite
  | .text _ => True

instance : (c : Cell) → Decidable c.Finite
  | .number x => inferInstanceAs (Decidable (x.isFinite = true))
  | .text _ => isTrue trivial

def Comparable : Cell → Prop
  | .number x => x.isNan = false
  | .text _ => True

instance : (c : Cell) → Decidable c.Comparable
  | .number x => inferInstanceAs (Decidable (x.isNan = false))
  | .text _ => isTrue trivial

theorem Finite.comparable {c : Cell} (h : c.Finite) : c.Comparable := by
  cases c with
  | text => trivial
  | number => exact Binary64.isNan_of_isFinite h

def same : Cell → Cell → Bool
  | .number x, .number y => x.equal y
  | .text s, .text t => s = t
  | _, _ => false

theorem canonical_eq_iff {c d : Cell} (hc : c.Comparable) (hd : d.Comparable) :
    c.canonical = d.canonical ↔ c.same d := by
  cases c with
  | text s => cases d <;> simp [canonical, same]
  | number x =>
      cases d with
      | text => simp [canonical, same]
      | number y =>
          rw [same, canonical, canonical, number.injEq]
          exact Binary64.folded_zero_eq_iff hc hd

example : same (.number (.finite true Binary64.zeroRank)) (.number .zero) = true := by decide

end Cell

end Registrar
