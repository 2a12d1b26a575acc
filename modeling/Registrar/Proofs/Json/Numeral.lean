import Registrar.Json.Numeral
import Registrar.Proofs.Binary64.Scaling

namespace Registrar

namespace Binary64

theorem ofDecimal_eq_withSign (negative : Bool) (digits : Nat) (exponent : Int) :
    ofDecimal negative digits exponent = (ofDecimal false digits exponent).withSign negative := by
  obtain ⟨rank, hrounds, hdecimal⟩ := ofDecimal_eq false digits exponent
  obtain ⟨other, hother, hsigned⟩ := ofDecimal_eq negative digits exponent
  cases Rounds.unique (power_pos _) hrounds hother
  rw [hdecimal, hsigned]
  cases negative <;> split <;> rfl

theorem isFinite_withSign (negative : Bool) (x : Binary64) :
    (x.withSign negative).isFinite = x.isFinite := by
  cases negative <;> cases x <;> rfl

end Binary64

namespace Json.Numeral

variable {n : Numeral}

theorem keep_lt {kept : Nat} (h : kept < UInt64.size) (digits : List Nat) :
    (keep kept digits).1 < UInt64.size := by
  induction digits generalizing kept with
  | nil => exact h
  | cons digit rest ih =>
      simp only [keep]
      split
      · next hmore => exact ih hmore
      · exact h

def join (kept : Nat) (digits : List Nat) : Nat := digits.foldl (fun n d => 10 * n + d) kept

theorem le_join (kept : Nat) (digits : List Nat) : kept ≤ join kept digits := by
  induction digits generalizing kept with
  | nil => exact Nat.le_refl kept
  | cons digit rest ih => exact Nat.le_trans (by omega) (ih (10 * kept + digit))

theorem keep_of_join_lt {kept : Nat} {digits : List Nat} (h : join kept digits < UInt64.size) :
    keep kept digits = (join kept digits, []) := by
  induction digits generalizing kept with
  | nil => rfl
  | cons digit rest ih =>
      have hmore : 10 * kept + digit < UInt64.size := Nat.lt_of_le_of_lt (le_join _ rest) h
      simp only [keep]
      rw [if_pos hmore]
      exact ih h

theorem digits_eq_join (n : Numeral) : n.digits = join (join 0 n.integer) n.fraction := by
  rw [digits, Decimal.ofDigits_eq_foldr, List.foldr_reverse, join, join, ← List.foldl_append]
  simp only [Nat.add_comm]

theorem scaled?_of_lt (h : n.digits < UInt64.size) :
    n.scaled? = (Binary64.scale? n.digits n.exponent).map (.withSign n.negative) := by
  rw [digits_eq_join] at h ⊢
  have hinteger : join 0 n.integer < UInt64.size := Nat.lt_of_le_of_lt (le_join _ n.fraction) h
  simp only [scaled?, keep_of_join_lt hinteger, keep_of_join_lt h, exponent, List.length_nil,
    Int.natCast_zero, Int.add_zero]

theorem isFinite_scaled? {x : Binary64} (h : n.scaled? = some x) : x.isFinite := by
  obtain ⟨y, hy, rfl⟩ := Option.map_eq_some_iff.mp h
  have hfinite := Binary64.isFinite_scale? (keep_lt (keep_lt (by decide) n.integer) n.fraction) hy
  rw [Binary64.isFinite_withSign, hfinite]

def nearest? (n : Numeral) : Option Binary64 :=
  let x := Binary64.ofDecimal n.negative n.digits n.exponent
  if x.isFinite then some x else none

theorem nearest?_of_eq {x : Binary64} (hfinite : x.isFinite)
    (h : Binary64.ofDecimal n.negative n.digits n.exponent = x) : n.nearest? = some x := by
  rw [nearest?, h]
  exact if_pos hfinite

theorem scaled?_eq_nearest? (hdigits : n.digits < 2 * Binary64.blockSize)
    (hexponent : n.exponent.natAbs ≤ Binary64.exactPower) : n.scaled? = n.nearest? := by
  have hsize : n.digits < UInt64.size := hdigits.trans (by decide)
  rw [scaled?_of_lt hsize, Binary64.scale?_eq_ofDecimal hdigits hexponent, nearest?,
    Binary64.ofDecimal_eq_withSign n.negative, Binary64.isFinite_withSign]
  split <;> rfl

end Json.Numeral

end Registrar
