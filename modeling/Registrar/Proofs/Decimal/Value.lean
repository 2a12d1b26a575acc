import Mathlib.Algebra.Order.Field.Rat
import Mathlib.Tactic.NormNum
import Mathlib.Tactic.Ring
import Registrar.Decimal.Total
import Registrar.Proofs.Binary64.Rounding

namespace Registrar.Decimal

def value (d : Decimal) : ℚ := d.coefficient * 10 ^ d.exponent

theorem value_zero : zero.value = 0 := by
  rw [value, zero, Int.cast_zero, zero_mul]

theorem ten_ne_zero : (10 : ℚ) ≠ 0 := by norm_num

theorem cast_power (n : Nat) : (power n : ℚ) = 10 ^ n := Nat.cast_pow 10 n

theorem digitCount_mul_power {n : Nat} (h : 0 < n) (k : Nat) :
    digitCount (n * power k) = digitCount n + k := by
  induction k with
  | zero => rw [Nat.add_zero]; exact congrArg digitCount (Nat.mul_one n)
  | succ k ih =>
      have hpower : n * power (k + 1) = n * power k * 10 := (Nat.mul_assoc n (power k) 10).symm
      have hpos : 0 < n * power k := Nat.mul_pos h (Binary64.power_pos k)
      rw [hpower, digitCount, Nat.toDigits_of_base_le (by decide) (by omega),
        Nat.mul_div_cancel _ (by decide), List.length_append]
      exact congrArg (· + 1) ih

theorem digitCount_le_iff {n : Nat} : digitCount n ≤ precision ↔ n < power precision :=
  Nat.length_toDigits_le_iff (by decide) (by decide)

theorem natAbs_mul_power (c : Int) (k : Nat) : (c * power k).natAbs = c.natAbs * power k := by
  rw [Int.natAbs_mul, Int.natAbs_natCast]

theorem decide_mul_power_neg (c : Int) (k : Nat) :
    decide (c * power k < 0) = decide (c < 0) := by
  rw [decide_eq_decide]
  have hpos : (0 : Int) < power k := Int.natCast_pos.mpr (Binary64.power_pos k)
  refine ⟨fun h => not_le.mp fun hc => ?_, fun h => mul_neg_of_neg_of_pos h hpos⟩
  exact absurd h (not_lt.mpr (mul_nonneg hc hpos.le))

theorem value_shift (c e : Int) (k : Nat) :
    (⟨c * power k, e - k⟩ : Decimal).value = (⟨c, e⟩ : Decimal).value := by
  rw [value, value]
  dsimp only
  rw [Int.cast_mul, Int.cast_natCast, cast_power, mul_assoc, ← zpow_natCast,
    ← zpow_add₀ ten_ne_zero, add_sub_cancel]

theorem rounded_of_lt {d : Decimal} (h : d.coefficient.natAbs < power precision) :
    d.rounded = d := if_pos h

theorem value_rounded_shift_of_lt {c : Int} (h : c.natAbs < power precision) (e : Int) (k : Nat) :
    (⟨c * power k, e - k⟩ : Decimal).rounded.value = (⟨c, e⟩ : Decimal).value := by
  by_cases hshort : (c * power k).natAbs < power precision
  · rw [rounded_of_lt hshort, value_shift]
  · rw [rounded, if_neg hshort]
    dsimp only
    rw [natAbs_mul_power] at hshort ⊢
    have hpos : 0 < c.natAbs := by
      refine Nat.pos_of_ne_zero fun hzero => hshort ?_
      rw [hzero, Nat.zero_mul]
      exact Binary64.power_pos _
    have hcount := digitCount_le_iff.mpr h
    rw [digitCount_mul_power hpos]
    obtain ⟨rest, hrest⟩ : ∃ rest, k = rest + (digitCount c.natAbs + k - precision) :=
      ⟨_, (Nat.sub_add_cancel (by omega)).symm⟩
    generalize digitCount c.natAbs + k - precision = excess at *
    subst hrest
    have hexponent : e - (rest + excess : Nat) + excess = e - rest := by omega
    rw [decide_mul_power_neg, hexponent, Binary64.power_add, ← Nat.mul_assoc,
      Binary64.roundHalfEven_mul _ (Binary64.power_pos excess), Binary64.signed_mul,
      Binary64.signed_natAbs, value_shift]

theorem value_rounded_shift (c e : Int) (k : Nat) :
    (⟨c * power k, e - k⟩ : Decimal).rounded.value = (⟨c, e⟩ : Decimal).rounded.value := by
  by_cases hlarge : c.natAbs < power precision
  · rw [value_rounded_shift_of_lt hlarge, rounded_of_lt hlarge]
  · have hpos : 0 < c.natAbs := (Binary64.power_pos precision).trans_le (not_lt.mp hlarge)
    have hmore : ¬(c * power k).natAbs < power precision := by
      rw [natAbs_mul_power]
      exact fun h => hlarge ((Nat.le_mul_of_pos_right _ (Binary64.power_pos k)).trans_lt h)
    have hcount : precision < digitCount c.natAbs := not_le.mp (mt digitCount_le_iff.mp hlarge)
    have hexcess : digitCount c.natAbs + k - precision = digitCount c.natAbs - precision + k := by
      omega
    have hexponent : e - k + (digitCount c.natAbs - precision + k : Nat) =
        e + (digitCount c.natAbs - precision : Nat) := by omega
    rw [rounded, rounded, if_neg hmore, if_neg hlarge]
    dsimp only
    rw [natAbs_mul_power, digitCount_mul_power hpos, hexcess, hexponent, decide_mul_power_neg,
      Binary64.power_add, Binary64.roundHalfEven_mul_right _ (Binary64.power_pos k)]

theorem value_scaled {d : Decimal} {e : Int} (h : e ≤ d.exponent) :
    (d.scaled e : ℚ) * 10 ^ e = d.value := by
  have hexponent : ((d.exponent - e).toNat : Int) + e = d.exponent := by omega
  rw [scaled, value, Int.cast_mul, Int.cast_natCast, cast_power, mul_assoc, ← zpow_natCast,
    ← zpow_add₀ ten_ne_zero, hexponent]

theorem value_add (a b : Decimal) : (a + b).value = a.value + b.value := by
  have hsum : (a + b).value = (a.scaled (min a.exponent b.exponent) +
      b.scaled (min a.exponent b.exponent) : Int) * 10 ^ min a.exponent b.exponent := rfl
  rw [hsum, Int.cast_add, add_mul, value_scaled (min_le_left _ _), value_scaled (min_le_right _ _)]

theorem exists_shift {a b : Decimal} (h : a.value = b.value) (he : b.exponent ≤ a.exponent) :
    ∃ k : Nat, b = ⟨a.coefficient * power k, a.exponent - k⟩ := by
  have hexponent : b.exponent = a.exponent - (a.exponent - b.exponent).toNat := by omega
  refine ⟨(a.exponent - b.exponent).toNat, ?_⟩
  rw [← value_scaled he] at h
  have hcoefficient := mul_right_cancel₀ (zpow_ne_zero _ ten_ne_zero) h
  rw [Decimal.mk.injEq]
  exact ⟨(Int.cast_injective hcoefficient).symm, hexponent⟩

theorem eq_of_value_eq {β : Type} {f : Decimal → β}
    (hf : ∀ c e (k : Nat), f ⟨c * power k, e - k⟩ = f ⟨c, e⟩) {a b : Decimal}
    (h : a.value = b.value) : f a = f b := by
  rcases le_total b.exponent a.exponent with he | he
  · obtain ⟨k, rfl⟩ := exists_shift h he
    exact (hf a.coefficient a.exponent k).symm
  · obtain ⟨k, rfl⟩ := exists_shift h.symm he
    exact hf b.coefficient b.exponent k

theorem value_rounded_congr {a b : Decimal} (h : a.value = b.value) :
    a.rounded.value = b.rounded.value :=
  eq_of_value_eq (f := fun d => d.rounded.value) value_rounded_shift h

theorem toBinary64_shift (c e : Int) (k : Nat) :
    (⟨c * power k, e - k⟩ : Decimal).toBinary64 = (⟨c, e⟩ : Decimal).toBinary64 := by
  rw [toBinary64, toBinary64]
  dsimp only
  rw [natAbs_mul_power, decide_mul_power_neg, Binary64.ofDecimal_shift]

theorem toBinary64_congr {a b : Decimal} (h : a.value = b.value) : a.toBinary64 = b.toBinary64 :=
  eq_of_value_eq toBinary64_shift h

def Representable (q : ℚ) : Prop := ∃ c e : ℤ, |c| < 10 ^ precision ∧ q = c * 10 ^ e

theorem value_rounded {d : Decimal} (h : Representable d.value) : d.rounded.value = d.value := by
  obtain ⟨c, e, hc, hvalue⟩ := h
  have hsame : d.value = (⟨c, e⟩ : Decimal).value := hvalue
  have hshort : c.natAbs < power precision := by
    rw [Int.abs_eq_natAbs] at hc
    exact Nat.cast_lt.mp (hc.trans_eq (Nat.cast_pow 10 precision).symm)
  rw [value_rounded_congr hsame, rounded_of_lt hshort, hsame]

end Registrar.Decimal
