import Registrar.Answer.Aggregation
import Registrar.Proofs.Binary64.Shortest

namespace Registrar.Binary64

theorem isFinite_nearest_of_le (negative : Bool) {num den rank : Nat} (hden : 0 < den)
    (hrank : rank < rankCount) (h : num ≤ units rank * den) :
    (nearest negative num den).isFinite := by
  obtain ⟨other, hother, hnearest⟩ := nearest_eq negative num hden
  have hle : other ≤ rank := by
    by_contra hgt
    have hbelow : units rank ≤ units (other - 1) := units_strictMono.monotone (by omega)
    have habove : units (other - 1) < units other := units_strictMono (by omega)
    have hmiddle : 2 * (units rank * den) < (units (other - 1) + units other) * den := by
      rw [← Nat.mul_assoc]
      exact Nat.mul_lt_mul_of_pos_right (by omega) hden
    have hlow := hother.low
    omega
  rw [hnearest, dif_pos (Nat.lt_of_le_of_lt hle hrank), isFinite]

theorem isFinite_div {x : Binary64} (h : x.isFinite) (negative : Bool) {rank : Fin rankCount}
    (hone : unity ≤ units rank) : (x / finite negative rank).isFinite := by
  cases x with
  | nan => cases h
  | infinite => cases h
  | finite sign other =>
      have hzero : rank.val ≠ 0 := by
        intro hzero
        have hpos := unity_pos
        rw [hzero] at hone
        exact absurd (Nat.lt_of_lt_of_le hpos hone) (by decide)
      change (if rank.val = 0 then if other.val = 0 then nan else infinite (sign != negative)
        else nearest (sign != negative) (units other * unity) (units rank)).isFinite
      rw [if_neg hzero]
      exact isFinite_nearest_of_le _ (units_pos (Nat.pos_of_ne_zero hzero)) other.isLt
        (Nat.mul_le_mul_left _ hone)

theorem max_eq_or (x y : Binary64) : x.max y = x ∨ x.max y = y := by
  unfold max
  split
  · exact .inr rfl
  · split
    · exact .inr rfl
    · exact .inl rfl

theorem min_eq_or (x y : Binary64) : x.min y = x ∨ x.min y = y := by
  unfold min
  split
  · exact .inr rfl
  · split
    · exact .inr rfl
    · exact .inl rfl

end Registrar.Binary64
