import Mathlib.Algebra.Order.Field.Rat
import Mathlib.Algebra.Order.Ring.Cast
import Mathlib.Order.WithBot
import Registrar.Proofs.Binary64.Rounding

namespace Registrar.Binary64

variable {x y : Binary64}

def place (x : Binary64) : Int := x.place?.getD 0

theorem place?_eq (h : x.isNan = false) : x.place? = some x.place := by
  cases x with
  | nan => cases h
  | infinite => rfl
  | finite => rfl

theorem order_eq (hx : x.isNan = false) (hy : y.isNan = false) :
    x.order y = compare x.place y.place := by
  rw [order, place?_eq hx, place?_eq hy]

theorem lt_iff (hx : x.isNan = false) (hy : y.isNan = false) : x.lt y ↔ x.place < y.place := by
  rw [lt, place?_eq hx, place?_eq hy, decide_eq_true_iff]

theorem equal_iff (hx : x.isNan = false) (hy : y.isNan = false) :
    x.equal y ↔ x.place = y.place := by
  rw [equal, place?_eq hx, place?_eq hy, decide_eq_true_iff]

def value? : Binary64 → Option (WithBot (WithTop ℚ))
  | .nan => none
  | .infinite negative => some (if negative then ⊥ else ⊤)
  | .finite negative rank => some (((signed negative (units rank) : ℚ) / unity : ℚ) : WithTop ℚ)

variable {v w : WithBot (WithTop ℚ)}

theorem isNan_of_value? (h : x.value? = some v) : x.isNan = false := by
  cases x with
  | nan => cases h
  | infinite => rfl
  | finite => rfl

theorem exists_value? (h : x.isNan = false) : ∃ v, x.value? = some v := by
  cases x with
  | nan => cases h
  | infinite => exact ⟨_, rfl⟩
  | finite => exact ⟨_, rfl⟩

theorem signed_units_le_iff {s t : Bool} {r q : Nat} :
    signed s (units r) ≤ signed t (units q) ↔ signed s r ≤ signed t q := by
  have hzero : units 0 = 0 := rfl
  have hrq : units r ≤ units q ↔ r ≤ q := units_strictMono.le_iff_le
  have hqr : units q ≤ units r ↔ q ≤ r := units_strictMono.le_iff_le
  have hr : units r ≤ units 0 ↔ r ≤ 0 := units_strictMono.le_iff_le
  have hq : units q ≤ units 0 ↔ q ≤ 0 := units_strictMono.le_iff_le
  rw [hzero] at hr hq
  unfold signed
  cases s <;> cases t <;> simp only [Bool.false_eq_true, if_true, if_false] <;> omega

theorem place_finite_lt (t : Bool) (q : Fin rankCount) :
    -(rankCount : Int) < place (.finite t q) ∧ place (.finite t q) < rankCount := by
  have hq : (q.val : Int) < rankCount := Int.ofNat_lt.mpr q.isLt
  change -(rankCount : Int) < signed t q ∧ signed t q < rankCount
  unfold signed
  cases t <;> simp only [Bool.false_eq_true, if_true, if_false] <;> omega

theorem le_iff_place (hx : x.value? = some v) (hy : y.value? = some w) :
    v ≤ w ↔ x.place ≤ y.place := by
  have hpos : (0 : ℚ) < unity := Nat.cast_pos.mpr unity_pos
  cases x <;> cases y <;> cases hx <;> cases hy
  case finite.finite s r t q =>
    rw [WithBot.coe_le_coe, WithTop.coe_le_coe, div_le_div_iff_of_pos_right hpos, Int.cast_le]
    exact signed_units_le_iff
  case infinite.infinite s t => cases s <;> cases t <;> decide
  case infinite.finite s t q =>
    obtain ⟨hlow, hhigh⟩ := place_finite_lt t q
    cases s with
    | true => exact iff_of_true bot_le hlow.le
    | false =>
        refine iff_of_false ?_ hhigh.not_ge
        exact fun h => absurd (WithBot.coe_le_coe.mp h) (WithTop.coe_lt_top _).not_ge
  case finite.infinite s r t =>
    obtain ⟨hlow, hhigh⟩ := place_finite_lt s r
    cases t with
    | true => exact iff_of_false (WithBot.bot_lt_coe _).not_ge hlow.not_ge
    | false => exact iff_of_true (WithBot.coe_le_coe.mpr le_top) hhigh.le

theorem eq_iff_place (hx : x.value? = some v) (hy : y.value? = some w) :
    v = w ↔ x.place = y.place := by
  rw [le_antisymm_iff, le_antisymm_iff, le_iff_place hx hy, le_iff_place hy hx]

theorem isNan_of_equal (h : x.equal y) : x.isNan = false ∧ y.isNan = false := by
  cases x <;> cases y <;> first | exact ⟨rfl, rfl⟩ | cases h

theorem equal_iff_value? : x.equal y ↔ ∃ v, x.value? = some v ∧ y.value? = some v := by
  constructor
  · intro h
    obtain ⟨hnx, hny⟩ := isNan_of_equal h
    obtain ⟨v, hx⟩ := exists_value? hnx
    obtain ⟨w, hy⟩ := exists_value? hny
    obtain rfl := (eq_iff_place hx hy).mpr ((equal_iff hnx hny).mp h)
    exact ⟨v, hx, hy⟩
  · rintro ⟨v, hx, hy⟩
    rw [equal_iff (isNan_of_value? hx) (isNan_of_value? hy)]
    exact (eq_iff_place hx hy).mp rfl

theorem exists_units_shift {n k : Nat} (hn : n < 2 * blockSize) (hk : k ≤ 900) :
    ∃ rank < rankCount, units rank = n * 2 ^ k * unity := by
  obtain ⟨bits, hbits⟩ : ∃ bits, bits = 1074 := ⟨_, rfl⟩
  rw [unity_eq hbits]
  by_cases hzero : n = 0
  · exact ⟨0, by decide, by rw [hzero, Nat.zero_mul, Nat.zero_mul]; rfl⟩
  · have hsize : blockSize = 2 ^ 52 := by decide
    have hlog : n.log2 ≤ 52 := by
      rw [← Nat.lt_succ_iff, Nat.log2_lt hzero]
      rw [hsize] at hn
      omega
    have hshift : 2 ^ n.log2 * 2 ^ (52 - n.log2) = blockSize := by
      rw [← Nat.pow_add, Nat.add_sub_cancel' hlog, hsize]
    have hpos : 0 < 2 ^ (52 - n.log2) := Nat.two_pow_pos _
    have hm : blockSize ≤ n * 2 ^ (52 - n.log2) := by
      rw [← hshift]
      exact Nat.mul_le_mul_right _ (Nat.log2_self_le hzero)
    have hm' : n * 2 ^ (52 - n.log2) < 2 * blockSize := by
      rw [← hshift, ← Nat.mul_assoc, ← Nat.pow_succ']
      exact Nat.mul_lt_mul_of_pos_right Nat.lt_log2_self hpos
    refine ⟨(1022 + n.log2 + k) * blockSize + n * 2 ^ (52 - n.log2), ?_, ?_⟩
    · simp only [blockSize, rankCount] at *
      omega
    · rw [units_block (.inr hm) hm'.le, Nat.mul_assoc, Nat.mul_assoc, ← Nat.pow_add,
        ← Nat.pow_add]
      congr 2
      omega

theorem ofNat_of_units {n : Nat} {rank : Fin rankCount} (h : units rank = n * unity) :
    ofNat n = .finite false rank := by
  have hsign : decide ((n : Int) < 0) = false := decide_eq_false (by omega)
  rw [ofNat, ofInt, Int.natAbs_natCast, hsign, ← h, nearest_units]

theorem value?_ofNat {n : Nat} (hn : n < 2 * blockSize) :
    (ofNat n).value? = some ((n : ℚ) : WithTop ℚ) := by
  obtain ⟨rank, hrank, hunits⟩ := exists_units_shift hn (Nat.zero_le 900)
  rw [Nat.pow_zero, Nat.mul_one] at hunits
  have hpos : (unity : ℚ) ≠ 0 := Nat.cast_ne_zero.mpr unity_pos.ne'
  rw [@ofNat_of_units n ⟨rank, hrank⟩ hunits, value?]
  dsimp only
  rw [hunits]
  simp [signed, hpos]

end Registrar.Binary64
