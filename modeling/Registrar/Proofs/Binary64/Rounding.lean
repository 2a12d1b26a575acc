import Mathlib.Order.Monotone.Basic
import Mathlib.Tactic.Common
import Mathlib.Tactic.Ring
import Registrar.Binary64.Arithmetic

namespace Registrar.Binary64

theorem natAbs_signed (negative : Bool) (n : Nat) : (signed negative n).natAbs = n := by
  cases negative with
  | true => exact (Int.natAbs_neg n).trans (Int.natAbs_natCast n)
  | false => exact Int.natAbs_natCast n

theorem signed_natAbs (i : Int) : signed (i < 0) i.natAbs = i := by
  rw [signed]
  by_cases hneg : i < 0
  · rw [if_pos (decide_eq_true hneg)]
    omega
  · rw [if_neg (mt of_decide_eq_true hneg)]
    omega

theorem signed_mul (negative : Bool) (m n : Nat) :
    signed negative (m * n) = signed negative m * n := by
  cases negative with
  | true => exact (congrArg Neg.neg (Int.natCast_mul m n)).trans (Int.neg_mul _ _).symm
  | false => exact Int.natCast_mul m n

theorem exists_block (rank : Nat) :
    ∃ m, rank = (rank / blockSize - 1) * blockSize + m ∧
      (rank / blockSize - 1 = 0 ∨ blockSize ≤ m) ∧ m < 2 * blockSize := by
  refine ⟨rank - (rank / blockSize - 1) * blockSize, ?_⟩
  simp only [blockSize]
  omega

theorem units_block {block m : Nat} (hblock : block = 0 ∨ blockSize ≤ m)
    (hm : m ≤ 2 * blockSize) : units (block * blockSize + m) = m * 2 ^ block := by
  rw [units]
  split
  · next hlt =>
    have hzero : block = 0 := by
      simp only [blockSize] at *
      omega
    subst hzero
    simp
  · next hge =>
    rcases Nat.lt_or_eq_of_le hm with hlt | rfl
    · have hmod : (block * blockSize + m) % blockSize = m - blockSize := by
        simp only [blockSize] at *
        omega
      have hdiv : (block * blockSize + m) / blockSize - 1 = block := by
        simp only [blockSize] at *
        omega
      have hm' : blockSize + (m - blockSize) = m := by
        simp only [blockSize] at *
        omega
      rw [hmod, hdiv, hm', Nat.shiftLeft_eq]
    · have hmod : (block * blockSize + 2 * blockSize) % blockSize = 0 := by
        simp only [blockSize]
        omega
      have hdiv : (block * blockSize + 2 * blockSize) / blockSize - 1 = block + 1 := by
        simp only [blockSize]
        omega
      rw [hmod, hdiv, Nat.shiftLeft_eq, Nat.add_zero, Nat.pow_succ]
      ring

theorem units_succ (rank : Nat) :
    units (rank + 1) = units rank + 2 ^ (rank / blockSize - 1) := by
  obtain ⟨m, hrank, hblock, hm⟩ := exists_block rank
  generalize rank / blockSize - 1 = block at *
  subst hrank
  have hnext : block = 0 ∨ blockSize ≤ m + 1 := hblock.imp_right Nat.le_succ_of_le
  rw [units_block hblock (Nat.le_of_lt hm), Nat.add_assoc, units_block hnext hm]
  ring

theorem units_strictMono : StrictMono units :=
  strictMono_nat_of_lt_succ fun rank => by
    rw [units_succ]
    exact Nat.lt_add_of_pos_right (Nat.two_pow_pos _)

theorem roundHalfEven_le (num den : Nat) : roundHalfEven num den ≤ num / den + 1 := by
  unfold roundHalfEven
  dsimp only
  split
  · omega
  · split <;> omega

theorem div_le_roundHalfEven (num den : Nat) : num / den ≤ roundHalfEven num den := by
  unfold roundHalfEven
  dsimp only
  split
  · exact Nat.le_refl _
  · split <;> omega

theorem roundHalfEven_spec (num : Nat) {den : Nat} (hden : 0 < den) :
    (2 * roundHalfEven num den) * den ≤ 2 * num + den ∧
      2 * num ≤ (2 * roundHalfEven num den + 1) * den ∧
      ((2 * roundHalfEven num den) * den = 2 * num + den ∨
        2 * num = (2 * roundHalfEven num den + 1) * den → roundHalfEven num den % 2 = 0) := by
  have hnum := Nat.div_add_mod num den
  have hmod := Nat.mod_lt num hden
  unfold roundHalfEven
  dsimp only
  generalize num / den = q at *
  generalize num % den = r at *
  have hmul : den * q = q * den := Nat.mul_comm _ _
  have hsucc : 2 * (q + 1) * den = 2 * (q * den) + 2 * den := by ring
  have hsame : 2 * q * den = 2 * (q * den) := by ring
  split
  · rw [Nat.add_mul]; omega
  · split
    · rw [Nat.add_mul]; omega
    · rcases Nat.mod_two_eq_zero_or_one q with h | h
      · rw [h, Nat.add_zero, Nat.add_mul]; omega
      · rw [h, Nat.add_mul]; omega

theorem roundHalfEven_mul_right {den scale : Nat} (num : Nat) (hscale : 0 < scale) :
    roundHalfEven (num * scale) (den * scale) = roundHalfEven num den := by
  have hbelow : 2 * (num % den * scale) < den * scale ↔ 2 * (num % den) < den := by
    rw [← Nat.mul_assoc, Nat.mul_lt_mul_right hscale]
  have habove : den * scale < 2 * (num % den * scale) ↔ den < 2 * (num % den) := by
    rw [← Nat.mul_assoc, Nat.mul_lt_mul_right hscale]
  unfold roundHalfEven
  dsimp only
  rw [Nat.mul_div_mul_right _ _ hscale, Nat.mul_mod_mul_right]
  simp only [hbelow, habove]

theorem roundHalfEven_mul (q : Nat) {den : Nat} (hden : 0 < den) :
    roundHalfEven (q * den) den = q := by
  unfold roundHalfEven
  dsimp only
  rw [Nat.mul_div_cancel _ hden, Nat.mul_mod_left, Nat.mul_zero, if_pos hden]

structure Rounds (rank num den : Nat) : Prop where
  low : (units (rank - 1) + units rank) * den ≤ 2 * num
  high : 2 * num ≤ (units rank + units (rank + 1)) * den
  even : (units (rank - 1) + units rank) * den = 2 * num ∨
    2 * num = (units rank + units (rank + 1)) * den → rank % 2 = 0

theorem Rounds.not_lt {rank other num den : Nat} (hden : 0 < den) (h : Rounds rank num den)
    (hother : Rounds other num den) : ¬rank < other := by
  intro hlt
  have hfirst : units rank ≤ units (other - 1) := units_strictMono.monotone (by omega)
  have hsecond : units (rank + 1) ≤ units other := units_strictMono.monotone hlt
  have hbetween : (units rank + units (rank + 1)) * den ≤ (units (other - 1) + units other) * den :=
    Nat.mul_le_mul_right den (Nat.add_le_add hfirst hsecond)
  have htop : 2 * num = (units rank + units (rank + 1)) * den :=
    Nat.le_antisymm h.high (hbetween.trans hother.low)
  have hbottom : (units (other - 1) + units other) * den = 2 * num :=
    Nat.le_antisymm hother.low (h.high.trans hbetween)
  have hsum := Nat.eq_of_mul_eq_mul_right hden (htop.symm.trans hbottom.symm)
  have hadjacent : rank + 1 = other := units_strictMono.injective (by omega)
  have hrank := h.even (.inr htop)
  have hparity := hother.even (.inl hbottom)
  omega

theorem Rounds.unique {rank other num den : Nat} (hden : 0 < den) (h : Rounds rank num den)
    (hother : Rounds other num den) : rank = other :=
  Nat.le_antisymm (Nat.not_lt.mp (hother.not_lt hden h)) (Nat.not_lt.mp (h.not_lt hden hother))

theorem high_block {block m num den : Nat} (hblock : block = 0 ∨ blockSize ≤ m)
    (hm : m ≤ 2 * blockSize) (hfull : m = 2 * blockSize → num < m * (den * 2 ^ block))
    (hhigh : 2 * num ≤ (2 * m + 1) * (den * 2 ^ block)) :
    2 * num ≤ (units (block * blockSize + m) + units (block * blockSize + m + 1)) * den ∧
      (2 * num = (units (block * blockSize + m) + units (block * blockSize + m + 1)) * den →
        2 * num = (2 * m + 1) * (den * 2 ^ block)) := by
  rcases Nat.lt_or_eq_of_le hm with hlt | heq
  · have hnext : block = 0 ∨ blockSize ≤ m + 1 := hblock.imp_right Nat.le_succ_of_le
    have hsum : (units (block * blockSize + m) + units (block * blockSize + m + 1)) * den =
        (2 * m + 1) * (den * 2 ^ block) := by
      rw [units_block hblock hm, Nat.add_assoc, units_block hnext hlt]
      ring
    rw [hsum]
    exact ⟨hhigh, id⟩
  · have hstrict : 2 * num <
        (units (block * blockSize + m) + units (block * blockSize + m + 1)) * den := by
      have hup := units_strictMono (Nat.lt_add_one (block * blockSize + m))
      have hunits : m * (den * 2 ^ block) = units (block * blockSize + m) * den := by
        rw [units_block hblock hm]
        ring
      have hmul := Nat.mul_le_mul_right den (Nat.le_of_lt hup)
      have hnum := hfull heq
      rw [Nat.add_mul]
      omega
    exact ⟨Nat.le_of_lt hstrict, fun h => absurd h (Nat.ne_of_lt hstrict)⟩

theorem low_block {block m num den : Nat} (hden : 0 < den) (hblock : block = 0 ∨ blockSize ≤ m)
    (hm : m ≤ 2 * blockSize) (hedge : block ≠ 0 → m = blockSize → m * (den * 2 ^ block) ≤ num)
    (hlow : 2 * m * (den * 2 ^ block) ≤ 2 * num + den * 2 ^ block) :
    (units (block * blockSize + m - 1) + units (block * blockSize + m)) * den ≤ 2 * num ∧
      ((units (block * blockSize + m - 1) + units (block * blockSize + m)) * den = 2 * num →
        2 * m * (den * 2 ^ block) = 2 * num + den * 2 ^ block ∨ m = 0) := by
  by_cases hzero : block * blockSize + m = 0
  · have hm0 : m = 0 := by omega
    rw [hzero]
    exact ⟨by simp [units], fun _ => .inr hm0⟩
  by_cases hboundary : block ≠ 0 ∧ m = blockSize
  · have hstrict : (units (block * blockSize + m - 1) + units (block * blockSize + m)) * den <
        2 * num := by
      have hdown := units_strictMono (Nat.sub_one_lt hzero)
      have hunits : m * (den * 2 ^ block) = units (block * blockSize + m) * den := by
        rw [units_block hblock hm]
        ring
      have hmul := Nat.mul_lt_mul_of_pos_right hdown hden
      have hnum := hedge hboundary.1 hboundary.2
      rw [Nat.add_mul]
      omega
    exact ⟨Nat.le_of_lt hstrict, fun h => absurd h (Nat.ne_of_lt hstrict)⟩
  · obtain ⟨k, rfl⟩ : ∃ k, m = k + 1 := by
      refine Nat.exists_eq_add_one.mpr (Nat.pos_of_ne_zero fun h => ?_)
      simp only [blockSize] at *
      omega
    have hprevious : block = 0 ∨ blockSize ≤ k := by
      simp only [blockSize] at *
      omega
    have hsum : (units (block * blockSize + (k + 1) - 1) + units (block * blockSize + (k + 1))) *
        den + den * 2 ^ block = 2 * (k + 1) * (den * 2 ^ block) := by
      rw [units_block hblock hm, ← Nat.add_assoc, Nat.add_sub_cancel,
        units_block hprevious (Nat.le_of_succ_le hm)]
      ring
    omega

theorem div_block (num den : Nat) :
    num / (den * 2 ^ ((num / den).log2 - 52)) < 2 * blockSize ∧
      ((num / den).log2 - 52 = 0 ∨
        blockSize ≤ num / (den * 2 ^ ((num / den).log2 - 52))) := by
  have hpos : 0 < 2 ^ ((num / den).log2 - 52) := Nat.two_pow_pos _
  have hsize : 2 * blockSize = 2 ^ 53 := by decide
  rw [← Nat.div_div_eq_div_mul]
  constructor
  · rw [hsize, Nat.div_lt_iff_lt_mul hpos, ← Nat.pow_add]
    exact Nat.lt_of_lt_of_le Nat.lt_log2_self (Nat.pow_le_pow_right (by decide) (by omega))
  · rcases Nat.eq_zero_or_pos ((num / den).log2 - 52) with h | h
    · exact .inl h
    · refine .inr ((Nat.le_div_iff_mul_le hpos).mpr ?_)
      have hne : num / den ≠ 0 := by
        intro hzero
        rw [hzero] at h
        exact absurd h (by decide)
      have hhalf : blockSize = 2 ^ 52 := by decide
      rw [hhalf, ← Nat.pow_add]
      exact Nat.le_trans (Nat.pow_le_pow_right (by decide) (by omega)) (Nat.log2_self_le hne)

theorem nearest_eq (negative : Bool) (num : Nat) {den : Nat} (hden : 0 < den) :
    ∃ rank, Rounds rank num den ∧
      nearest negative num den =
        if h : rank < rankCount then .finite negative ⟨rank, h⟩ else .infinite negative := by
  refine ⟨_, ?_, rfl⟩
  obtain ⟨hbelow, habove⟩ := div_block num den
  generalize (num / den).log2 - 52 = block at *
  rw [Nat.shiftLeft_eq]
  have hpos : 0 < den * 2 ^ block := Nat.mul_pos hden (Nat.two_pow_pos _)
  obtain ⟨hlow, hhigh, heven⟩ := roundHalfEven_spec num hpos
  have hfloor := div_le_roundHalfEven num (den * 2 ^ block)
  have hceil := roundHalfEven_le num (den * 2 ^ block)
  generalize roundHalfEven num (den * 2 ^ block) = m at *
  have hblock : block = 0 ∨ blockSize ≤ m := habove.imp_right (Nat.le_trans · hfloor)
  have hm : m ≤ 2 * blockSize := by omega
  have hfull : m = 2 * blockSize → num < m * (den * 2 ^ block) := by
    rintro rfl
    exact (Nat.div_lt_iff_lt_mul hpos).mp hbelow
  have hedge : block ≠ 0 → m = blockSize → m * (den * 2 ^ block) ≤ num := by
    rintro hne rfl
    exact (Nat.le_div_iff_mul_le hpos).mp (habove.resolve_left hne)
  obtain ⟨hrankLow, hlowEdge⟩ := low_block hden hblock hm hedge hlow
  obtain ⟨hrankHigh, hhighEdge⟩ := high_block hblock hm hfull hhigh
  have hparity : (block * blockSize + m) % 2 = m % 2 := by
    simp only [blockSize]
    omega
  refine ⟨hrankLow, hrankHigh, ?_⟩
  rw [hparity]
  rintro (h | h)
  · rcases hlowEdge h with hedge | rfl
    · exact heven (.inl hedge)
    · rfl
  · exact heven (.inr (hhighEdge h))

theorem nearest_of_rounds {rank num den : Nat} (hden : 0 < den) (h : Rounds rank num den)
    (hrank : rank < rankCount) (negative : Bool) :
    nearest negative num den = .finite negative ⟨rank, hrank⟩ := by
  obtain ⟨other, hother, hnearest⟩ := nearest_eq negative num hden
  cases h.unique hden hother
  rw [hnearest, dif_pos hrank]

theorem rounds_units (rank : Nat) : Rounds rank (units rank) 1 := by
  have hbelow : units (rank - 1) ≤ units rank := units_strictMono.monotone (Nat.sub_le rank 1)
  have habove := units_strictMono (Nat.lt_add_one rank)
  refine ⟨by omega, by omega, ?_⟩
  rintro (h | h)
  · have hzero : rank - 1 = rank := units_strictMono.injective (by omega)
    omega
  · omega

theorem nearest_units (negative : Bool) (rank : Fin rankCount) :
    nearest negative (units rank) 1 = .finite negative rank :=
  nearest_of_rounds Nat.one_pos (rounds_units rank) rank.isLt negative

theorem Rounds.congr {rank num den num' den' : Nat} (h : Rounds rank num den) (hden : 0 < den)
    (hden' : 0 < den') (heq : num * den' = num' * den) : Rounds rank num' den' := by
  have hscale (a : Nat) : a * den' * den = a * den * den' := Nat.mul_right_comm a den' den
  have hnum : 2 * num' * den = 2 * num * den' := by rw [Nat.mul_assoc, ← heq, Nat.mul_assoc]
  obtain ⟨hlow, hhigh, heven⟩ := h
  constructor
  · refine Nat.le_of_mul_le_mul_right ?_ hden
    rw [hscale, hnum]
    exact Nat.mul_le_mul_right den' hlow
  · refine Nat.le_of_mul_le_mul_right ?_ hden
    rw [hscale, hnum]
    exact Nat.mul_le_mul_right den' hhigh
  · rintro (h | h)
    · refine heven (.inl (Nat.eq_of_mul_eq_mul_right hden' ?_))
      rw [← hscale, h, hnum]
    · refine heven (.inr (Nat.eq_of_mul_eq_mul_right hden' ?_))
      rw [← hnum, h, hscale]

def RoundsDecimal (rank digits : Nat) (exponent : Int) : Prop :=
  Rounds rank (digits * Decimal.power exponent.toNat * unity) (Decimal.power (-exponent).toNat)

theorem power_pos (n : Nat) : 0 < Decimal.power n := Nat.pow_pos (by decide)

theorem power_add (m n : Nat) : Decimal.power (m + n) = Decimal.power m * Decimal.power n :=
  Nat.pow_add 10 m n

theorem two_pow_le_power (n : Nat) : 2 ^ (3 * n) ≤ Decimal.power n := by
  rw [Nat.pow_mul]
  exact Nat.pow_le_pow_left (by decide) n

theorem RoundsDecimal.shift {rank digits : Nat} {exponent : Int}
    (h : RoundsDecimal rank digits exponent) (k : Nat) :
    RoundsDecimal rank (digits * Decimal.power k) (exponent - k) := by
  refine h.congr (power_pos _) (power_pos _) ?_
  have hexponents : exponent.toNat + (-(exponent - k)).toNat =
      k + (exponent - k).toNat + (-exponent).toNat := by omega
  have hpowers := congrArg Decimal.power hexponents
  rw [power_add, power_add, power_add] at hpowers
  calc digits * Decimal.power exponent.toNat * unity * Decimal.power (-(exponent - k)).toNat
      = digits * unity *
          (Decimal.power exponent.toNat * Decimal.power (-(exponent - k)).toNat) := by ring
    _ = digits * Decimal.power k * Decimal.power (exponent - k).toNat * unity *
          Decimal.power (-exponent).toNat := by rw [hpowers]; ring

theorem units_rankCount {bits : Nat} (h : bits = 52 + 2046) : units rankCount = 2 ^ bits := by
  have hblock := @units_block 2046 blockSize (.inr (Nat.le_refl _)) (by decide)
  have hrank : 2046 * blockSize + blockSize = rankCount := by decide
  have hsize : blockSize = 2 ^ 52 := by decide
  rw [hrank] at hblock
  rw [hblock, hsize, h, Nat.pow_add]

theorem units_le {rank : Nat} (hrank : rank ≤ rankCount) {bits : Nat} (h : bits = 52 + 2046) :
    units rank ≤ 2 ^ bits := by
  rw [← units_rankCount h]
  exact units_strictMono.monotone hrank

theorem unity_eq {bits : Nat} (h : bits = 1074) : unity = 2 ^ bits :=
  (congrArg (1 <<< ·) h).symm.trans (Nat.one_shiftLeft bits)

theorem unity_pos : 0 < unity := by
  obtain ⟨bits, h⟩ : ∃ bits, bits = 1074 := ⟨_, rfl⟩
  rw [unity_eq h]
  exact Nat.two_pow_pos bits

theorem units_pos {rank : Nat} (h : 0 < rank) : 0 < units rank :=
  Nat.lt_of_le_of_lt (Nat.zero_le _) (units_strictMono h)

theorem RoundsDecimal.digits_pos {rank digits : Nat} {exponent : Int} (hpos : 0 < rank)
    (h : RoundsDecimal rank digits exponent) : 0 < digits := by
  have hlow := h.low
  have hunits := units_pos hpos
  have hden := power_pos (-exponent).toNat
  refine Nat.pos_of_ne_zero fun hzero => ?_
  rw [hzero, Nat.zero_mul, Nat.zero_mul, Nat.mul_zero, Nat.le_zero, Nat.mul_eq_zero] at hlow
  omega

theorem roundsDecimal_ofNat {rank digits e : Nat} :
    RoundsDecimal rank digits (.ofNat e) ↔ Rounds rank (digits * Decimal.power e * unity) 1 := by
  have hden : (-Int.ofNat e).toNat = 0 := by
    rw [Int.ofNat_eq_natCast]
    omega
  rw [RoundsDecimal, hden]
  rfl

theorem roundsDecimal_negSucc {rank digits e : Nat} :
    RoundsDecimal rank digits (.negSucc e) ↔
      Rounds rank (digits * unity) (Decimal.power (e + 1)) := by
  have hnum : digits * Decimal.power (Int.negSucc e).toNat = digits := Nat.mul_one digits
  rw [RoundsDecimal, hnum]
  rfl

theorem Rounds.exponent_le {rank digits e : Nat}
    (h : Rounds rank (digits * Decimal.power e * unity) 1) (hdigits : 0 < digits)
    (hrank : rank < rankCount) : e ≤ 400 := by
  refine Nat.not_lt.mp fun hlarge => ?_
  obtain ⟨bits, hbits⟩ : ∃ bits, bits = 52 + 2046 := ⟨_, rfl⟩
  have hthis := units_le (Nat.le_of_lt hrank) hbits
  have hnext : units (rank + 1) ≤ 2 ^ bits := units_le hrank hbits
  have hpower : 2 ^ bits < Decimal.power e * unity := by
    obtain ⟨fine, hfine⟩ : ∃ fine, fine = 1074 := ⟨_, rfl⟩
    rw [unity_eq hfine]
    refine Nat.lt_of_lt_of_le ?_ (Nat.mul_le_mul_right _ (two_pow_le_power e))
    rw [← Nat.pow_add]
    exact Nat.pow_lt_pow_right (by decide) (by omega)
  have hproduct : Decimal.power e * unity ≤ digits * Decimal.power e * unity := by
    rw [Nat.mul_assoc]
    exact Nat.le_mul_of_pos_left _ hdigits
  have hhigh := h.high
  rw [Nat.mul_one] at hhigh
  generalize 2 ^ bits = bound at *
  omega

theorem Rounds.lt_log2 {rank digits e : Nat}
    (h : Rounds rank (digits * unity) (Decimal.power e)) (hrank : 0 < rank) :
    3 * e < digits.log2 + 1076 := by
  refine Nat.not_le.mp fun hsmall => ?_
  have hunits : 0 < units (rank - 1) + units rank :=
    Nat.lt_of_lt_of_le (units_pos hrank) (Nat.le_add_left _ _)
  have hden := Nat.le_trans (Nat.le_mul_of_pos_left (Decimal.power e) hunits) h.low
  obtain ⟨bits, hbits⟩ : ∃ bits, bits = 1074 := ⟨_, rfl⟩
  have hpower : 2 * (digits * 2 ^ bits) < Decimal.power e :=
    calc 2 * (digits * 2 ^ bits) < 2 * (2 ^ (digits.log2 + 1) * 2 ^ bits) :=
          Nat.mul_lt_mul_of_pos_left
            (Nat.mul_lt_mul_of_pos_right Nat.lt_log2_self (Nat.two_pow_pos _)) (by decide)
      _ = 2 ^ (digits.log2 + 2 + bits) := by ring
      _ ≤ 2 ^ (3 * e) := Nat.pow_le_pow_right (by decide) (by omega)
      _ ≤ Decimal.power e := two_pow_le_power e
  rw [unity_eq hbits] at hden
  exact absurd hpower (Nat.not_lt.mpr hden)

theorem rounds_zero {den : Nat} : Rounds 0 0 den where
  low := by simp [units]
  high := Nat.zero_le _
  even _ := rfl

theorem ofDecimal_eq (negative : Bool) (digits : Nat) (exponent : Int) :
    ∃ rank, RoundsDecimal rank digits exponent ∧ ofDecimal negative digits exponent =
      if h : rank < rankCount then .finite negative ⟨rank, h⟩ else .infinite negative := by
  rw [ofDecimal.eq_def]
  by_cases hzero : digits = 0
  · subst hzero
    refine ⟨0, ?_, if_pos rfl⟩
    rw [RoundsDecimal, Nat.zero_mul, Nat.zero_mul]
    exact rounds_zero
  rw [if_neg hzero]
  cases exponent with
  | ofNat e =>
      obtain ⟨rank, hrounds, hnearest⟩ :=
        nearest_eq negative (digits * Decimal.power e * unity) Nat.one_pos
      refine ⟨rank, roundsDecimal_ofNat.mpr hrounds, ?_⟩
      dsimp only
      split
      · next hlarge =>
        have hrank : ¬rank < rankCount := fun hrank =>
          absurd (hrounds.exponent_le (Nat.pos_of_ne_zero hzero) hrank) (Nat.not_le.mpr hlarge)
        rw [dif_neg hrank]
      · exact hnearest
  | negSucc e =>
      obtain ⟨rank, hrounds, hnearest⟩ := nearest_eq negative (digits * unity) (power_pos (e + 1))
      refine ⟨rank, roundsDecimal_negSucc.mpr hrounds, ?_⟩
      dsimp only
      split
      · next hsmall =>
        have hrank : rank = 0 := Nat.eq_zero_of_not_pos fun hpos =>
          absurd (hrounds.lt_log2 hpos) (Nat.not_lt.mpr hsmall)
        subst hrank
        rfl
      · exact hnearest

theorem ofDecimal_of_rounds {rank digits : Nat} {exponent : Int}
    (h : RoundsDecimal rank digits exponent) (hrank : rank < rankCount) (negative : Bool) :
    ofDecimal negative digits exponent = .finite negative ⟨rank, hrank⟩ := by
  obtain ⟨other, hother, hdecimal⟩ := ofDecimal_eq negative digits exponent
  cases Rounds.unique (power_pos _) h hother
  rw [hdecimal, dif_pos hrank]

theorem ofDecimal_shift (negative : Bool) (digits : Nat) (exponent : Int) (k : Nat) :
    ofDecimal negative (digits * Decimal.power k) (exponent - k) =
      ofDecimal negative digits exponent := by
  obtain ⟨rank, hrounds, hdecimal⟩ := ofDecimal_eq negative digits exponent
  obtain ⟨other, hother, hshifted⟩ :=
    ofDecimal_eq negative (digits * Decimal.power k) (exponent - k)
  cases Rounds.unique (power_pos _) (hrounds.shift k) hother
  rw [hdecimal, hshifted]

theorem isFinite_nearest (negative : Bool) {num den : Nat} (h : (num / den).log2 ≤ 2096) :
    (nearest negative num den).isFinite := by
  have hquotient : num / (den <<< ((num / den).log2 - 52)) < 2 ^ 53 := by
    rw [Nat.shiftLeft_eq, ← Nat.div_div_eq_div_mul]
    refine Nat.div_lt_of_lt_mul ?_
    rw [← Nat.pow_add]
    refine Nat.lt_of_lt_of_le Nat.lt_log2_self ?_
    exact Nat.pow_le_pow_right (by decide) (by omega)
  have hround := roundHalfEven_le num (den <<< ((num / den).log2 - 52))
  have hrank : ((num / den).log2 - 52) * blockSize +
      roundHalfEven num (den <<< ((num / den).log2 - 52)) < rankCount := by
    simp only [blockSize, rankCount]
    omega
  rw [nearest, dif_pos hrank, isFinite]

theorem log2_mul_shift_le {a m : Nat} (h : a ≤ 1 <<< m) (n : Nat) :
    (a * 1 <<< n).log2 ≤ m + n := by
  rw [Nat.one_shiftLeft] at h ⊢
  by_cases hzero : a * 2 ^ n = 0
  · simp [hzero]
  · refine Nat.le_of_lt_succ ((Nat.log2_lt hzero).mpr ?_)
    refine Nat.lt_of_le_of_lt (Nat.mul_le_mul_right _ h) ?_
    rw [← Nat.pow_add]
    exact Nat.pow_lt_pow_right (by decide) (Nat.lt_succ_self _)

theorem isFinite_ofInt {i : Int} (h : i.natAbs ≤ UInt64.size) : (ofInt i).isFinite := by
  have hbits : (i.natAbs * unity).log2 ≤ 64 + 1074 := log2_mul_shift_le h 1074
  refine isFinite_nearest _ ?_
  rw [Nat.div_one]
  omega

end Registrar.Binary64
