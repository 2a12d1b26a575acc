import Registrar.Binary64.Shortest
import Registrar.Proofs.Binary64.Rounding

namespace Registrar.Binary64

theorem two_pow_dvd_units {rank n : Nat} (h : n ≤ rank / blockSize - 1) : 2 ^ n ∣ units rank := by
  obtain ⟨m, hrank, hblock, hm⟩ := exists_block rank
  generalize rank / blockSize - 1 = block at *
  subst hrank
  rw [units_block hblock (Nat.le_of_lt hm)]
  exact Dvd.dvd.mul_left (Nat.pow_dvd_pow 2 h) m

namespace Interval

def coarse (rank : Nat) : Nat := Nat.min (rank / blockSize - 2) 1074

theorem shift_mul {n k : Nat} (h : 2 ^ k ∣ n) : (n >>> k) * 2 ^ k = n := by
  rw [Nat.shiftRight_eq_div_pow, Nat.div_mul_cancel h]

theorem two_pow_coarse_dvd {rank other : Nat}
    (h : rank / blockSize - 2 ≤ other / blockSize - 1) : 2 ^ coarse rank ∣ units other :=
  two_pow_dvd_units (Nat.le_trans (Nat.min_le_left _ _) h)

theorem pred_block (rank : Nat) : rank / blockSize - 2 ≤ (rank - 1) / blockSize - 1 := by
  simp only [blockSize]
  omega

theorem same_block (rank : Nat) : rank / blockSize - 2 ≤ rank / blockSize - 1 := by
  omega

theorem succ_block (rank : Nat) : rank / blockSize - 2 ≤ (rank + 1) / blockSize - 1 := by
  simp only [blockSize]
  omega

theorem ofRank_low (rank : Nat) :
    (ofRank rank).low * 2 ^ coarse rank = units (rank - 1) + units rank :=
  shift_mul (Nat.dvd_add (two_pow_coarse_dvd (pred_block rank))
    (two_pow_coarse_dvd (same_block rank)))

theorem ofRank_middle (rank : Nat) :
    (ofRank rank).middle * 2 ^ coarse rank = 2 * units rank :=
  shift_mul (Dvd.dvd.mul_left (two_pow_coarse_dvd (same_block rank)) 2)

theorem ofRank_high (rank : Nat) :
    (ofRank rank).high * 2 ^ coarse rank = units rank + units (rank + 1) :=
  shift_mul (Nat.dvd_add (two_pow_coarse_dvd (same_block rank))
    (two_pow_coarse_dvd (succ_block rank)))

theorem ofRank_unit (rank : Nat) : (ofRank rank).unit * 2 ^ coarse rank = 2 * unity := by
  refine shift_mul (Dvd.dvd.mul_left ?_ 2)
  obtain ⟨bits, h⟩ : ∃ bits, bits = 1074 := ⟨_, rfl⟩
  rw [unity_eq h]
  exact Nat.pow_dvd_pow 2 (h ▸ Nat.min_le_right _ _)

theorem rounds_of_holds {rank c : Nat} {k : Int}
    (h : (ofRank rank).holds (Decimal.power (-k).toNat)
      (c * (Decimal.power k.toNat * (ofRank rank).unit))) : RoundsDecimal rank c k := by
  have hpos : 0 < 2 ^ coarse rank := Nat.two_pow_pos _
  have hlow : (units (rank - 1) + units rank) * Decimal.power (-k).toNat =
      (ofRank rank).low * Decimal.power (-k).toNat * 2 ^ coarse rank := by
    rw [← ofRank_low]
    ring
  have hhigh : (units rank + units (rank + 1)) * Decimal.power (-k).toNat =
      (ofRank rank).high * Decimal.power (-k).toNat * 2 ^ coarse rank := by
    rw [← ofRank_high]
    ring
  have hnum : 2 * (c * Decimal.power k.toNat * unity) =
      c * (Decimal.power k.toNat * (ofRank rank).unit) * 2 ^ coarse rank := by
    rw [Nat.mul_left_comm, ← ofRank_unit]
    ring
  rw [holds] at h
  have heven : (ofRank rank).closed = true ↔ rank % 2 = 0 := decide_eq_true_iff
  by_cases hclosed : (ofRank rank).closed = true
  · rw [if_pos hclosed, Bool.and_eq_true, decide_eq_true_iff, decide_eq_true_iff] at h
    constructor
    · rw [hlow, hnum]
      exact Nat.mul_le_mul_right _ h.1
    · rw [hhigh, hnum]
      exact Nat.mul_le_mul_right _ h.2
    · exact fun _ => heven.mp hclosed
  · rw [if_neg hclosed, Bool.and_eq_true, decide_eq_true_iff, decide_eq_true_iff] at h
    have hlt := Nat.mul_lt_mul_of_pos_right h.1 hpos
    have hgt := Nat.mul_lt_mul_of_pos_right h.2 hpos
    rw [← hlow, ← hnum] at hlt
    rw [← hhigh, ← hnum] at hgt
    refine ⟨Nat.le_of_lt hlt, Nat.le_of_lt hgt, ?_⟩
    rintro (heq | heq)
    · exact absurd heq (Nat.ne_of_lt hlt)
    · exact absurd heq (Nat.ne_of_lt hgt)

theorem rounds_of_gridPoint? {rank c : Nat} {tie : Tie} {k : Int}
    (h : (ofRank rank).gridPoint? tie k = some c) : RoundsDecimal rank c k := by
  unfold gridPoint? at h
  dsimp only at h
  split at h
  · next hbelow habove =>
    cases h
    split
    · exact rounds_of_holds habove
    · exact rounds_of_holds hbelow
  · next hbelow _ => cases h; exact rounds_of_holds hbelow
  · next _ habove => cases h; exact rounds_of_holds habove
  · cases h

theorem gridPoint?_isSome {i : Interval} {k : Int} (hunit : 0 < i.unit) (hlow : i.low ≤ i.middle)
    (hstep : i.middle * Decimal.power (-k).toNat + Decimal.power k.toNat * i.unit <
      i.high * Decimal.power (-k).toNat) (tie : Tie) : (i.gridPoint? tie k).isSome := by
  have hpos : 0 < Decimal.power k.toNat * i.unit := Nat.mul_pos (power_pos _) hunit
  unfold gridPoint?
  dsimp only
  generalize Decimal.power (-k).toNat = scale at *
  generalize Decimal.power k.toNat * i.unit = step at *
  have habove : i.holds scale ((i.middle * scale / step + 1) * step) = true := by
    have hdiv := Nat.div_add_mod (i.middle * scale) step
    have hmod := Nat.mod_lt (i.middle * scale) hpos
    have hscaled := Nat.mul_le_mul_right scale hlow
    rw [Nat.add_mul, Nat.one_mul, Nat.mul_comm _ step, holds]
    split <;> rw [Bool.and_eq_true, decide_eq_true_iff, decide_eq_true_iff] <;> omega
  rw [habove]
  split <;> first | rfl | contradiction

end Interval

theorem power_le {n bits : Nat} (h : 196 * n ≤ 59 * bits) : Decimal.power n ≤ 2 ^ bits := by
  refine (Nat.pow_le_pow_iff_left (n := 59) (by decide)).mp ?_
  calc Decimal.power n ^ 59 = (10 ^ 59) ^ n := Nat.pow_right_comm 10 n 59
    _ ≤ (2 ^ 196) ^ n := Nat.pow_le_pow_left (by decide) n
    _ = 2 ^ (196 * n) := (Nat.pow_mul 2 196 n).symm
    _ ≤ 2 ^ (bits * 59) := Nat.pow_le_pow_right (by decide) (by omega)
    _ = (2 ^ bits) ^ 59 := Nat.pow_mul 2 bits 59

theorem le_power {n bits : Nat} (h : 28 * bits ≤ 93 * n) : 2 ^ bits ≤ Decimal.power n := by
  refine (Nat.pow_le_pow_iff_left (n := 28) (by decide)).mp ?_
  calc (2 ^ bits) ^ 28 = 2 ^ (bits * 28) := (Nat.pow_mul 2 bits 28).symm
    _ ≤ 2 ^ (93 * n) := Nat.pow_le_pow_right (by decide) (by omega)
    _ = (2 ^ 93) ^ n := Nat.pow_mul 2 93 n
    _ ≤ (10 ^ 28) ^ n := Nat.pow_le_pow_left (by decide) n
    _ = Decimal.power n ^ 28 := Nat.pow_right_comm 10 28 n

theorem log2_units {rank : Nat} (hpos : 0 < rank) (hrank : rank < rankCount) :
    (units rank).log2 ≤ 2098 ∧ (units rank).log2 ≤ rank / blockSize - 1 + 52 := by
  have hne : units rank ≠ 0 := Nat.pos_iff_ne_zero.mp (units_pos hpos)
  constructor
  · obtain ⟨bits, h⟩ : ∃ bits, bits = 52 + 2046 := ⟨_, rfl⟩
    have hlt : units rank < 2 ^ (bits + 1) :=
      Nat.lt_of_le_of_lt (units_le (Nat.le_of_lt hrank) h)
        (Nat.pow_lt_pow_right (by decide) (Nat.lt_succ_self _))
    have hle := (Nat.log2_lt hne).mpr hlt
    omega
  · obtain ⟨m, hsplit, hblock, hm⟩ := exists_block rank
    generalize rank / blockSize - 1 = block at *
    have hsize : 2 * blockSize = 2 ^ 53 := by decide
    have hlt : units rank < 2 ^ (block + 53) := by
      rw [hsplit, units_block hblock (Nat.le_of_lt hm), Nat.mul_comm, Nat.pow_add]
      exact Nat.mul_lt_mul_of_pos_left (hsize ▸ hm) (Nat.two_pow_pos _)
    exact Nat.le_of_lt_succ ((Nat.log2_lt hne).mpr hlt)

theorem finest_step {rank : Nat} (hpos : 0 < rank) (hrank : rank < rankCount) :
    Decimal.power (topExponent rank - 19).toNat * (2 * unity) <
      2 ^ (rank / blockSize - 1) * Decimal.power (-(topExponent rank - 19)).toNat := by
  obtain ⟨bits, hbits⟩ : ∃ bits, bits = 1074 := ⟨_, rfl⟩
  obtain ⟨hsize, hgap⟩ := log2_units hpos hrank
  have htop : topExponent rank = ((units rank).log2 - 1073 : Int) * 30103 / 100000 + 1 := rfl
  generalize topExponent rank = top at *
  generalize (units rank).log2 = size at *
  generalize rank / blockSize - 1 = block at *
  -- both sides times `10 ^ 400`, so that no exponent is negative
  obtain ⟨n, hn⟩ : ∃ n : Nat, (n : Int) = top - 19 + 400 := ⟨(top - 19 + 400).toNat, by omega⟩
  have hexponents : (top - 19).toNat + 400 = n + (-(top - 19)).toNat := by omega
  have hpowers := congrArg Decimal.power hexponents
  rw [power_add, power_add] at hpowers
  have hup : Decimal.power n ≤ 2 ^ (block + 252) := power_le (by omega)
  have hdown : 2 ^ (bits + 254) ≤ Decimal.power 400 := le_power (by omega)
  refine Nat.lt_of_mul_lt_mul_right (a := Decimal.power 400) ?_
  rw [unity_eq hbits]
  calc Decimal.power (top - 19).toNat * (2 * 2 ^ bits) * Decimal.power 400
      = Decimal.power n * (2 * 2 ^ bits) * Decimal.power (-(top - 19)).toNat := by
        rw [Nat.mul_right_comm, hpowers]
        ring
    _ ≤ 2 ^ (block + 252) * (2 * 2 ^ bits) * Decimal.power (-(top - 19)).toNat :=
        Nat.mul_le_mul_right _ (Nat.mul_le_mul_right _ hup)
    _ < 2 ^ block * 2 ^ (bits + 254) * Decimal.power (-(top - 19)).toNat := by
        refine Nat.mul_lt_mul_of_pos_right ?_ (power_pos _)
        rw [← Nat.pow_succ', ← Nat.pow_add, ← Nat.pow_add]
        exact Nat.pow_lt_pow_right (by decide) (by omega)
    _ ≤ 2 ^ block * Decimal.power 400 * Decimal.power (-(top - 19)).toNat :=
        Nat.mul_le_mul_right _ (Nat.mul_le_mul_left _ hdown)
    _ = 2 ^ block * Decimal.power (-(top - 19)).toNat * Decimal.power 400 :=
        Nat.mul_right_comm ..

theorem units_succ_le {rank : Nat} (hpos : 0 < rank) : units (rank + 1) ≤ 2 * units rank := by
  obtain ⟨m, hrank, hblock, hm⟩ := exists_block rank
  rw [units_succ, Nat.two_mul]
  refine Nat.add_le_add_left ?_ _
  generalize rank / blockSize - 1 = block at *
  subst hrank
  rw [units_block hblock (Nat.le_of_lt hm)]
  refine Nat.le_mul_of_pos_left _ (Nat.pos_of_ne_zero ?_)
  rintro rfl
  simp only [blockSize] at *
  omega

theorem RoundsDecimal.digits_lt {rank c : Nat} {k : Int} (h : RoundsDecimal rank c k)
    (hpos : 0 < rank) (hrank : rank < rankCount) (hk : topExponent rank - 19 ≤ k) :
    c < Decimal.power 34 := by
  by_contra hlarge
  obtain ⟨bits, hbits⟩ : ∃ bits, bits = 1074 := ⟨_, rfl⟩
  obtain ⟨hsize, _⟩ := log2_units hpos hrank
  have htop : topExponent rank = ((units rank).log2 - 1073 : Int) * 30103 / 100000 + 1 := rfl
  have hunits := @Nat.lt_log2_self (units rank)
  have hsucc := units_succ_le hpos
  have hhigh := h.high
  generalize topExponent rank = top at *
  generalize (units rank).log2 = size at *
  have hbelow : c * Decimal.power k.toNat * 2 ^ bits < 2 ^ (size + 2) * Decimal.power (-k).toNat := by
    have hpower : 2 ^ (size + 2) = 2 * 2 ^ (size + 1) := Nat.pow_succ'
    have hsum : units rank + units (rank + 1) < 2 * 2 ^ (size + 2) := by omega
    have hscaled := Nat.mul_lt_mul_of_pos_right hsum (power_pos (-k).toNat)
    rw [unity_eq hbits] at hhigh
    rw [Nat.mul_assoc 2] at hscaled
    exact Nat.lt_of_mul_lt_mul_left (hhigh.trans_lt hscaled)
  obtain ⟨n, hn⟩ : ∃ n : Nat, (n : Int) = k + 350 := ⟨(k + 350).toNat, by omega⟩
  have hexponents : k.toNat + 350 = n + (-k).toNat := by omega
  have hpowers := congrArg Decimal.power hexponents
  rw [power_add, power_add] at hpowers
  have hup : Decimal.power 350 ≤ 2 ^ (bits + 89) := power_le (by omega)
  have hdown : 2 ^ (size + 91) ≤ Decimal.power (34 + n) := le_power (by omega)
  refine absurd hbelow (Nat.not_lt.mpr (Nat.le_of_mul_le_mul_right ?_ (power_pos 350)))
  calc 2 ^ (size + 2) * Decimal.power (-k).toNat * Decimal.power 350
      ≤ 2 ^ (size + 2) * Decimal.power (-k).toNat * 2 ^ (bits + 89) := Nat.mul_le_mul_left _ hup
    _ = 2 ^ (size + 91) * (Decimal.power (-k).toNat * 2 ^ bits) := by ring
    _ ≤ Decimal.power (34 + n) * (Decimal.power (-k).toNat * 2 ^ bits) :=
        Nat.mul_le_mul_right _ hdown
    _ = Decimal.power 34 * (Decimal.power n * Decimal.power (-k).toNat) * 2 ^ bits := by
        rw [power_add]
        ring
    _ ≤ c * (Decimal.power n * Decimal.power (-k).toNat) * 2 ^ bits :=
        Nat.mul_le_mul_right _ (Nat.mul_le_mul_right _ (Nat.not_lt.mp hlarge))
    _ = c * Decimal.power k.toNat * 2 ^ bits * Decimal.power 350 := by
        rw [← hpowers]
        ring

theorem gridPoint?_finest {rank : Nat} (hpos : 0 < rank) (hrank : rank < rankCount) (tie : Tie) :
    ((Interval.ofRank rank).gridPoint? tie (topExponent rank - 19)).isSome := by
  have hscale : 0 < 2 ^ Interval.coarse rank := Nat.two_pow_pos _
  have hlow := Interval.ofRank_low rank
  have hmiddle := Interval.ofRank_middle rank
  have hhigh := Interval.ofRank_high rank
  have hunit := Interval.ofRank_unit rank
  refine Interval.gridPoint?_isSome ?_ ?_ ?_ tie
  · refine (Nat.mul_pos_iff_of_pos_right hscale).mp ?_
    rw [hunit]
    exact Nat.mul_pos Nat.two_pos unity_pos
  · refine Nat.le_of_mul_le_mul_right ?_ hscale
    rw [hlow, hmiddle, Nat.two_mul]
    exact Nat.add_le_add_right (units_strictMono.monotone (Nat.sub_le rank 1)) _
  · have hstep := finest_step hpos hrank
    generalize topExponent rank - 19 = k at *
    refine Nat.lt_of_mul_lt_mul_right (a := 2 ^ Interval.coarse rank) ?_
    calc ((Interval.ofRank rank).middle * Decimal.power (-k).toNat +
            Decimal.power k.toNat * (Interval.ofRank rank).unit) * 2 ^ Interval.coarse rank
        = (Interval.ofRank rank).middle * 2 ^ Interval.coarse rank * Decimal.power (-k).toNat +
            Decimal.power k.toNat * ((Interval.ofRank rank).unit * 2 ^ Interval.coarse rank) := by
          ring
      _ < 2 * units rank * Decimal.power (-k).toNat +
            2 ^ (rank / blockSize - 1) * Decimal.power (-k).toNat := by
          rw [hmiddle, hunit]
          exact Nat.add_lt_add_left hstep _
      _ = (Interval.ofRank rank).high * Decimal.power (-k).toNat * 2 ^ Interval.coarse rank := by
          rw [Nat.mul_right_comm (Interval.ofRank rank).high, hhigh, units_succ]
          ring

theorem shortest_rounds (tie : Tie) (negative : Bool) {rank : Nat} (hpos : 0 < rank)
    (hrank : rank < rankCount) :
    ∃ c k, shortest tie negative rank = ⟨signed negative c, k⟩ ∧ RoundsDecimal rank c k ∧
      topExponent rank - 19 ≤ k := by
  have hfound : ((List.range 20).findSome? fun (i : Nat) =>
      ((Interval.ofRank rank).gridPoint? tie (topExponent rank - i)).map fun c =>
        (⟨signed negative c, topExponent rank - i⟩ : Decimal)).isSome := by
    rw [List.findSome?_isSome_iff]
    refine ⟨19, List.mem_range.mpr (by decide), ?_⟩
    rw [Option.isSome_map]
    exact gridPoint?_finest hpos hrank tie
  obtain ⟨d, hd⟩ := Option.isSome_iff_exists.mp hfound
  obtain ⟨i, hi, hgrid⟩ := List.exists_of_findSome?_eq_some hd
  obtain ⟨c, hc, rfl⟩ := Option.map_eq_some_iff.mp hgrid
  have htried := List.mem_range.mp hi
  refine ⟨c, topExponent rank - i, ?_, Interval.rounds_of_gridPoint? hc, by omega⟩
  rw [shortest, if_neg (Nat.pos_iff_ne_zero.mp hpos)]
  dsimp only
  rw [hd, Option.getD_some]

theorem natAbs_shortest_lt (tie : Tie) (negative : Bool) (rank : Fin rankCount) :
    (shortest tie negative rank).coefficient.natAbs < Decimal.power 34 := by
  by_cases hzero : rank.val = 0
  · rw [shortest, if_pos hzero]
    exact power_pos 34
  · have hpos := Nat.pos_of_ne_zero hzero
    obtain ⟨c, k, hshortest, hrounds, hk⟩ := shortest_rounds tie negative hpos rank.isLt
    rw [hshortest, natAbs_signed]
    exact hrounds.digits_lt hpos rank.isLt hk

theorem signed_natAbs_shortest (tie : Tie) (negative : Bool) (rank : Fin rankCount) :
    signed negative (shortest tie negative rank).coefficient.natAbs =
      (shortest tie negative rank).coefficient := by
  by_cases hzero : rank.val = 0
  · rw [shortest, if_pos hzero]
    cases negative <;> rfl
  · obtain ⟨c, k, hshortest, _⟩ :=
      shortest_rounds tie negative (Nat.pos_of_ne_zero hzero) rank.isLt
    rw [hshortest, natAbs_signed]

end Registrar.Binary64
