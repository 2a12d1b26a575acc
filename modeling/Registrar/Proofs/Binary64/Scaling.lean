import Registrar.Binary64.Scaling
import Registrar.Proofs.Binary64.Range
import Registrar.Proofs.Binary64.Value

namespace Registrar.Binary64

theorem ofNat_eq_nearest (n : Nat) : ofNat n = nearest false (n * unity) 1 := by
  have hsign : decide ((n : Int) < 0) = false := decide_eq_false (by omega)
  rw [ofNat, ofInt, Int.natAbs_natCast, hsign]

theorem power_le_power {m n : Nat} (h : m ≤ n) : Decimal.power m ≤ Decimal.power n :=
  Nat.pow_le_pow_right (by decide) h

theorem Rounds.le_of_units_le {rank other num : Nat} (h : Rounds rank num 1)
    (hle : units other ≤ num) : other ≤ rank := by
  by_contra hlt
  have hnext : units (rank + 1) ≤ units other := units_strictMono.monotone (by omega)
  have hrank : units rank < units other := units_strictMono (by omega)
  have hhigh := h.high
  omega

theorem unity_le_units_of_rounds {rank n : Nat} (h : Rounds rank (n * unity) 1) (hn : 0 < n) :
    unity ≤ units rank := by
  have hone : units 0x3FF0000000000000 = unity := rfl
  have hle : unity ≤ n * unity := Nat.le_mul_of_pos_left unity hn
  rw [← hone] at hle ⊢
  exact units_strictMono.monotone (h.le_of_units_le hle)

theorem exists_powerOfTen {n : Nat} (hn : n ≤ topPower) :
    ∃ rank : Fin rankCount, powerOfTen n = .finite false rank ∧ unity ≤ units rank := by
  obtain ⟨rank, hrounds, hnearest⟩ := nearest_eq false (Decimal.power n * unity) Nat.one_pos
  have hfinite : (nearest false (Decimal.power n * unity) 1).isFinite := by
    have hlast : Decimal.power topPower * unity ≤ units (rankCount - 1) := by decide +kernel
    refine isFinite_nearest_of_le false Nat.one_pos (Nat.sub_lt (by decide) Nat.one_pos) ?_
    rw [Nat.mul_one]
    exact (Nat.mul_le_mul_right unity (power_le_power hn)).trans hlast
  rw [powerOfTen, ofNat_eq_nearest]
  rw [hnearest] at hfinite ⊢
  split at hfinite
  · next hrank =>
    rw [dif_pos hrank]
    exact ⟨⟨rank, hrank⟩, rfl, unity_le_units_of_rounds hrounds (power_pos n)⟩
  · cases hfinite

theorem isFinite_div_powerOfTen {x : Binary64} (h : x.isFinite) {n : Nat} (hn : n ≤ topPower) :
    (x / powerOfTen n).isFinite := by
  obtain ⟨rank, hpower, hone⟩ := exists_powerOfTen hn
  rw [hpower]
  exact isFinite_div h false hone

theorem isFinite_lower {x : Binary64} (h : x.isFinite) (times : Nat) :
    (lower x times).isFinite := by
  induction times generalizing x with
  | zero => exact h
  | succ times ih =>
      rw [lower]
      split
      · exact h
      · exact ih (isFinite_div_powerOfTen h (Nat.le_refl topPower))

theorem isFinite_scale? {significand : Nat} {exponent : Int} {x : Binary64}
    (hs : significand < UInt64.size) (h : scale? significand exponent = some x) : x.isFinite := by
  have hstart : (ofNat significand).isFinite := by
    refine isFinite_ofInt ?_
    rw [Int.natAbs_natCast]
    exact hs.le
  cases exponent with
  | ofNat e =>
      simp only [scale?] at h
      split at h
      · obtain ⟨_, hx⟩ := Option.ite_none_right_eq_some.mp h
        cases hx
        exact hstart
      · obtain ⟨hfinite, hx⟩ := Option.ite_none_right_eq_some.mp h
        cases hx
        exact hfinite
  | negSucc e =>
      cases h
      have hrest : e % topPower + 1 ≤ topPower := Nat.mod_lt e (by decide)
      exact isFinite_div_powerOfTen (isFinite_lower hstart _) hrest

def exactPower : Nat := 22

def Counts (x : Binary64) (n : Nat) : Prop :=
  ∃ rank : Fin rankCount, x = .finite false rank ∧ units rank = n * unity

theorem counts_ofNat {n : Nat} (hn : n < 2 * blockSize) : (ofNat n).Counts n := by
  obtain ⟨rank, hrank, hunits⟩ := exists_units_shift hn (Nat.zero_le 900)
  rw [Nat.pow_zero, Nat.mul_one] at hunits
  exact ⟨⟨rank, hrank⟩, ofNat_of_units hunits, hunits⟩

theorem counts_powerOfTen {n : Nat} (hn : n ≤ exactPower) :
    (powerOfTen n).Counts (Decimal.power n) := by
  have hfives : 5 ^ n < 2 * blockSize :=
    Nat.lt_of_le_of_lt (Nat.pow_le_pow_right (by decide) hn) (by decide)
  obtain ⟨rank, hrank, hunits⟩ := exists_units_shift hfives (hn.trans (by decide))
  rw [← Nat.mul_pow] at hunits
  exact ⟨⟨rank, hrank⟩, ofNat_of_units hunits, hunits⟩

namespace Counts

variable {x y : Binary64} {digits e : Nat}

theorem mul_eq (hx : x.Counts digits) (hy : y.Counts (Decimal.power e)) :
    x * y = ofDecimal false digits (.ofNat e) := by
  obtain ⟨a, rfl, ha⟩ := hx
  obtain ⟨b, rfl, hb⟩ := hy
  have hpos := unity_pos
  obtain ⟨rank, hrounds, hdecimal⟩ := ofDecimal_eq false digits (.ofNat e)
  obtain ⟨other, hother, hnearest⟩ := nearest_eq false (units a * units b) hpos
  have hsame : other = rank := by
    refine hother.unique hpos ((roundsDecimal_ofNat.mp hrounds).congr Nat.one_pos hpos ?_)
    rw [ha, hb]
    ring
  rw [hdecimal, ← hsame]
  exact hnearest

theorem div_eq (hx : x.Counts digits) (hy : y.Counts (Decimal.power (e + 1))) :
    x / y = ofDecimal false digits (.negSucc e) := by
  obtain ⟨a, rfl, ha⟩ := hx
  obtain ⟨b, rfl, hb⟩ := hy
  have hscale : 0 < units b := by
    rw [hb]
    exact Nat.mul_pos (power_pos _) unity_pos
  have hnonzero : b.val ≠ 0 := by
    intro hzero
    rw [hzero] at hscale
    exact absurd hscale (by decide)
  obtain ⟨rank, hrounds, hdecimal⟩ := ofDecimal_eq false digits (.negSucc e)
  obtain ⟨other, hother, hnearest⟩ := nearest_eq false (units a * unity) hscale
  have hsame : other = rank := by
    refine hother.unique hscale ((roundsDecimal_negSucc.mp hrounds).congr (power_pos _) hscale ?_)
    rw [ha, hb]
    ring
  rw [hdecimal, ← hsame]
  exact (if_neg hnonzero).trans hnearest

end Counts

theorem scale?_eq_ofDecimal {digits : Nat} {exponent : Int} (hdigits : digits < 2 * blockSize)
    (hexponent : exponent.natAbs ≤ exactPower) :
    scale? digits exponent =
      if (ofDecimal false digits exponent).isFinite then some (ofDecimal false digits exponent)
      else none := by
  have hnumber := counts_ofNat hdigits
  have htop : exactPower ≤ topPower := by decide
  cases exponent with
  | ofNat e =>
      have he : e ≤ exactPower := hexponent
      simp only [scale?]
      rw [if_neg (Nat.not_lt.mpr (he.trans htop)), hnumber.mul_eq (counts_powerOfTen he)]
  | negSucc e =>
      have he : e + 1 ≤ exactPower := hexponent
      have hsmall : e < topPower := Nat.lt_of_lt_of_le he htop
      have hstart : (ofNat digits).isFinite := by
        obtain ⟨rank, hrank, _⟩ := hnumber
        rw [hrank, isFinite]
      have hfinite := isFinite_div_powerOfTen hstart (he.trans htop)
      simp only [scale?]
      rw [Nat.div_eq_of_lt hsmall, Nat.mod_eq_of_lt hsmall, lower]
      rw [hnumber.div_eq (counts_powerOfTen he)] at hfinite ⊢
      rw [if_pos hfinite]

end Registrar.Binary64
