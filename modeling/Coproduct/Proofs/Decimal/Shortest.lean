import Coproduct.Decimal.Shortest
import Coproduct.Proofs.Binary.Rounding
/-!
# Shortest decimals read back

A decimal is rounded by its value alone: zeros moved between its digits and its exponent do not
matter (`nearestRank_shift`), and the bounds that spare large powers of ten do not either
(`nearest?_eq`). The shortest decimal of a number has the number's rank for its nearest, whether the
search has found it or not (`nearestRank_shortest`).

§1 the value of a decimal · §2 bounds on the exponent · §3 the search.
-/

namespace Coproduct

namespace ScaledDecimal

variable {F : BinaryFormat} {d : ScaledDecimal}

/-! ## §1  The value of a decimal -/

theorem nearestRank_eq (F : BinaryFormat) (d : ScaledDecimal) :
    d.nearestRank F =
      F.nearestRank (d.digits * 2 ^ F.scale * 10 ^ d.exponent.toNat) (10 ^ (-d.exponent).toNat) := by
  by_cases hexponent : 0 ≤ d.exponent
  · have hinverse : (-d.exponent).toNat = 0 := by omega
    simp only [nearestRank, if_pos hexponent, hinverse, pow_zero]
    rfl
  · have hzero : d.exponent.toNat = 0 := by omega
    simp only [nearestRank, if_neg hexponent, hzero, pow_zero, Nat.mul_one]
    rfl

/-- **Zeros behind the digits** are taken off the exponent. -/
theorem nearestRank_shift (F : BinaryFormat) (n : Nat) (e : Int) (k : Nat) :
    nearestRank F ⟨n * 10 ^ k, e - k⟩ = nearestRank F ⟨n, e⟩ := by
  have hpowers : k + (e - k).toNat + (-e).toNat = e.toNat + (-(e - k)).toNat := by omega
  rw [nearestRank_eq, nearestRank_eq]
  apply BinaryFormat.nearestRank_congr (Nat.pow_pos (by decide)) (Nat.pow_pos (by decide))
  calc n * 10 ^ k * 2 ^ F.scale * 10 ^ (e - k).toNat * 10 ^ (-e).toNat
      = n * 2 ^ F.scale * 10 ^ (k + (e - k).toNat + (-e).toNat) := by
        rw [pow_add, pow_add]
        ring
    _ = n * 2 ^ F.scale * 10 ^ e.toNat * 10 ^ (-(e - k)).toNat := by
        rw [hpowers, pow_add]
        ring

theorem nearestRank_of_digits_eq_zero (hF : F.Proper) (h : d.digits = 0) : d.nearestRank F = 0 := by
  rw [nearestRank_eq, h, Nat.zero_mul, Nat.zero_mul]
  exact BinaryFormat.nearestRank_of_small hF (by simp)

/-! ## §2  Bounds on the exponent -/

theorem pow_two_le_pow_ten (k : Nat) : 2 ^ k ≤ 10 ^ k := Nat.pow_le_pow_left (by decide) k

theorem scale_eq (F : BinaryFormat) :
    F.scale = 2 ^ (F.width - F.precision - 1) + F.precision - 3 := rfl

theorem limit_eq (F : BinaryFormat) : F.limit = (2 ^ (F.width - F.precision) - 1) * F.stride := rfl

/-- Beyond its reach nothing is in the range of a format. -/
theorem limit_le_nearestRank (hF : F.Proper) (hdigits : d.digits ≠ 0)
    (h : (reach F : Int) < d.exponent) : F.limit ≤ d.nearestRank F := by
  have hprecision := hF.two_le_precision
  have hwidth := hF.precision_lt_width
  obtain ⟨e, he⟩ : ∃ e : Nat, d.exponent = e := ⟨d.exponent.toNat, by omega⟩
  have hreach : F.scale + F.width < e := by
    simp only [reach] at h
    omega
  have hdouble : 2 ^ (F.width - F.precision) = 2 * 2 ^ (F.width - F.precision - 1) := by
    rw [← Nat.pow_succ']
    congr 1
    omega
  have hpos := Nat.two_pow_pos (F.width - F.precision - 1)
  have hscale := scale_eq F
  have hexponents : 2 ^ (F.width - F.precision) - 1 + F.precision ≤ F.scale + e := by omega
  have hunits : 2 ^ (F.scale + e) ≤ d.digits * 2 ^ F.scale * 10 ^ e := by
    rw [pow_add]
    have hone : 1 * 2 ^ F.scale ≤ d.digits * 2 ^ F.scale :=
      Nat.mul_le_mul_right _ (Nat.one_le_iff_ne_zero.mpr hdigits)
    rw [Nat.one_mul] at hone
    exact Nat.mul_le_mul hone (pow_two_le_pow_ten e)
  have hbound := Nat.pow_le_pow_right (show 0 < 2 by decide) hexponents
  have hone : (-(e : Int)).toNat = 0 := by omega
  rw [nearestRank_eq, he, limit_eq, hone, pow_zero, Int.toNat_natCast]
  exact BinaryFormat.mul_stride_le_nearestRank hF (by omega)

/-- Too far below one unit everything is zero. -/
theorem nearestRank_of_far_below (hF : F.Proper)
    (h : d.exponent + (d.digits.log2 + 1) < -(reach F : Int)) : d.nearestRank F = 0 := by
  have hwidth := hF.precision_lt_width
  have hprecision := hF.two_le_precision
  obtain ⟨e, he⟩ : ∃ e : Nat, d.exponent = -(e : Int) := ⟨(-d.exponent).toNat, by
    simp only [reach] at h
    omega⟩
  have hreach : d.digits.log2 + 1 + F.scale + F.width < e := by
    simp only [reach] at h
    omega
  have hdigits : d.digits < 2 ^ (d.digits.log2 + 1) := Nat.lt_log2_self
  have hunits : 2 * (d.digits * 2 ^ F.scale) < 10 ^ e :=
    calc 2 * (d.digits * 2 ^ F.scale) < 2 * (2 ^ (d.digits.log2 + 1) * 2 ^ F.scale) := by
          refine Nat.mul_lt_mul_of_pos_left ?_ (by decide)
          exact Nat.mul_lt_mul_of_pos_right hdigits (Nat.two_pow_pos _)
      _ = 2 ^ (d.digits.log2 + 1 + F.scale + 1) := by
          rw [pow_succ, pow_add]
          ring
      _ ≤ 2 ^ e := Nat.pow_le_pow_right (by decide) (by omega)
      _ ≤ 10 ^ e := pow_two_le_pow_ten e
  have hzero : (-(e : Int)).toNat = 0 := by omega
  rw [nearestRank_eq, he, hzero, pow_zero, Nat.mul_one, Int.neg_neg, Int.toNat_natCast]
  exact BinaryFormat.nearestRank_of_small hF hunits

/-- **The nearest number** is that of the nearest rank: what is settled by its exponent is settled
as its value would be. -/
theorem nearest?_eq (hF : F.Proper) (negative : Bool) (d : ScaledDecimal) :
    d.nearest? F negative = Finite.ofRank? negative (d.nearestRank F) := by
  unfold nearest?
  split
  · next hzero => rw [nearestRank_of_digits_eq_zero hF hzero]
  · next hdigits =>
      split
      · next hlarge =>
          have hlimit := limit_le_nearestRank hF hdigits hlarge
          rw [Finite.ofRank?, dif_neg (Nat.not_lt.mpr hlimit)]
      · split
        · next hsmall => rw [nearestRank_of_far_below hF hsmall]
        · rfl

end ScaledDecimal

/-! ## §3  The search -/

namespace ShortestDecimal

variable {F : BinaryFormat}

theorem nearestRank_of_search {rank num den tries : Nat} {g : Int} {d : ScaledDecimal}
    (h : search F rank num den tries g = some d) : d.nearestRank F = rank := by
  induction tries generalizing g with
  | zero => cases h
  | succ tries ih =>
      unfold search at h
      split at h
      · next found hfound =>
          cases h
          simpa using List.find?_some hfound
      · exact ih h

/-- The exact decimal is the number itself. -/
theorem nearestRank_exact (hF : F.Proper) (rank : Nat) : (exact F rank).nearestRank F = rank := by
  have hzero : (-(F.scale : Int)).toNat = 0 := by omega
  rw [ScaledDecimal.nearestRank_eq]
  simp only [exact, hzero, pow_zero, Nat.mul_one, Int.neg_neg, Int.toNat_natCast]
  calc F.nearestRank (F.units rank * Nat.pow 5 F.scale * 2 ^ F.scale) (10 ^ F.scale)
      = F.nearestRank (F.units rank) 1 := by
        apply BinaryFormat.nearestRank_congr (Nat.pow_pos (by decide)) Nat.one_pos
        rw [Nat.mul_one, show (10 : Nat) = 5 * 2 by rfl, mul_pow, Nat.mul_assoc]
        rfl
    _ = rank := BinaryFormat.nearestRank_units hF rank

end ShortestDecimal

/-- **The shortest decimal** of a number reads back as its rank. -/
theorem Finite.nearestRank_shortest {F : BinaryFormat} (hF : F.Proper) (x : Finite F) :
    x.shortest.nearestRank F = x.rank := by
  unfold shortest
  split
  · next hzero => rw [hzero, ScaledDecimal.nearestRank_of_digits_eq_zero hF rfl]
  · cases hsearch : ShortestDecimal.search F x.rank x.units (Nat.pow 2 F.scale)
        ShortestDecimal.tries (ShortestDecimal.leadingBound F x.units) with
    | some d =>
        simp only [hsearch]
        exact ShortestDecimal.nearestRank_of_search hsearch
    | none =>
        simp only [hsearch]
        exact ShortestDecimal.nearestRank_exact hF x.rank

theorem Finite.shortest_digits_eq_zero_iff {F : BinaryFormat} (hF : F.Proper) (x : Finite F) :
    x.shortest.digits = 0 ↔ x.shortest = ⟨0, 0⟩ := by
  constructor
  · intro hdigits
    have hrank := x.nearestRank_shortest hF
    rw [ScaledDecimal.nearestRank_of_digits_eq_zero hF hdigits] at hrank
    simp [shortest, hrank.symm]
  · intro h
    rw [h]

end Coproduct
