import Mathlib.Algebra.Field.Rat
import Mathlib.Algebra.Order.Ring.Abs
import Mathlib.Algebra.GroupWithZero.Units.Basic
import Mathlib.Data.Rat.Cast.CharZero
import Mathlib.Tactic.Ring

/-! Fixed-point numbers of a base: so many significant digits, and the place of
the last of them. -/

namespace FixedPoint

/-- The numbers of `digits` digits, `scale` of them behind the point. -/
def values (base digits : ℕ) (scale : ℤ) : Set ℚ :=
  {q | ∃ m : ℤ, m.natAbs < base ^ digits ∧ q = m * (base : ℚ) ^ (-scale)}

variable {base digits digits' : ℕ} {scale scale' : ℤ}

theorem shift_unit (hbase : 2 ≤ base) (m : ℤ) (places : ℕ) (scale : ℤ) :
    (m : ℚ) * (base : ℚ) ^ (-scale) =
      ((m * (base : ℤ) ^ places : ℤ) : ℚ) * (base : ℚ) ^ (-(scale + places)) := by
  have hne : (base : ℚ) ≠ 0 := Nat.cast_ne_zero.mpr (by omega)
  have hback : (base : ℚ) ^ places * (base : ℚ) ^ (-(scale + places)) = (base : ℚ) ^ (-scale) := by
    rw [← zpow_natCast, ← zpow_add₀ hne]
    congr 1
    ring
  rw [Int.cast_mul, Int.cast_pow, Int.cast_natCast, mul_assoc, hback]

theorem unit_cancel (hbase : 2 ≤ base) {m m' : ℤ}
    (h : (m : ℚ) * (base : ℚ) ^ (-scale) = m' * (base : ℚ) ^ (-scale)) : m = m' := by
  have hne : (base : ℚ) ≠ 0 := Nat.cast_ne_zero.mpr (by omega)
  exact Int.cast_injective (mul_right_cancel₀ (zpow_ne_zero _ hne) h)

theorem one_lt_pow_digits (hbase : 2 ≤ base) (hdigits : 0 < digits) : 1 < base ^ digits :=
  Nat.one_lt_pow (by omega) (by omega)

/-- The last place of the smaller format has to be a place of the other. -/
theorem scale_le_of_subset (hbase : 2 ≤ base) (hdigits : 0 < digits)
    (h : values base digits scale ⊆ values base digits' scale') : scale ≤ scale' := by
  have hunit : (base : ℚ) ^ (-scale) ∈ values base digits scale :=
    ⟨1, by simpa using one_lt_pow_digits hbase hdigits, by simp⟩
  obtain ⟨m, -, hm⟩ := h hunit
  by_contra hlt
  obtain ⟨places, hplaces⟩ : ∃ places : ℕ, scale = scale' + places :=
    ⟨(scale - scale').toNat, by omega⟩
  rw [shift_unit hbase m places scale', ← hplaces] at hm
  have hone : (1 : ℤ) = m * (base : ℤ) ^ places := unit_cancel hbase (by simpa using hm)
  have hpos : 0 < places := by omega
  -- a power of the base is no unit of the integers
  have hdvd : (base : ℤ) ∣ 1 := by
    rw [hone]
    exact Dvd.dvd.mul_left (dvd_pow_self _ (by omega)) m
  have hle : (base : ℤ) ≤ 1 := Int.le_of_dvd (by omega) hdvd
  omega

/-- The greatest number of the smaller format has to fit before the point. -/
theorem places_le_of_subset (hbase : 2 ≤ base) (hdigits : 0 < digits)
    (h : values base digits scale ⊆ values base digits' scale') :
    (digits : ℤ) - scale ≤ digits' - scale' := by
  have hscale := scale_le_of_subset hbase hdigits h
  obtain ⟨places, rfl⟩ : ∃ places : ℕ, scale' = scale + places :=
    ⟨(scale' - scale).toNat, by omega⟩
  have hone := one_lt_pow_digits hbase hdigits
  have hgreatest : ((base ^ digits - 1 : ℕ) : ℚ) * (base : ℚ) ^ (-scale) ∈
      values base digits scale := ⟨(base ^ digits - 1 : ℕ), by simp; omega, by simp⟩
  obtain ⟨m, hm, heq⟩ := h hgreatest
  have hshift := shift_unit hbase ((base ^ digits - 1 : ℕ) : ℤ) places scale
  rw [Int.cast_natCast, heq] at hshift
  have hm' : m = ((base ^ digits - 1) * base ^ places : ℕ) := by
    rw [unit_cancel hbase hshift]
    push_cast
    rfl
  rw [hm', Int.natAbs_natCast] at hm
  by_contra hlt
  -- the leading digit alone reaches past the digits of the other format
  have hhead : base ^ (digits - 1) ≤ base ^ digits - 1 := by
    have hpow : base ^ (digits - 1 + 1) = base ^ (digits - 1) * base := pow_succ _ _
    have hdouble : base ^ (digits - 1) * 2 ≤ base ^ (digits - 1) * base :=
      Nat.mul_le_mul_left _ hbase
    have hpositive : 0 < base ^ (digits - 1) := Nat.pow_pos (by omega)
    rw [Nat.sub_add_cancel hdigits] at hpow
    omega
  have hreach : base ^ digits' ≤ base ^ (digits - 1 + places) :=
    Nat.pow_le_pow_right (by omega) (by omega)
  rw [pow_add] at hreach
  have hproduct := Nat.mul_le_mul_right (base ^ places) hhead
  omega

/-- One format holds another's numbers exactly if it has as many places behind
the point and as many before it. -/
theorem values_subset_iff (hbase : 2 ≤ base) (hdigits : 0 < digits) :
    values base digits scale ⊆ values base digits' scale' ↔
      scale ≤ scale' ∧ (digits : ℤ) - scale ≤ digits' - scale' := by
  constructor
  · exact fun h => ⟨scale_le_of_subset hbase hdigits h, places_le_of_subset hbase hdigits h⟩
  · rintro ⟨hscale, hplaces⟩ q ⟨m, hm, rfl⟩
    obtain ⟨places, rfl⟩ : ∃ places : ℕ, scale' = scale + places :=
      ⟨(scale' - scale).toNat, by omega⟩
    have hpositive : 0 < base ^ places := Nat.pow_pos (by omega)
    refine ⟨m * (base : ℤ) ^ places, ?_, shift_unit hbase m places scale⟩
    calc (m * (base : ℤ) ^ places).natAbs = m.natAbs * base ^ places := by
          rw [Int.natAbs_mul, Int.natAbs_pow, Int.natAbs_natCast]
      _ < base ^ digits * base ^ places := Nat.mul_lt_mul_of_pos_right hm hpositive
      _ = base ^ (digits + places) := (pow_add _ _ _).symm
      _ ≤ base ^ digits' := Nat.pow_le_pow_right (by omega) (by omega)

end FixedPoint
