import SignalEngine.BrokerAdapters.Decimal
import Mathlib.Tactic.Ring

/-! # Values of decimals

Every `Dec` is an integral number of units of the last place the cap allows.
`Dec.atto` counts them; comparisons, sums and products of decimals are read off
these integers, whatever the scales of the operands.
-/

open MachineInt

namespace BrokerAdapters

namespace Dec

/-- The value in units of `10^-18`. -/
def atto (d : Dec) : Int := d.units.val * 10 ^ (maxScale - d.scale)

theorem ten_pow_pos (n : Nat) : (0 : Int) < 10 ^ n := by positivity

theorem ten_pow_split {s t : Nat} (le : s ≤ t) (within : t ≤ maxScale) :
    (10 : Int) ^ (maxScale - s) = 10 ^ (t - s) * 10 ^ (maxScale - t) := by
  rw [← pow_add]
  congr 1
  omega

theorem atto_lift (d : Dec) {s : Nat} (le : d.scale ≤ s) (within : s ≤ maxScale) :
    d.atto = d.units.val * 10 ^ (s - d.scale) * 10 ^ (maxScale - s) := by
  rw [atto, ten_pow_split le within]
  ring

theorem ten_pow_cap (d : Dec) : (10 : Int) ^ d.scale * 10 ^ (maxScale - d.scale) = 10 ^ maxScale := by
  rw [← pow_add]
  congr 1
  have := d.scale_le
  omega

theorem atto_intFrac (d : Dec) :
    d.atto = d.intFrac.1.val * 10 ^ maxScale + d.intFrac.2.val * 10 ^ (maxScale - d.scale) := by
  have split := Int.emod_add_mul_ediv d.units.val (10 ^ d.scale)
  calc
    d.atto = (d.units.val % 10 ^ d.scale + 10 ^ d.scale * (d.units.val / 10 ^ d.scale)) *
        10 ^ (maxScale - d.scale) := by rw [split]; rfl
    _ = d.units.val / 10 ^ d.scale * (10 ^ d.scale * 10 ^ (maxScale - d.scale)) +
        d.units.val % 10 ^ d.scale * 10 ^ (maxScale - d.scale) := by ring
    _ = _ := by rw [ten_pow_cap]; rfl

theorem frac_nonneg (d : Dec) : 0 ≤ d.intFrac.2.val :=
  Int.emod_nonneg _ (ten_pow_pos _).ne'

theorem frac_lt (d : Dec) : d.intFrac.2.val < 10 ^ d.scale :=
  Int.emod_lt_of_pos _ (ten_pow_pos _)

theorem frac_lift_fits (d : Dec) {s : Nat} (le : d.scale ≤ s) (within : s ≤ maxScale) :
    Fits 128 (d.intFrac.2.val * (d.lift s within).val) := by
  have bound : d.intFrac.2.val * 10 ^ (s - d.scale) ≤ 10 ^ s := by
    calc
      d.intFrac.2.val * 10 ^ (s - d.scale) ≤ 10 ^ d.scale * 10 ^ (s - d.scale) :=
        Int.mul_le_mul_of_nonneg_right d.frac_lt.le (ten_pow_pos _).le
      _ = 10 ^ s := by rw [← pow_add, Nat.add_sub_cancel' le]
  have small : s ≤ 38 := le_trans within (by decide)
  exact (pow10_fits small).of_le (mul_nonneg d.frac_nonneg (ten_pow_pos _).le) bound

theorem compare_mul_right {a b p : Int} (positive : 0 < p) :
    compare (a * p) (b * p) = compare a b := by
  rcases lt_trichotomy a b with lt | eq | gt
  · rw [compare_lt_iff_lt.2 lt, compare_lt_iff_lt.2 (Int.mul_lt_mul_of_pos_right lt positive)]
  · simp [eq]
  · rw [compare_gt_iff_gt.2 gt, compare_gt_iff_gt.2 (Int.mul_lt_mul_of_pos_right gt positive)]

theorem compare_add_left (c a b : Int) : compare (c + a) (c + b) = compare a b := by
  rcases lt_trichotomy a b with lt | eq | gt
  · rw [compare_lt_iff_lt.2 lt, compare_lt_iff_lt.2 (by omega)]
  · rw [eq]
    simp
  · rw [compare_gt_iff_gt.2 gt, compare_gt_iff_gt.2 (by omega)]

theorem atto_lt_of_int_lt {a b : Dec} (lt : a.intFrac.1.val < b.intFrac.1.val) :
    a.atto < b.atto := by
  have upper : a.intFrac.2.val * 10 ^ (maxScale - a.scale) < 10 ^ maxScale := by
    calc
      _ < 10 ^ a.scale * 10 ^ (maxScale - a.scale) :=
        Int.mul_lt_mul_of_pos_right a.frac_lt (ten_pow_pos _)
      _ = 10 ^ maxScale := a.ten_pow_cap
  have lower : 0 ≤ b.intFrac.2.val * 10 ^ (maxScale - b.scale) :=
    mul_nonneg b.frac_nonneg (ten_pow_pos _).le
  have step : (a.intFrac.1.val + 1) * 10 ^ maxScale ≤ b.intFrac.1.val * 10 ^ maxScale :=
    Int.mul_le_mul_of_nonneg_right lt (ten_pow_pos _).le
  rw [atto_intFrac a, atto_intFrac b]
  linarith

theorem cmpCalc_eq (a b : Dec) : cmpCalc a b = pure (compare a.atto b.atto) := by
  unfold cmpCalc
  rcases lt_trichotomy a.intFrac.1.val b.intFrac.1.val with lt | same | gt
  · simp [compare_lt_iff_lt.2 lt, compare_lt_iff_lt.2 (atto_lt_of_int_lt lt)]
  · have leftLe : a.scale ≤ max a.scale b.scale := le_max_left ..
    have rightLe : b.scale ≤ max a.scale b.scale := le_max_right ..
    have within : max a.scale b.scale ≤ maxScale := max_le a.scale_le b.scale_le
    have left := frac_lift_fits a leftLe within
    have right := frac_lift_fits b rightLe within
    simp only [same, Std.ReflCmp.compare_self, Arith.unchecked_of_fits left,
      Arith.unchecked_of_fits right, pure_bind]
    congr 1
    rw [atto_intFrac a, atto_intFrac b, same, ten_pow_split leftLe within,
      ten_pow_split rightLe within, compare_add_left, ← mul_assoc, ← mul_assoc,
      compare_mul_right (ten_pow_pos _)]
    rfl
  · simp [compare_gt_iff_gt.2 gt, compare_gt_iff_gt.2 (atto_lt_of_int_lt gt)]

theorem cmp_eq (a b : Dec) : a.cmp b = compare a.atto b.atto := by
  rw [cmp, cmpCalc_eq]
  rfl

theorem lt_iff {a b : Dec} : a < b ↔ a.atto < b.atto := by
  change a.cmp b = .lt ↔ _
  rw [cmp_eq, compare_lt_iff_lt]

theorem le_iff {a b : Dec} : a ≤ b ↔ a.atto ≤ b.atto := by
  change a.cmp b ≠ .gt ↔ _
  rw [cmp_eq, Ne, compare_gt_iff_gt, not_lt]

theorem eq_iff {a b : Dec} : a.eq b = true ↔ a.atto = b.atto := by
  rw [eq, cmp_eq, beq_iff_eq, compare_eq_iff_eq]

@[simp] theorem atto_zero : zero.atto = 0 := by
  simp [atto, zero]

theorem isPositive_iff {d : Dec} : d.isPositive = true ↔ 0 < d.atto := by
  rw [isPositive, decide_eq_true_iff, atto, mul_pos_iff_of_pos_right (ten_pow_pos _)]

theorem isNegative_iff {d : Dec} : d.isNegative = true ↔ d.atto < 0 := by
  rw [isNegative, decide_eq_true_iff, atto, ← not_le, ← not_le,
    mul_nonneg_iff_of_pos_right (ten_pow_pos _)]

theorem isZero_iff {d : Dec} : d.isZero = true ↔ d.atto = 0 := by
  rw [isZero, beq_iff_eq, atto, mul_eq_zero, or_iff_left (ten_pow_pos _).ne']

theorem atto_min (a b : Dec) : (min a b).atto = min a.atto b.atto := by
  change (if a ≤ b then a else b).atto = _
  split
  next le => exact (min_eq_left (le_iff.1 le)).symm
  next gt => exact (min_eq_right (le_of_not_ge fun le => gt (le_iff.2 le))).symm

theorem atto_checkedAdd {x y z : Dec} (h : x.checkedAdd y = some z) :
    z.atto = x.atto + y.atto := by
  simp only [checkedAdd, Option.bind_eq_bind, Option.bind_eq_some_iff, SInt.checkedMul,
    SInt.checkedAdd, SInt.checked_eq_some, Option.some.injEq] at h
  obtain ⟨a, left, b, right, units, total, rfl⟩ := h
  rw [atto_lift x (le_max_left ..) (max_le x.scale_le y.scale_le),
    atto_lift y (le_max_right ..) (max_le x.scale_le y.scale_le), ← add_mul]
  simp only [atto]
  rw [total, left, right]
  rfl

theorem atto_checkedMul {x y z : Dec} (h : x.checkedMul y = some z) :
    z.atto = x.atto * y.atto / 10 ^ maxScale := by
  have leftCap := x.scale_le
  have rightCap := y.scale_le
  have product : x.atto * y.atto = x.units.val * y.units.val *
      10 ^ (maxScale - x.scale + (maxScale - y.scale)) := by
    unfold atto
    ring
  simp only [checkedMul, Option.bind_eq_bind, Option.bind_eq_some_iff, SInt.checkedMul,
    SInt.checked_eq_some] at h
  obtain ⟨units, exact, h⟩ := h
  by_cases within : x.scale + y.scale ≤ maxScale
  · rw [dif_pos within] at h
    obtain rfl := Option.some.inj h
    have cut : maxScale - x.scale + (maxScale - y.scale) =
        maxScale - (x.scale + y.scale) + maxScale := by omega
    rw [product, ← exact, cut, pow_add, ← mul_assoc, Int.mul_ediv_cancel _ (ten_pow_pos _).ne']
    rfl
  · rw [dif_neg within] at h
    have small : ¬ x.scale + y.scale - maxScale > 38 := by
      unfold maxScale at leftCap rightCap ⊢
      omega
    rw [dif_neg small] at h
    obtain rfl := Option.some.inj h
    have cut : (10 : Int) ^ maxScale = 10 ^ (x.scale + y.scale - maxScale) *
        10 ^ (maxScale - x.scale + (maxScale - y.scale)) := by
      rw [← pow_add]
      congr 1
      omega
    rw [product, ← exact, cut, Int.mul_ediv_mul_of_pos_left _ _ (ten_pow_pos _)]
    simp [atto, SInt.divEuclid]

end Dec

end BrokerAdapters
