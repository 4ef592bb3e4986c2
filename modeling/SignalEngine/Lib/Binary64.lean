import Mathlib.Data.Int.Log
import Mathlib.Data.Rat.Floor
import Mathlib.Tactic.Linarith
import Mathlib.Tactic.Positivity

/-! # Rounding to binary64

The value of an operation on doubles is the exact one, rounded to the nearest
number with 53 significant bits, and to the even one of two. Only values that are
not negative and in the normal range are meant.
-/

namespace Binary64

def nearestEven (x : ℚ) : Int :=
  if x - ⌊x⌋ < 1 / 2 then ⌊x⌋
  else if 1 / 2 < x - ⌊x⌋ then ⌊x⌋ + 1
  else if ⌊x⌋ % 2 = 0 then ⌊x⌋
  else ⌊x⌋ + 1

/-- The place of the last of 53 bits. -/
def ulp (x : ℚ) : ℚ := 2 ^ (Int.log 2 x - 52)

def round (x : ℚ) : ℚ := nearestEven (x / ulp x) * ulp x

/-- The conversion of a double that is not negative to an `i64`. -/
def toI64 (x : ℚ) : Int := min ⌊x⌋ (2 ^ 63 - 1)

theorem abs_nearestEven_sub_le (x : ℚ) : |(nearestEven x : ℚ) - x| ≤ 1 / 2 := by
  have below := Int.floor_le x
  have above := Int.lt_floor_add_one x
  unfold nearestEven
  split
  · rw [abs_le]
    constructor <;> linarith
  · split
    · push_cast
      rw [abs_le]
      constructor <;> linarith
    · split
      · rw [abs_le]
        constructor <;> linarith
      · push_cast
        rw [abs_le]
        constructor <;> linarith

theorem ulp_pos (x : ℚ) : 0 < ulp x := zpow_pos (by norm_num) _

/-- The last place is small against the value. -/
theorem ulp_le {x : ℚ} (positive : 0 < x) : ulp x ≤ x / 2 ^ 52 := by
  have log := Int.zpow_log_le_self (b := 2) (by decide) positive
  rw [ulp, zpow_sub₀ (by norm_num)]
  exact div_le_div_of_nonneg_right (by exact_mod_cast log) (by positivity)

@[simp] theorem round_zero : round 0 = 0 := by
  have zero : nearestEven 0 = 0 := by decide +kernel
  rw [round, zero_div, zero, Int.cast_zero, zero_mul]

theorem abs_round_sub_le {x : ℚ} (nonneg : 0 ≤ x) : |round x - x| ≤ x / 2 ^ 53 := by
  rcases nonneg.eq_or_lt with rfl | positive
  · simp
  · have unit := ulp_pos x
    have apart : round x - x = (nearestEven (x / ulp x) - x / ulp x) * ulp x := by
      rw [round, sub_mul, div_mul_cancel₀ x unit.ne']
    calc |round x - x|
        = |(nearestEven (x / ulp x) : ℚ) - x / ulp x| * ulp x := by rw [apart, abs_mul, abs_of_pos unit]
      _ ≤ 1 / 2 * (x / 2 ^ 52) :=
          mul_le_mul (abs_nearestEven_sub_le _) (ulp_le positive) unit.le (by norm_num)
      _ = x / 2 ^ 53 := by ring

theorem round_le {x y : ℚ} (nonneg : 0 ≤ x) (le : x ≤ y) : round x ≤ y * (1 + 1 / 2 ^ 53) := by
  have near := (abs_le.1 (abs_round_sub_le nonneg)).2
  linarith

theorem round_nonneg {x : ℚ} (nonneg : 0 ≤ x) : 0 ≤ round x := by
  have near := (abs_le.1 (abs_round_sub_le nonneg)).1
  linarith

theorem toI64_le (x : ℚ) : (toI64 x : ℚ) ≤ x := by
  have least : (toI64 x : ℚ) ≤ ⌊x⌋ := by
    exact_mod_cast min_le_left _ _
  exact least.trans (Int.floor_le x)

theorem toI64_nonneg {x : ℚ} (nonneg : 0 ≤ x) : 0 ≤ toI64 x :=
  le_min (Int.floor_nonneg.2 nonneg) (by norm_num)

end Binary64
