import Mathlib.Data.Rat.Floor
import Mathlib.Tactic.Linarith
import Mathlib.Tactic.Ring
import Mathlib.Tactic.FieldSimp

/-! # Directed rounding of fractions

Euclidean quotient and remainder of two integers against the floor, the ceiling
and the half-up rounding of the rational number they stand for.
-/

namespace DirectedRounding

variable {a b : Int}

theorem div_eq_quotient_add (positive : 0 < b) :
    (a : ℚ) / b = (a / b : Int) + (a % b : Int) / b := by
  have nonzero : (b : ℚ) ≠ 0 := by exact_mod_cast positive.ne'
  have split : (a : ℚ) = (b : ℚ) * (a / b : Int) + (a % b : Int) := by
    exact_mod_cast (Int.mul_ediv_add_emod a b).symm
  rw [div_eq_iff nonzero, add_mul, div_mul_cancel₀ _ nonzero]
  linarith

theorem remainder_nonneg (positive : 0 < b) : (0 : ℚ) ≤ (a % b : Int) / b := by
  have numerator : (0 : ℚ) ≤ (a % b : Int) := by exact_mod_cast Int.emod_nonneg a positive.ne'
  have denominator : (0 : ℚ) ≤ b := by exact_mod_cast positive.le
  exact div_nonneg numerator denominator

theorem remainder_lt_one (positive : 0 < b) : ((a % b : Int) : ℚ) / b < 1 := by
  have denominator : (0 : ℚ) < b := by exact_mod_cast positive
  rw [div_lt_one denominator]
  exact_mod_cast Int.emod_lt_of_pos a positive

theorem floor_div (positive : 0 < b) : ⌊(a : ℚ) / b⌋ = a / b := by
  rw [Int.floor_eq_iff, div_eq_quotient_add positive]
  have lower := remainder_nonneg (a := a) positive
  have upper := remainder_lt_one (a := a) positive
  constructor <;> linarith

theorem ceil_div (positive : 0 < b) :
    ⌈(a : ℚ) / b⌉ = a / b + if a % b ≠ 0 then 1 else 0 := by
  have denominator : (0 : ℚ) < b := by exact_mod_cast positive
  have upper := remainder_lt_one (a := a) positive
  rw [Int.ceil_eq_iff, div_eq_quotient_add positive]
  split
  next rest =>
      have numerator : (0 : ℚ) < (a % b : Int) := by
        have nonneg := Int.emod_nonneg a positive.ne'
        exact_mod_cast lt_of_le_of_ne nonneg rest.symm
      have lower : (0 : ℚ) < (a % b : Int) / b := div_pos numerator denominator
      push_cast
      constructor <;> linarith
  next exact =>
      rw [not_not] at exact
      rw [exact]
      push_cast
      constructor <;> simp

theorem floor_div_add_half (positive : 0 < b) :
    ⌊(a : ℚ) / b + 1 / 2⌋ = a / b + if a % b * 2 ≥ b then 1 else 0 := by
  have denominator : (0 : ℚ) < b := by exact_mod_cast positive
  have lower := remainder_nonneg (a := a) positive
  have upper := remainder_lt_one (a := a) positive
  rw [Int.floor_eq_iff, div_eq_quotient_add positive]
  split
  next half =>
      have halfRat : (b : ℚ) ≤ (a % b : Int) * 2 := by exact_mod_cast half
      have share : (1 / 2 : ℚ) ≤ (a % b : Int) / b := by
        rw [le_div_iff₀ denominator]
        linarith
      push_cast
      constructor <;> linarith
  next below =>
      have belowRat : ((a % b : Int) : ℚ) * 2 < b := by exact_mod_cast not_le.1 below
      have share : ((a % b : Int) : ℚ) / b < 1 / 2 := by
        rw [div_lt_iff₀ denominator]
        linarith
      push_cast
      constructor <;> linarith

end DirectedRounding
