import SignalEngine.Lib.DirectedRounding

/-! # Rounding toward zero

The integer part of a rational number without its sign. Two numbers have one
integer part unless an integer other than zero is passed on the way between them.
-/

namespace TowardZero

variable {x y : ℚ}

/-- The integer next to `x` on the side of zero. -/
def towardZero (x : ℚ) : Int := if 0 ≤ x then ⌊x⌋ else ⌈x⌉

theorem towardZero_of_nonneg (nonneg : 0 ≤ x) : towardZero x = ⌊x⌋ := if_pos nonneg

theorem towardZero_of_neg (negative : x < 0) : towardZero x = ⌈x⌉ := if_neg (not_le.2 negative)

@[simp] theorem towardZero_intCast (n : Int) : towardZero n = n := by
  simp [towardZero]

@[simp] theorem towardZero_neg (x : ℚ) : towardZero (-x) = -towardZero x := by
  rcases lt_trichotomy x 0 with negative | rfl | positive
  · rw [towardZero_of_nonneg (by linarith), towardZero_of_neg negative, Int.floor_neg]
  · simp [towardZero]
  · rw [towardZero_of_neg (by linarith), towardZero_of_nonneg positive.le, Int.ceil_neg]

theorem le_towardZero {m : Int} (positive : 0 < m) : m ≤ towardZero x ↔ (m : ℚ) ≤ x := by
  have wide : (0 : ℚ) < m := by exact_mod_cast positive
  rcases le_or_gt 0 x with nonneg | negative
  · rw [towardZero_of_nonneg nonneg, Int.le_floor]
  · have small : towardZero x ≤ 0 := by
      rw [towardZero_of_neg negative, Int.ceil_le]
      exact_mod_cast negative.le
    constructor
    · intro le
      omega
    · intro le
      linarith

theorem towardZero_le {m : Int} (negative : m < 0) : towardZero x ≤ m ↔ x ≤ (m : ℚ) := by
  have turned := @le_towardZero (-x) (-m) (by omega)
  rw [towardZero_neg] at turned
  push_cast at turned
  constructor
  · intro le
    linarith [turned.1 (by omega)]
  · intro le
    have bound := turned.2 (by linarith)
    omega

theorem towardZero_mono (le : x ≤ y) : towardZero x ≤ towardZero y := by
  rcases le_or_gt 0 x with nonneg | negative
  · rw [towardZero_of_nonneg nonneg, towardZero_of_nonneg (nonneg.trans le)]
    exact Int.floor_le_floor le
  · rw [towardZero_of_neg negative]
    rcases le_or_gt 0 y with above | below
    · rw [towardZero_of_nonneg above]
      have left : ⌈x⌉ ≤ 0 := Int.ceil_le.2 (by exact_mod_cast negative.le)
      have right : 0 ≤ ⌊y⌋ := Int.floor_nonneg.2 above
      omega
    · rw [towardZero_of_neg below]
      exact Int.ceil_le_ceil le

theorem towardZero_nonneg (nonneg : 0 ≤ x) : 0 ≤ towardZero x := by
  rw [towardZero_of_nonneg nonneg]
  exact Int.floor_nonneg.2 nonneg

theorem towardZero_le_self (nonneg : 0 ≤ x) : (towardZero x : ℚ) ≤ x := by
  rw [towardZero_of_nonneg nonneg]
  exact Int.floor_le x

/-- The size never grows. -/
theorem abs_towardZero_le (x : ℚ) : |(towardZero x : ℚ)| ≤ |x| := by
  rcases le_or_gt 0 x with nonneg | negative
  · rw [abs_of_nonneg nonneg, abs_of_nonneg (by exact_mod_cast towardZero_nonneg nonneg)]
    exact towardZero_le_self nonneg
  · have turned := @towardZero_le_self (-x) (by linarith)
    have sign := @towardZero_nonneg (-x) (by linarith)
    rw [towardZero_neg] at turned sign
    push_cast at turned
    have nonpos : (towardZero x : ℚ) ≤ 0 := by
      have : towardZero x ≤ 0 := by omega
      exact_mod_cast this
    rw [abs_of_neg negative, abs_of_nonpos nonpos]
    linarith

theorem mul_towardZero_nonneg (x : ℚ) : 0 ≤ (towardZero x : ℚ) * x := by
  rcases le_or_gt 0 x with nonneg | negative
  · exact mul_nonneg (by exact_mod_cast towardZero_nonneg nonneg) nonneg
  · have sign := @towardZero_nonneg (-x) (by linarith)
    rw [towardZero_neg] at sign
    have nonpos : (towardZero x : ℚ) ≤ 0 := by
      have : towardZero x ≤ 0 := by omega
      exact_mod_cast this
    exact mul_nonneg_of_nonpos_of_nonpos nonpos negative.le

/-- From `x` up to `y`, an integer other than zero is reached or left behind. -/
def Passes (x y : ℚ) : Prop := ∃ m : Int, (0 < m ∧ x < m ∧ (m : ℚ) ≤ y) ∨ (m < 0 ∧ x ≤ m ∧ (m : ℚ) < y)

theorem towardZero_eq_iff (le : x ≤ y) : towardZero x = towardZero y ↔ ¬ Passes x y := by
  constructor
  · rintro same ⟨m, ⟨positive, below, reached⟩ | ⟨negative, left, above⟩⟩
    · have up := (le_towardZero positive).2 reached
      rw [← same, le_towardZero positive] at up
      linarith
    · have down := (towardZero_le negative).2 left
      rw [same, towardZero_le negative] at down
      linarith
  · intro free
    by_contra differ
    have less : towardZero x < towardZero y := lt_of_le_of_ne (towardZero_mono le) differ
    apply free
    rcases lt_or_ge 0 (towardZero y) with positive | nonpos
    · refine ⟨towardZero y, .inl ⟨positive, ?_, (le_towardZero positive).1 le_rfl⟩⟩
      by_contra reached
      have up := (le_towardZero positive).2 (not_lt.1 reached)
      omega
    · have negative : towardZero x < 0 := by omega
      refine ⟨towardZero x, .inr ⟨negative, (towardZero_le negative).1 le_rfl, ?_⟩⟩
      by_contra left
      have down := (towardZero_le negative).2 (not_lt.1 left)
      omega

theorem not_passes_self (x : ℚ) : ¬ Passes x x := (towardZero_eq_iff le_rfl).1 rfl

end TowardZero
