import Mathlib.Data.List.Basic

/-! # Lines

What the separators of a text cut it into: its whole lines, and what follows the last
of them.
-/

namespace Lines

variable {α : Type} [DecidableEq α] {sep : α}

/-- The whole lines of a text, and what comes after the last separator. -/
def split (sep : α) : List α → List (List α) × List α
  | [] => ([], [])
  | a :: rest =>
      let (lines, last) := split sep rest
      if a = sep then ([] :: lines, last)
      else
        match lines with
        | [] => ([], a :: last)
        | line :: lines => ((a :: line) :: lines, last)

/-- All lines; nothing at the end is no line. -/
def all (sep : α) (text : List α) : List (List α) :=
  (split sep text).1 ++ if (split sep text).2 = [] then [] else [(split sep text).2]

theorem split_of_not_mem {text : List α} (whole : sep ∉ text) : split sep text = ([], text) := by
  induction text with
  | nil => rfl
  | cons a rest ih =>
      rw [List.mem_cons, not_or] at whole
      rw [split, ih whole.2]
      exact if_neg (Ne.symm whole.1)

/-- What has no separator goes to the end of the last line. -/
theorem split_append (text : List α) {more : List α} (whole : sep ∉ more) :
    split sep (text ++ more) = ((split sep text).1, (split sep text).2 ++ more) := by
  induction text with
  | nil => exact split_of_not_mem whole
  | cons a rest ih =>
      rw [List.cons_append, split, split, ih]
      dsimp only
      split
      · rfl
      · cases (split sep rest).1 with
        | nil => rfl
        | cons line lines => rfl

/-- A separator makes a line of what follows the last one. -/
theorem split_append_sep (text : List α) : split sep (text ++ [sep]) = ((split sep text).1 ++ [(split sep text).2], []) := by
  induction text with
  | nil => simp [split]
  | cons a rest ih =>
      rw [List.cons_append, split, split, ih]
      dsimp only
      split
      · rfl
      · cases (split sep rest).1 with
        | nil => rfl
        | cons line lines => rfl

end Lines
