import Mathlib.Order.Lattice
import Mathlib.Order.Defs.LinearOrder
import Mathlib.Data.List.Basic

/-! # The first of the largest

The first element of a list whose score no other one passes, and the maximum of a
list, as elements are appended.
-/

namespace FirstMax

variable {α β : Type} [LinearOrder β]

/-- `w` is the first element with the largest score: those before it score less, those
    after it no more. -/
def IsFirst (score : α → β) (xs : List α) (w : α) : Prop :=
  ∃ before after, xs = before ++ w :: after ∧ (∀ x ∈ before, score x < score w) ∧ ∀ x ∈ after, score x ≤ score w

variable {score : α → β} {xs : List α} {w x : α}

theorem IsFirst.le (first : IsFirst score xs w) (member : x ∈ xs) : score x ≤ score w := by
  obtain ⟨before, after, rfl, less, atMost⟩ := first
  rcases List.mem_append.1 member with earlier | later
  · exact (less x earlier).le
  · rcases List.mem_cons.1 later with rfl | later
    · exact le_refl _
    · exact atMost x later

/-- An element that scores no more leaves the first one first. -/
theorem IsFirst.concat (first : IsFirst score xs w) (le : score x ≤ score w) : IsFirst score (xs ++ [x]) w := by
  obtain ⟨before, after, rfl, less, atMost⟩ := first
  refine ⟨before, after ++ [x], by simp, less, ?_⟩
  intro y member
  rcases List.mem_append.1 member with old | new
  · exact atMost y old
  · rw [List.mem_singleton.1 new]
    exact le

/-- An element that scores more than all before it becomes the first. -/
theorem isFirst_concat_self (less : ∀ y ∈ xs, score y < score x) : IsFirst score (xs ++ [x]) x :=
  ⟨xs, [], rfl, less, by simp⟩

theorem max?_concat (ys : List β) (y : β) : (ys ++ [y]).max? = some (ys.max?.elim y (max · y)) := by
  induction ys with
  | nil => rfl
  | cons z zs ih =>
      rw [List.cons_append, List.max?_cons, List.max?_cons, ih]
      cases zs.max? with
      | none => rfl
      | some m => exact congrArg some (max_assoc z m y).symm

end FirstMax
