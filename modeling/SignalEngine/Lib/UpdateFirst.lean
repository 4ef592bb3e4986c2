import Mathlib.Algebra.BigOperators.Group.List.Basic
import Mathlib.Data.List.Forall2
import Mathlib.Tactic.Abel

/-! # Changing one entry

A list with its first entry that satisfies a predicate changed (without such an
entry it stays as it is), and the sum over a list with the entry at an index changed.
-/

/-- The first entry that satisfies `p` is changed. -/
def updateFirst {α : Type} (p : α → Bool) (f : α → α) : List α → List α
  | [] => []
  | a :: as => if p a then f a :: as else a :: updateFirst p f as

variable {α : Type} {p : α → Bool} {f : α → α} {as : List α}

theorem forall₂_updateFirst {R : α → α → Prop} (refl : ∀ a, R a a) :
    ∀ {as : List α}, (∀ a, as.find? p = some a → R a (f a)) → List.Forall₂ R as (updateFirst p f as) := by
  intro as
  induction as with
  | nil => exact fun _ => .nil
  | cons a as ih =>
      intro first
      by_cases here : p a = true
      · rw [updateFirst, if_pos here]
        exact .cons (first a (by simp [here])) (List.forall₂_same.2 fun b _ => refl b)
      · rw [updateFirst, if_neg here]
        exact .cons (refl a) (ih fun b found => first b (by simpa [here] using found))

theorem mem_updateFirst {b : α} (member : b ∈ updateFirst p f as) : b ∈ as ∨ ∃ a, as.find? p = some a ∧ b = f a := by
  induction as with
  | nil => simp [updateFirst] at member
  | cons a as ih =>
      by_cases here : p a = true
      · rw [updateFirst, if_pos here] at member
        rcases List.mem_cons.1 member with rfl | later
        · exact .inr ⟨a, by simp [here], rfl⟩
        · exact .inl (by simp [later])
      · rw [updateFirst, if_neg here] at member
        rcases List.mem_cons.1 member with rfl | later
        · exact .inl (by simp)
        · rcases ih later with old | ⟨a', found, same⟩
          · exact .inl (by simp [old])
          · exact .inr ⟨a', by simpa [here] using found, same⟩

/-- The first entry is still the first one, changed. -/
theorem find?_updateFirst (same : ∀ a, p (f a) = p a) (as : List α) :
    (updateFirst p f as).find? p = (as.find? p).map f := by
  induction as with
  | nil => rfl
  | cons a as ih =>
      by_cases here : p a = true
      · simp [updateFirst, here, same]
      · simp [updateFirst, here, ih]

/-- What the change keeps, the list keeps. -/
theorem map_updateFirst {β : Type} {key : α → β} (same : ∀ a, key (f a) = key a) (as : List α) :
    (updateFirst p f as).map key = as.map key := by
  induction as with
  | nil => rfl
  | cons a as ih =>
      by_cases here : p a = true
      · simp [updateFirst, here, same]
      · simp [updateFirst, here, ih]

/-- The sum over a list follows the change of one entry. -/
theorem sum_map_set {G : Type} [AddCommGroup G] (g : α → G) {i : Nat} {a : α} (here : as[i]? = some a) (b : α) :
    ((as.set i b).map g).sum = (as.map g).sum - g a + g b := by
  obtain ⟨inRange, rfl⟩ := List.getElem?_eq_some_iff.1 here
  rw [List.map_set, List.sum_set', dif_pos (by simpa using inRange), List.getElem_map]
  abel
