import Mathlib.Data.List.Sort
import Mathlib.Data.List.Dedup

/-! # Ordered sets as lists

The members of a collection in ascending order, each once.
-/

namespace Ascending

variable {α : Type} [LinearOrder α]

def ascending (xs : List α) : List α := xs.dedup.insertionSort (· ≤ ·)

variable {xs : List α}

@[simp] theorem mem_ascending {x : α} : x ∈ ascending xs ↔ x ∈ xs := by
  rw [ascending, List.mem_insertionSort, List.mem_dedup]

theorem nodup_ascending (xs : List α) : (ascending xs).Nodup :=
  (List.perm_insertionSort _ _).nodup_iff.2 (List.nodup_dedup xs)

theorem ascending_pairwise (xs : List α) : (ascending xs).Pairwise (· < ·) := by
  have sorted : (ascending xs).Pairwise (· ≤ ·) := List.pairwise_insertionSort _ _
  refine (sorted.and (nodup_ascending xs)).imp ?_
  rintro a b ⟨le, ne⟩
  exact lt_of_le_of_ne le ne

theorem filter_ascending (p : α → Bool) (xs : List α) : (ascending xs).filter p = ascending (xs.filter p) :=
  List.Pairwise.eq_of_mem_iff ((ascending_pairwise xs).filter p) (ascending_pairwise _) fun x => by
    rw [List.mem_filter, mem_ascending, mem_ascending, List.mem_filter]

end Ascending
