import Mathlib.Data.List.Nodup
import Mathlib.Logic.Function.Basic

/-! # Registries

A map from keys to values that knows its keys, so it can be counted. Every key is
listed once, and the listed keys are those with a value.
-/

/-- A map with the list of its keys. -/
structure Registry (K V : Type) [DecidableEq K] where
  keys : List K
  get : K → Option V
  nodup : keys.Nodup
  mem_keys : ∀ k, k ∈ keys ↔ (get k).isSome

namespace Registry

variable {K V : Type} [DecidableEq K]

def empty : Registry K V := ⟨[], fun _ => none, List.nodup_nil, by simp⟩

/-- The key gets the value, whether it had one or not. -/
def insert (r : Registry K V) (k : K) (v : V) : Registry K V where
  keys := if k ∈ r.keys then r.keys else r.keys ++ [k]
  get := Function.update r.get k (some v)
  nodup := by
    split
    · exact r.nodup
    next fresh => exact List.nodup_append.2 ⟨r.nodup, by simp, by
      intro a member b single
      obtain rfl := List.mem_singleton.1 single
      rintro rfl
      exact fresh member⟩
  mem_keys k' := by
    by_cases same : k' = k
    · subst same
      split <;> simp [*]
    · rw [Function.update_of_ne same, ← r.mem_keys]
      split <;> simp [same]

/-- The value of a key is changed; a key without a value is left alone. -/
def modify (r : Registry K V) (k : K) (f : V → V) : Registry K V where
  keys := r.keys
  get := Function.update r.get k ((r.get k).map f)
  nodup := r.nodup
  mem_keys k' := by
    by_cases same : k' = k
    · subst same
      simp [r.mem_keys]
    · rw [Function.update_of_ne same, r.mem_keys]

/-- Every value is changed, as its key says. -/
def modifyAll (r : Registry K V) (f : K → V → V) : Registry K V where
  keys := r.keys
  get k := (r.get k).map (f k)
  nodup := r.nodup
  mem_keys k := by simp [r.mem_keys]

/-- The key loses its value. -/
def erase (r : Registry K V) (k : K) : Registry K V where
  keys := r.keys.erase k
  get := Function.update r.get k none
  nodup := r.nodup.erase k
  mem_keys k' := by
    rw [r.nodup.mem_erase_iff]
    by_cases same : k' = k
    · subst same
      simp
    · rw [Function.update_of_ne same, ← r.mem_keys]
      simp [same]

def size (r : Registry K V) : Nat := r.keys.length

/-- How many values satisfy `p`. -/
def count (r : Registry K V) (p : V → Bool) : Nat := r.keys.countP fun k => (r.get k).any p

section Lookup

variable {r : Registry K V} {k : K}

@[simp] theorem get_empty (k : K) : (empty : Registry K V).get k = none := rfl

theorem get_insert (r : Registry K V) (k k' : K) (v : V) :
    (r.insert k v).get k' = if k' = k then some v else r.get k' := by
  by_cases same : k' = k
  · subst same
    simp [insert]
  · simp [insert, same]

theorem get_modify (r : Registry K V) (k k' : K) (f : V → V) :
    (r.modify k f).get k' = if k' = k then (r.get k).map f else r.get k' := by
  by_cases same : k' = k
  · subst same
    simp [modify]
  · simp [modify, same]

theorem get_modifyAll (r : Registry K V) (k : K) (f : K → V → V) : (r.modifyAll f).get k = (r.get k).map (f k) := rfl

theorem get_erase (r : Registry K V) (k k' : K) :
    (r.erase k).get k' = if k' = k then none else r.get k' := by
  by_cases same : k' = k
  · subst same
    simp [erase]
  · simp [erase, same]

theorem notMem_keys (fresh : r.get k = none) : k ∉ r.keys := by
  rw [r.mem_keys, fresh]
  simp

end Lookup

section Counting

variable {r : Registry K V} {k : K} {v : V} {p : V → Bool}

@[simp] theorem count_empty (p : V → Bool) : (empty : Registry K V).count p = 0 := rfl

@[simp] theorem size_modify (r : Registry K V) (k : K) (f : V → V) : (r.modify k f).size = r.size := rfl

/-- A predicate on keys that differs at one listed key only. -/
theorem countP_update {keys : List K} (nodup : keys.Nodup) (member : k ∈ keys) (before after : K → Bool)
    (same : ∀ k', k' ≠ k → after k' = before k') :
    keys.countP after + (before k).toNat = keys.countP before + (after k).toNat := by
  induction keys with
  | nil => simp at member
  | cons head rest ih =>
      obtain ⟨fresh, nodup'⟩ := List.nodup_cons.1 nodup
      rw [List.countP_cons, List.countP_cons]
      by_cases here : head = k
      · subst here
        have others : rest.countP after = rest.countP before := by
          apply List.countP_congr
          intro k' inRest
          rw [same k' fun equal => fresh (equal ▸ inRest)]
        rw [others]
        cases before head <;> cases after head <;> simp
      · have there : k ∈ rest := by simpa [Ne.symm here] using member
        rw [same head here]
        have tail := ih nodup' there
        omega

theorem count_insert (fresh : r.get k = none) :
    (r.insert k v).count p = r.count p + (p v).toNat := by
  have notListed := notMem_keys fresh
  have others : r.keys.countP (fun k' => ((r.insert k v).get k').any p) = r.count p := by
    apply List.countP_congr
    intro k' member
    have other : k' ≠ k := fun equal => notListed (equal ▸ member)
    rw [get_insert, if_neg other]
  have listed : (r.insert k v).keys = r.keys ++ [k] := by simp [insert, notListed]
  rw [count, listed, List.countP_append, others, List.countP_singleton, get_insert, if_pos rfl]
  cases h : p v <;> simp [h]

theorem count_modify (found : r.get k = some v) (f : V → V) :
    (r.modify k f).count p + (p v).toNat = r.count p + (p (f v)).toNat := by
  have member : k ∈ r.keys := by
    rw [r.mem_keys, found]
    rfl
  have update := countP_update r.nodup member (fun k' => (r.get k').any p)
    (fun k' => ((r.modify k f).get k').any p) (fun k' other => by rw [get_modify, if_neg other])
  rw [get_modify, if_pos rfl, found] at update
  exact update

theorem count_le_size (r : Registry K V) (p : V → Bool) : r.count p ≤ r.size := List.countP_le_length

end Counting

end Registry
