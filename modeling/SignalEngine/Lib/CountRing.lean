import Mathlib.Algebra.BigOperators.Group.List.Basic
import Mathlib.Data.List.Count
import Mathlib.Algebra.Ring.Nat

/-! # A ring of counters

A head moves over `n` slots in a circle. Every slot counts the events at its own
positions until the head comes to it again, and is then cleared. The slots hold
together what happened at the last `n` positions.
-/

namespace CountRing

/-- What each slot counts when the head is at `head`. -/
def counts (n head : Nat) (positions : List Nat) : List Nat :=
  (List.range n).map fun slot => positions.countP fun p => p % n = slot ∧ head < p + n

/-- The head moves `steps` slots on and clears each. -/
def clear (n head steps : Nat) (slots : List Nat) : List Nat :=
  (List.range steps).foldl (fun slots i => slots.set ((head + (i + 1)) % n) 0) slots

variable {n head : Nat} {positions slots : List Nat}

@[simp] theorem length_counts : (counts n head positions).length = n := by
  simp [counts]

@[simp] theorem counts_nil : counts n head [] = List.replicate n 0 := by
  simp [counts, List.map_const']

theorem getElem?_counts {slot : Nat} (within : slot < n) : (counts n head positions)[slot]? =
    some (positions.countP fun p => p % n = slot ∧ head < p + n) := by
  simp [counts, within]

theorem sum_range_slot {slot : Nat} (within : slot < n) :
    ((List.range n).map fun j => if slot = j then 1 else 0).sum = 1 := by
  induction n with
  | zero => omega
  | succ n ih =>
      rw [List.range_succ, List.map_append, List.sum_append]
      by_cases last : slot = n
      · have none : ∀ x ∈ (List.range n).map fun j => if slot = j then 1 else 0, x = 0 := by
          intro x member
          obtain ⟨j, inside, rfl⟩ := List.mem_map.1 member
          rw [List.mem_range] at inside
          rw [if_neg (by omega)]
        rw [List.sum_eq_zero none]
        simp [last]
      · rw [ih (by omega)]
        simp [last]

/-- The slots count the events at the last `n` positions. -/
theorem sum_counts (positive : 0 < n) : (counts n head positions).sum = positions.countP fun p => head < p + n := by
  induction positions with
  | nil => simp
  | cons p rest ih =>
      have one : counts n head (p :: rest) = (List.range n).map fun slot =>
          (rest.countP fun p => p % n = slot ∧ head < p + n) + if p % n = slot ∧ head < p + n then 1 else 0 := by
        simp [counts, List.countP_cons]
      rw [one, List.sum_map_add, List.countP_cons]
      congr 1
      by_cases counted : head < p + n
      · simp only [counted, and_true, decide_true, if_true]
        exact sum_range_slot (Nat.mod_lt _ positive)
      · simp [counted]

@[simp] theorem length_clear (n head steps : Nat) (slots : List Nat) :
    (clear n head steps slots).length = slots.length := by
  induction steps with
  | zero => rfl
  | succ steps ih =>
      rw [clear] at ih ⊢
      rw [List.range_succ, List.foldl_append, List.foldl_cons, List.foldl_nil, List.length_set, ih]

theorem clear_mod (n head steps : Nat) (slots : List Nat) : clear n (head % n) steps slots = clear n head steps slots := by
  simp only [clear, Nat.mod_add_mod]

theorem getElem?_clear {slot : Nat} (within : slot < slots.length) (steps : Nat) : (clear n head steps slots)[slot]? =
    if ∃ i < steps, (head + (i + 1)) % n = slot then some 0 else slots[slot]? := by
  induction steps with
  | zero => simp [clear]
  | succ steps ih =>
      have last : clear n head (steps + 1) slots = (clear n head steps slots).set ((head + (steps + 1)) % n) 0 := by
        simp [clear, List.range_succ]
      rw [last, List.getElem?_set, length_clear, ih]
      by_cases here : (head + (steps + 1)) % n = slot
      · have hit : ∃ i < steps + 1, (head + (i + 1)) % n = slot := ⟨steps, Nat.lt_succ_self _, here⟩
        rw [if_pos here, if_pos hit, here, if_pos within]
      · rw [if_neg here]
        congr 1
        rw [eq_iff_iff]
        constructor
        · rintro ⟨i, before, hit⟩
          exact ⟨i, by omega, hit⟩
        · rintro ⟨i, before, hit⟩
          refine ⟨i, ?_, hit⟩
          rcases Nat.lt_succ_iff_lt_or_eq.1 before with earlier | rfl
          · exact earlier
          · exact absurd hit here

/-- Moving the head clears what falls out, and only that; a whole turn clears all. -/
theorem clear_counts (passed : ∀ p ∈ positions, p ≤ head) (steps : Nat) :
    clear n head (min steps n) (counts n head positions) = counts n (head + steps) positions := by
  apply List.ext_getElem?
  intro slot
  by_cases within : slot < n
  · rw [getElem?_clear (by simpa using within), getElem?_counts within, getElem?_counts within]
    by_cases hit : ∃ i < min steps n, (head + (i + 1)) % n = slot
    · -- what the slot counted lies a whole turn behind the new head
      obtain ⟨i, before, same⟩ := hit
      rw [if_pos ⟨i, before, same⟩, eq_comm]
      congr 1
      rw [List.countP_eq_zero]
      intro p member
      have behind := passed p member
      rw [decide_eq_true_eq]
      rintro ⟨here, counted⟩
      have congruent : (head + (i + 1) - p) % n = 0 := Nat.sub_mod_eq_zero_of_mod_eq (same.trans here.symm)
      have turn : n ≤ head + (i + 1) - p := Nat.le_of_dvd (by omega) (Nat.dvd_of_mod_eq_zero congruent)
      omega
    · rw [if_neg hit]
      congr 1
      apply List.countP_congr
      intro p member
      have behind := passed p member
      rw [decide_eq_true_eq, decide_eq_true_eq]
      constructor
      · rintro ⟨here, counted⟩
        refine ⟨here, ?_⟩
        by_contra out
        refine hit ⟨p + n - head - 1, by omega, ?_⟩
        rw [show head + (p + n - head - 1 + 1) = p + n by omega, Nat.add_mod_right]
        exact here
      · rintro ⟨here, counted⟩
        exact ⟨here, by omega⟩
  · rw [List.getElem?_eq_none (by simpa using within), List.getElem?_eq_none (by simpa using within)]

/-- An event at the head is counted in the head's slot. -/
theorem modify_counts (positive : 0 < n) :
    (counts n head positions).modify (head % n) (· + 1) = counts n head (positions ++ [head]) := by
  apply List.ext_getElem?
  intro slot
  by_cases within : slot < n
  · rw [List.getElem?_modify, getElem?_counts within, getElem?_counts within, List.countP_append]
    by_cases here : head % n = slot
    · simp [here, positive]
    · simp [here]
  · rw [List.getElem?_eq_none (by simpa using within), List.getElem?_eq_none (by simpa using within)]

end CountRing
