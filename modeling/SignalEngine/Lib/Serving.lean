import Mathlib.Algebra.Order.BigOperators.Group.List
import Mathlib.Algebra.Order.Group.MinMax
import Mathlib.Order.Lattice

/-! # Serving a demand in order

A demand is met from a list of items, the first one first. Items are used up as long
as they are not larger than what is asked for; the next one gives what is left of the
demand and stays with the rest of its size.
-/

namespace Serving

variable {K α : Type} [AddCommGroup K]

/-- What was given altogether. -/
def total (given : List (α × K)) : K := (given.map Prod.snd).sum

@[simp] theorem total_nil : total ([] : List (α × K)) = 0 := rfl

@[simp] theorem total_cons (a : α) (k : K) (given : List (α × K)) : total ((a, k) :: given) = k + total given := by
  simp [total]

theorem total_append (given more : List (α × K)) : total (given ++ more) = total given + total more := by
  simp [total]

variable [LinearOrder K] (size : α → K) (reduce : α → K → α)

/-- What each item gives, and the items that stay. -/
def serve (demand : K) : List α → List (α × K) × List α
  | [] => ([], [])
  | a :: as =>
      if demand ≤ 0 then ([], a :: as)
      else if size a ≤ demand then
        let (given, left) := serve (demand - size a) as
        ((a, size a) :: given, left)
      else ([(a, demand)], reduce a demand :: as)

variable {size reduce}

@[simp] theorem serve_nil (demand : K) : serve size reduce demand [] = ([], []) := rfl

theorem serve_done {demand : K} (done : demand ≤ 0) (items : List α) : serve size reduce demand items = ([], items) := by
  cases items with
  | nil => rfl
  | cons a as => rw [serve, if_pos done]

/-- The items are served one list after the other. -/
theorem serve_append {items more : List α} : ∀ {demand : K},
    serve size reduce demand (items ++ more) =
      ((serve size reduce demand items).1 ++
          (serve size reduce (demand - total (serve size reduce demand items).1) more).1,
        (serve size reduce demand items).2 ++
          (serve size reduce (demand - total (serve size reduce demand items).1) more).2) := by
  induction items with
  | nil =>
      intro demand
      simp
  | cons a as ih =>
      intro demand
      by_cases done : demand ≤ 0
      · simp [serve_done done]
      · rw [List.cons_append, serve, serve, if_neg done, if_neg done]
        by_cases whole : size a ≤ demand
        · simp only [if_pos whole, ih, total_cons, sub_sub, List.cons_append]
        · simp only [if_neg whole, total_cons, total_nil, add_zero, sub_self, serve_done le_rfl, List.append_nil,
            List.cons_append]

variable [IsOrderedAddMonoid K]

variable (size) in
theorem sum_nonneg (items : List α) (sized : ∀ a ∈ items, 0 ≤ size a) : 0 ≤ (items.map size).sum := by
  apply List.sum_nonneg
  intro k member
  obtain ⟨a, inItems, rfl⟩ := List.mem_map.1 member
  exact sized a inItems

variable (size reduce) in
/-- The demand is met as far as the items go. -/
theorem total_serve {items : List α} : ∀ {demand : K}, 0 ≤ demand → (∀ a ∈ items, 0 ≤ size a) →
    total (serve size reduce demand items).1 = min demand (items.map size).sum := by
  induction items with
  | nil =>
      intro demand positive _
      simp [min_eq_right positive]
  | cons a as ih =>
      intro demand positive sized
      have rest := sum_nonneg size as fun b member => sized b (by simp [member])
      have first : 0 ≤ size a := sized a (by simp)
      by_cases done : demand ≤ 0
      · obtain rfl := le_antisymm done positive
        rw [serve_done le_rfl, total_nil, min_eq_left (sum_nonneg size (a :: as) sized)]
      · rw [serve, if_neg done]
        by_cases whole : size a ≤ demand
        · simp only [if_pos whole, total_cons, List.map_cons, List.sum_cons]
          rw [ih (sub_nonneg.2 whole) fun b member => sized b (by simp [member]), ← min_add_add_left]
          rw [add_sub_cancel]
        · have large : demand ≤ size a + (as.map size).sum := (not_le.1 whole).le.trans (le_add_of_nonneg_right rest)
          simp only [if_neg whole, total_cons, total_nil, add_zero, List.map_cons, List.sum_cons, min_eq_left large]

omit [IsOrderedAddMonoid K] in
variable (size reduce) in
/-- The first items are used up; then the demand is met, or nothing is left, or one more
    item gives a part. -/
theorem serve_split (items : List α) : ∀ demand : K, ∃ done rest, items = done ++ rest ∧
    (((serve size reduce demand items).1 = done.map (fun a => (a, size a)) ∧
        (serve size reduce demand items).2 = rest ∧ (rest = [] ∨ demand - (done.map size).sum ≤ 0)) ∨
      ∃ a as, rest = a :: as ∧ 0 < demand - (done.map size).sum ∧ demand - (done.map size).sum < size a ∧
        (serve size reduce demand items).1 =
          done.map (fun a => (a, size a)) ++ [(a, demand - (done.map size).sum)] ∧
        (serve size reduce demand items).2 = reduce a (demand - (done.map size).sum) :: as) := by
  induction items with
  | nil => exact fun demand => ⟨[], [], rfl, .inl ⟨rfl, rfl, .inl rfl⟩⟩
  | cons a as ih =>
      intro demand
      by_cases finished : demand ≤ 0
      · refine ⟨[], a :: as, rfl, .inl ?_⟩
        rw [serve_done finished]
        exact ⟨rfl, rfl, .inr (by simpa using finished)⟩
      · rw [serve, if_neg finished]
        by_cases whole : size a ≤ demand
        · rw [if_pos whole]
          obtain ⟨done, rest, rfl, split⟩ := ih (demand - size a)
          refine ⟨a :: done, rest, rfl, ?_⟩
          rcases split with ⟨given, left, met⟩ | ⟨b, bs, later, more, less, given, left⟩
          · simp only [given, left, List.map_cons, List.sum_cons, ← sub_sub]
            exact .inl ⟨trivial, trivial, met⟩
          · simp only [given, left, List.map_cons, List.sum_cons, ← sub_sub]
            exact .inr ⟨b, bs, later, more, less, rfl, rfl⟩
        · rw [if_neg whole]
          refine ⟨[], a :: as, rfl, .inr ⟨a, as, rfl, ?_⟩⟩
          simp only [List.map_nil, List.sum_nil, sub_zero, List.nil_append]
          exact ⟨not_le.1 finished, not_le.1 whole, trivial, trivial⟩

end Serving
