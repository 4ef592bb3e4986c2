import Mathlib.Data.List.Perm.Basic
import Mathlib.Data.List.Induction
import Mathlib.Data.List.Nodup
import Std.Data.ExtTreeMap

/-! # Last writes

Rows that are updated one after another: a row ends up as its own updates make
it. Where an update sets some fields and the last write wins, the writes may be
reordered when they agree. A map made of rows with distinct keys lists them.
-/

namespace LastWrites

/-! ## Rows -/

section Rows

variable {ρ υ : Type} (act : ρ → υ → ρ)

/-- Apply each update to the row it names. -/
def updateRows (rows : List ρ) (updates : List (Nat × υ)) : List ρ :=
  updates.foldl (fun rows u => rows.modify u.1 (act · u.2)) rows

/-- The updates of one row, in order. -/
def updatesOf (j : Nat) (updates : List (Nat × υ)) : List υ :=
  (updates.filter fun u => u.1 = j).map Prod.snd

theorem updatesOf_cons_self (j : Nat) (u : υ) (updates : List (Nat × υ)) :
    updatesOf j ((j, u) :: updates) = u :: updatesOf j updates := by
  simp [updatesOf]

theorem updatesOf_cons_other {j i : Nat} (other : i ≠ j) (u : υ) (updates : List (Nat × υ)) :
    updatesOf j ((i, u) :: updates) = updatesOf j updates := by
  simp [updatesOf, other]

theorem updateRows_getElem? (rows : List ρ) (updates : List (Nat × υ)) (j : Nat) :
    (updateRows act rows updates)[j]? = rows[j]?.map fun row => (updatesOf j updates).foldl act row := by
  induction updates generalizing rows with
  | nil => simp [updateRows, updatesOf]
  | cons u updates ih =>
      obtain ⟨i, u⟩ := u
      have step : updateRows act rows ((i, u) :: updates) = updateRows act (rows.modify i (act · u)) updates := rfl
      rw [step, ih, List.getElem?_modify]
      by_cases same : i = j
      · subst same
        rw [updatesOf_cons_self]
        simp [Function.comp_def]
      · rw [updatesOf_cons_other same]
        simp [same]

end Rows

/-! ## Fields -/

section Fields

variable {ω α : Type} {f : ω → Option α}

/-- The last value that is written. -/
def lastSome (f : ω → Option α) (ws : List ω) : Option α := (ws.filterMap f).getLast?

theorem lastSome_concat (ws : List ω) (w : ω) : lastSome f (ws ++ [w]) = (f w).or (lastSome f ws) := by
  rw [lastSome, List.filterMap_append]
  cases here : f w with
  | none => simp [lastSome, here]
  | some a => simp [here]

theorem lastSome_of_last {ws : List ω} {w : ω} {a : α} (last : ws.getLast? = some w) (here : f w = some a) :
    lastSome f ws = some a := by
  obtain ⟨init, rfl⟩ := List.getLast?_eq_some_iff.1 last
  rw [lastSome_concat, here, Option.some_or]

theorem mem_of_lastSome {ws : List ω} {a : α} (last : lastSome f ws = some a) : ∃ w ∈ ws, f w = some a :=
  List.mem_filterMap.1 (List.mem_of_getLast? last)

theorem lastSome_isSome {ws : List ω} {w : ω} {a : α} (member : w ∈ ws) (here : f w = some a) :
    ∃ b, lastSome f ws = some b := by
  have known : a ∈ ws.filterMap f := List.mem_filterMap.2 ⟨w, member, here⟩
  exact ⟨_, List.getLast?_eq_some_getLast (List.ne_nil_of_mem known)⟩

/-- Writes that agree may be reordered. -/
theorem lastSome_perm {ws ws' : List ω} (same : ws.Perm ws')
    (agree : ∀ w ∈ ws, ∀ w' ∈ ws, ∀ a a', f w = some a → f w' = some a' → a = a') :
    lastSome f ws = lastSome f ws' := by
  cases last : lastSome f ws with
  | none =>
      cases last' : lastSome f ws' with
      | none => rfl
      | some a =>
          obtain ⟨w, member, here⟩ := mem_of_lastSome last'
          obtain ⟨b, written⟩ := lastSome_isSome (same.mem_iff.2 member) here
          rw [last] at written
          cases written
  | some a =>
      obtain ⟨w, member, here⟩ := mem_of_lastSome last
      obtain ⟨b, written⟩ := lastSome_isSome (same.mem_iff.1 member) here
      obtain ⟨w', member', here'⟩ := mem_of_lastSome written
      rw [written, agree w member w' (same.mem_iff.2 member') a b here here']

end Fields

/-! ## Maps -/

/-- A map made of rows with distinct keys holds these rows. -/
theorem toList_ofList_perm {ν : Type} {rows : List (String × ν)} (distinct : (rows.map Prod.fst).Nodup) :
    (Std.ExtTreeMap.ofList rows : Std.ExtTreeMap String ν).toList.Perm rows := by
  have apart : rows.Pairwise fun a b => ¬ compare a.1 b.1 = .eq := by
    rw [List.Nodup, List.pairwise_map] at distinct
    exact distinct.imp fun differ same => differ (Std.LawfulEqCmp.eq_of_compare same)
  have nodup : rows.Nodup := List.Nodup.of_map Prod.fst distinct
  have nodup' : (Std.ExtTreeMap.ofList rows : Std.ExtTreeMap String ν).toList.Nodup := by
    refine (Std.ExtTreeMap.distinct_keys_toList).imp ?_
    rintro a _ differ rfl
    exact differ Std.ReflCmp.compare_self
  rw [List.perm_ext_iff_of_nodup nodup' nodup]
  rintro ⟨k, v⟩
  rw [Std.ExtTreeMap.mem_toList_iff_getElem?_eq_some]
  constructor
  · intro found
    have known : k ∈ rows.map Prod.fst := by
      by_contra unknown
      rw [Std.ExtTreeMap.getElem?_ofList_of_contains_eq_false (by simpa using unknown)] at found
      cases found
    obtain ⟨⟨k', v'⟩, member, rfl⟩ := List.mem_map.1 known
    rw [Std.ExtTreeMap.getElem?_ofList_of_mem Std.ReflCmp.compare_self apart member] at found
    obtain rfl := Option.some.inj found
    exact member
  · intro member
    exact Std.ExtTreeMap.getElem?_ofList_of_mem Std.ReflCmp.compare_self apart member

/-- In a sorted list, a row whose key exceeds all others is the last. -/
theorem getLast?_of_max {ν : Type} {rows : List (String × ν)} {e : String × ν}
    (sorted : rows.Pairwise fun a b => compare a.1 b.1 = .lt) (member : e ∈ rows)
    (above : ∀ e' ∈ rows, e' ≠ e → compare e'.1 e.1 = .lt) : rows.getLast? = some e := by
  obtain ⟨before, after, rfl⟩ := List.append_of_mem member
  cases after with
  | nil => simp
  | cons x after =>
      -- a row after it would be both above and below it
      have later : compare e.1 x.1 = .lt := by
        rw [List.pairwise_append] at sorted
        exact (List.pairwise_cons.1 sorted.2.1).1 x (by simp)
      have different : x ≠ e := by
        rintro rfl
        have self : compare x.1 x.1 = .eq := Std.ReflCmp.compare_self
        rw [self] at later
        cases later
      have earlier := above x (by simp) different
      have both : compare x.1 e.1 = .gt := Std.OrientedCmp.gt_of_lt later
      rw [earlier] at both
      cases both

end LastWrites
