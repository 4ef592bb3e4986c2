import SignalEngine.Lib.Registry
import Mathlib.Data.List.Perm.Basic
import Mathlib.Data.List.Lattice
import Mathlib.Data.List.Induction
import Mathlib.Algebra.Order.Group.Nat

/-! # The latest of numbered writes

Writes to keys, each with a number. A log that lists the writes of every key in the
order of their numbers replays to the latest write of each key.
-/

namespace Latest

variable {E K : Type} (key : E → K) (number : E → Nat)

/-- The write to `k` with the highest number. -/
structure IsLatest (writes : List E) (k : K) (e : E) : Prop where
  mem : e ∈ writes
  key_eq : key e = k
  highest : ∀ e' ∈ writes, key e' = k → number e' ≤ number e

/-- The writes of one key come in the order of their numbers. -/
def Ordered (writes : List E) : Prop := writes.Pairwise fun e e' => key e = key e' → number e < number e'

/-- The last write to a key wins. -/
def replay [DecidableEq K] (start : Registry K E) (writes : List E) : Registry K E :=
  writes.foldl (fun r e => r.insert (key e) e) start

variable {key number} {writes writes' : List E} {k : K} {e e' : E}

theorem IsLatest.unique (distinct : (writes.map number).Nodup) (first : IsLatest key number writes k e)
    (second : IsLatest key number writes k e') : e = e' := by
  have same : number e = number e' :=
    le_antisymm (second.highest e first.mem first.key_eq) (first.highest e' second.mem second.key_eq)
  exact List.inj_on_of_nodup_map distinct first.mem second.mem same

/-- Only the members matter. -/
theorem IsLatest.congr (same : ∀ e, e ∈ writes ↔ e ∈ writes') (latest : IsLatest key number writes k e) :
    IsLatest key number writes' k e :=
  ⟨(same e).1 latest.mem, latest.key_eq, fun e' member => latest.highest e' ((same e').2 member)⟩

theorem exists_latest (some : ∃ e ∈ writes, key e = k) : ∃ e, IsLatest key number writes k e := by
  classical
  induction writes with
  | nil => simp at some
  | cons head rest ih =>
      by_cases later : ∃ e ∈ rest, key e = k
      · obtain ⟨e, member, same, highest⟩ := ih later
        by_cases own : key head = k ∧ number e < number head
        · refine ⟨head, by simp, own.1, fun e' member' same' => ?_⟩
          rcases List.mem_cons.1 member' with rfl | old
          · exact le_refl _
          · exact (highest e' old same').trans own.2.le
        · refine ⟨e, List.mem_cons_of_mem _ member, same, fun e' member' same' => ?_⟩
          rcases List.mem_cons.1 member' with rfl | old
          · by_contra above
            exact own ⟨same', not_le.1 above⟩
          · exact highest e' old same'
      · obtain ⟨e, member, same⟩ := some
        have own : e = head := by
          rcases List.mem_cons.1 member with here | there
          · exact here
          · exact absurd ⟨e, there, same⟩ later
        subst own
        refine ⟨e, by simp, same, fun e' member' same' => ?_⟩
        rcases List.mem_cons.1 member' with rfl | old
        · exact le_refl _
        · exact absurd ⟨e', old, same'⟩ later

/-- A write with a higher number than all writes of its key. -/
theorem isLatest_new (above : ∀ e' ∈ writes, key e' = key e → number e' < number e)
    (members : ∀ e', e' ∈ writes' ↔ e' ∈ writes ∨ e' = e) : IsLatest key number writes' (key e) e := by
  refine ⟨(members e).2 (.inr rfl), rfl, fun e' member same => ?_⟩
  rcases (members e').1 member with old | rfl
  · exact (above e' old same).le
  · exact le_refl _

/-- Another key keeps its latest write. -/
theorem isLatest_other (other : key e' ≠ k) (members : ∀ e, e ∈ writes' ↔ e ∈ writes ∨ e = e') :
    IsLatest key number writes' k e ↔ IsLatest key number writes k e := by
  constructor
  · rintro ⟨member, same, highest⟩
    refine ⟨?_, same, fun e'' old => highest e'' ((members e'').2 (.inl old))⟩
    rcases (members e).1 member with old | rfl
    · exact old
    · exact absurd same other
  · rintro ⟨member, same, highest⟩
    refine ⟨(members e).2 (.inl member), same, fun e'' among same' => ?_⟩
    rcases (members e'').1 among with old | rfl
    · exact highest e'' old same'
    · exact absurd same' other

/-- The latest of the writes above a number. -/
theorem isLatest_above {bound : Nat} :
    IsLatest key number (writes.filter fun e => bound < number e) k e ↔
      IsLatest key number writes k e ∧ bound < number e := by
  constructor
  · rintro ⟨member, same, highest⟩
    obtain ⟨member, above⟩ := List.mem_filter.1 member
    have above : bound < number e := of_decide_eq_true above
    refine ⟨⟨member, same, fun e' member' same' => ?_⟩, above⟩
    by_cases above' : bound < number e'
    · exact highest e' (List.mem_filter.2 ⟨member', decide_eq_true above'⟩) same'
    · exact (not_lt.1 above').trans above.le
  · rintro ⟨⟨member, same, highest⟩, above⟩
    exact ⟨List.mem_filter.2 ⟨member, decide_eq_true above⟩, same,
      fun e' member' => highest e' (List.mem_of_mem_filter member')⟩

/-- The latest of the writes up to a number, when the key has none above. -/
theorem isLatest_below {bound : Nat} :
    IsLatest key number (writes.filter fun e => number e ≤ bound) k e ∧
        (∀ e' ∈ writes.filter (fun e => bound < number e), key e' ≠ k) ↔
      IsLatest key number writes k e ∧ number e ≤ bound := by
  constructor
  · rintro ⟨⟨member, same, highest⟩, none⟩
    obtain ⟨member, below⟩ := List.mem_filter.1 member
    refine ⟨⟨member, same, fun e' member' same' => ?_⟩, of_decide_eq_true below⟩
    by_cases above : bound < number e'
    · exact absurd same' (none e' (List.mem_filter.2 ⟨member', decide_eq_true above⟩))
    · exact highest e' (List.mem_filter.2 ⟨member', decide_eq_true (not_lt.1 above)⟩) same'
  · rintro ⟨⟨member, same, highest⟩, below⟩
    refine ⟨⟨List.mem_filter.2 ⟨member, decide_eq_true below⟩, same,
      fun e' member' => highest e' (List.mem_of_mem_filter member')⟩, fun e' member' same' => ?_⟩
    obtain ⟨member', above⟩ := List.mem_filter.1 member'
    have above : bound < number e' := of_decide_eq_true above
    exact absurd (highest e' member' same') (not_le.2 (below.trans_lt above))

theorem Ordered.latest_last (ordered : Ordered key number (writes ++ [e])) :
    IsLatest key number (writes ++ [e]) (key e) e := by
  have members : ∀ e', e' ∈ writes ++ [e] ↔ e' ∈ writes ∨ e' = e := by simp
  refine isLatest_new (fun e' member same => ?_) members
  exact (List.pairwise_append.1 ordered).2.2 e' member e (by simp) same

variable [DecidableEq K] {start : Registry K E}

/-- What a key holds after the replay: its latest write, or what it held before. -/
theorem get_replay (distinct : (writes.map number).Nodup) (ordered : Ordered key number writes) :
    (replay key start writes).get k = some e ↔ IsLatest key number writes k e ∨
      ((∀ e' ∈ writes, key e' ≠ k) ∧ start.get k = some e) := by
  induction writes using List.reverseRecOn with
  | nil => simp [replay, show ¬ IsLatest key number [] k e from fun latest => by simpa using latest.mem]
  | append_singleton writes last ih =>
      have ordered' : Ordered key number writes := (List.pairwise_append.1 ordered).1
      have distinct' : (writes.map number).Nodup := by
        rw [List.map_append] at distinct
        exact (List.nodup_append.1 distinct).1
      have latest := ordered.latest_last
      rw [replay, List.foldl_append, List.foldl_cons, List.foldl_nil, Registry.get_insert]
      by_cases own : k = key last
      · rw [if_pos own]
        subst own
        constructor
        · intro same
          obtain rfl := Option.some.inj same
          exact .inl latest
        · rintro (latest' | ⟨none, -⟩)
          · rw [latest.unique distinct latest']
          · exact absurd rfl (none last (by simp))
      · have members : ∀ e, e ∈ writes ++ [last] ↔ e ∈ writes ∨ e = last := by simp
        rw [if_neg own, isLatest_other (fun same => own same.symm) members]
        have old := ih distinct' ordered'
        rw [replay] at old
        rw [old]
        refine or_congr_right (and_congr_left' ⟨fun none e' member => ?_, fun none e' member =>
          none e' (List.mem_append_left _ member)⟩)
        rcases (members e').1 member with early | rfl
        · exact none e' early
        · exact fun same => own same.symm

end Latest
