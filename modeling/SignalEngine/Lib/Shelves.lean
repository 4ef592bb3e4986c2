import Mathlib.Data.List.Nodup
import Mathlib.Logic.Function.Basic

/-! # Queues that share out items

Every item stands in one queue and there at one position. Putting an item that
stands nowhere at the end of a queue, and taking an item out, keep this.
-/

/-- The queues hold exactly these items, each of them once. -/
structure Shares {K I : Type} (queues : K → List I) (items : I → Prop) : Prop where
  nodup : ∀ k, (queues k).Nodup
  apart : ∀ {k k' i}, i ∈ queues k → i ∈ queues k' → k = k'
  mem : ∀ i, items i ↔ ∃ k, i ∈ queues k

namespace Shares

variable {K I : Type} {queues : K → List I} {items items' : I → Prop}

theorem empty : Shares (fun _ : K => ([] : List I)) fun _ => False := ⟨by simp, by simp, by simp⟩

theorem congr (shares : Shares queues items) (same : ∀ i, items' i ↔ items i) : Shares queues items' :=
  ⟨shares.nodup, shares.apart, fun i => (same i).trans (shares.mem i)⟩

/-- Where an item stands. -/
theorem existsUnique_place (shares : Shares queues items) {i : I} (member : items i) :
    ∃! place : K × Nat, (queues place.1)[place.2]? = some i := by
  obtain ⟨k, among⟩ := (shares.mem i).1 member
  obtain ⟨n, here⟩ := List.mem_iff_getElem?.1 among
  refine ⟨(k, n), here, ?_⟩
  rintro ⟨k', n'⟩ there
  obtain rfl := shares.apart (List.mem_of_getElem? there) among
  obtain ⟨before, -⟩ := List.getElem?_eq_some_iff.1 there
  exact Prod.ext rfl ((List.getElem?_inj before (shares.nodup k')).1 (there.trans here.symm))

theorem items_of_place (shares : Shares queues items) {k : K} {n : Nat} {i : I} (here : (queues k)[n]? = some i) :
    items i := (shares.mem i).2 ⟨k, List.mem_of_getElem? here⟩

variable [DecidableEq K]

/-- What stands in the queues when an item is put at the end of one. -/
theorem mem_push (queues : K → List I) (k k' : K) (i j : I) :
    j ∈ Function.update queues k (queues k ++ [i]) k' ↔ j ∈ queues k' ∨ k' = k ∧ j = i := by
  by_cases own : k' = k
  · subst own
    simp
  · simp [own]

theorem push (shares : Shares queues items) (k : K) {i : I} (new : ¬ items i) :
    Shares (Function.update queues k (queues k ++ [i])) fun j => items j ∨ j = i := by
  have absent (k' : K) : i ∉ queues k' := fun among => new ((shares.mem i).2 ⟨k', among⟩)
  refine ⟨fun k' => ?_, fun {k₁ k₂ j} first second => ?_, fun j => ?_⟩
  · by_cases own : k' = k
    · subst own
      rw [Function.update_self]
      refine List.nodup_append.2 ⟨shares.nodup k', by simp, ?_⟩
      rintro a among b single rfl
      obtain rfl := List.mem_singleton.1 single
      exact absent k' among
    · rw [Function.update_of_ne own]
      exact shares.nodup k'
  · rcases (mem_push queues k k₁ i j).1 first with old | ⟨own, same⟩
    · rcases (mem_push queues k k₂ i j).1 second with old' | ⟨-, same⟩
      · exact shares.apart old old'
      · exact absurd (same ▸ old) (absent k₁)
    · rcases (mem_push queues k k₂ i j).1 second with old | ⟨own', -⟩
      · exact absurd (same ▸ old) (absent k₂)
      · exact own.trans own'.symm
  · simp only [mem_push, shares.mem]
    constructor
    · rintro (⟨k', among⟩ | rfl)
      · exact ⟨k', .inl among⟩
      · exact ⟨k, .inr ⟨rfl, rfl⟩⟩
    · rintro ⟨k', among | ⟨-, rfl⟩⟩
      · exact .inl ⟨k', among⟩
      · exact .inr rfl

/-- What stands in the queues when an item is taken out. -/
theorem mem_take (shares : Shares queues items) {k : K} {n : Nat} {i : I} (here : (queues k)[n]? = some i) (k' : K)
    (j : I) : j ∈ Function.update queues k ((queues k).eraseIdx n) k' ↔ j ∈ queues k' ∧ j ≠ i := by
  have left (j : I) : j ∈ (queues k).eraseIdx n ↔ j ∈ queues k ∧ j ≠ i := by
    rw [List.mem_eraseIdx_iff_getElem?]
    constructor
    · rintro ⟨m, other, there⟩
      refine ⟨List.mem_of_getElem? there, ?_⟩
      rintro rfl
      obtain ⟨before, -⟩ := List.getElem?_eq_some_iff.1 there
      exact other ((List.getElem?_inj before (shares.nodup k)).1 (there.trans here.symm))
    · rintro ⟨among, other⟩
      obtain ⟨m, there⟩ := List.mem_iff_getElem?.1 among
      refine ⟨m, ?_, there⟩
      rintro rfl
      exact other (Option.some.inj (there.symm.trans here))
  by_cases own : k' = k
  · subst own
    rw [Function.update_self, left]
  · rw [Function.update_of_ne own]
    refine ⟨fun among => ⟨among, ?_⟩, And.left⟩
    rintro rfl
    exact own (shares.apart among (List.mem_of_getElem? here))

/-- The item at position `n` of a queue is taken out. -/
theorem take (shares : Shares queues items) {k : K} {n : Nat} {i : I} (here : (queues k)[n]? = some i) :
    Shares (Function.update queues k ((queues k).eraseIdx n)) fun j => items j ∧ j ≠ i := by
  refine ⟨fun k' => ?_, fun {k₁ k₂ j} first second => ?_, fun j => ?_⟩
  · by_cases own : k' = k
    · subst own
      rw [Function.update_self]
      exact (shares.nodup k').sublist (List.eraseIdx_sublist ..)
    · rw [Function.update_of_ne own]
      exact shares.nodup k'
  · exact shares.apart ((shares.mem_take here k₁ j).1 first).1 ((shares.mem_take here k₂ j).1 second).1
  · simp only [shares.mem_take here, shares.mem]
    constructor
    · rintro ⟨⟨k', among⟩, other⟩
      exact ⟨k', among, other⟩
    · rintro ⟨k', among, other⟩
      exact ⟨⟨k', among⟩, other⟩

end Shares
