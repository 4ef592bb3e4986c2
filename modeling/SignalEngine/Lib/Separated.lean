import Mathlib.Data.List.Nodup

/-! # Texts with separators

When the parts of a text can be read back: the first part that is free of the
separator, the last one, a word at the end, and a nonempty list of joined words.
-/

namespace Separated

variable {α : Type} {x : α}

/-- The part before the first separator. -/
theorem before_inj {front front' rest rest' : List α} (free : x ∉ front) (free' : x ∉ front')
    (same : front ++ x :: rest = front' ++ x :: rest') : front = front' ∧ rest = rest' := by
  induction front generalizing front' with
  | nil =>
      cases front' with
      | nil => exact ⟨rfl, (List.cons.inj same).2⟩
      | cons a as =>
          obtain ⟨rfl, -⟩ := List.cons.inj same
          simp at free'
  | cons a as ih =>
      cases front' with
      | nil =>
          obtain ⟨rfl, -⟩ := List.cons.inj same
          simp at free
      | cons b bs =>
          obtain ⟨rfl, tail⟩ := List.cons.inj same
          obtain ⟨rfl, rest⟩ := ih (fun member => free (List.mem_cons_of_mem a member))
            (fun member => free' (List.mem_cons_of_mem a member)) tail
          exact ⟨rfl, rest⟩

/-- The part after the last separator. -/
theorem after_inj {front front' last last' : List α} (free : x ∉ last) (free' : x ∉ last')
    (same : front ++ x :: last = front' ++ x :: last') : front = front' ∧ last = last' := by
  have turned : last.reverse ++ x :: front.reverse = last'.reverse ++ x :: front'.reverse := by
    simpa using congrArg List.reverse same
  obtain ⟨ends, starts⟩ := before_inj (by simpa using free) (by simpa using free') turned
  exact ⟨List.reverse_injective starts, List.reverse_injective ends⟩

/-- A word at the end, when no word of the set ends another one. -/
theorem word_inj {ι : Type} {word : ι → List α} (free : ∀ i j, word i <:+ word j → i = j)
    {front front' : List α} {i j : ι} (same : front ++ word i = front' ++ word j) :
    front = front' ∧ i = j := by
  have own : word i <:+ front ++ word i := List.suffix_append _ _
  have other : word j <:+ front ++ word i := same ▸ List.suffix_append _ _
  have equal : i = j := by
    obtain shorter | longer := List.suffix_or_suffix_of_suffix own other
    · exact free i j shorter
    · exact (free j i longer).symm
  subst equal
  exact ⟨List.append_cancel_right same, rfl⟩

/-- What joined words are made of. -/
theorem mem_joined {separator : List α} {words : List (List α)} {a : α} (member : a ∈ separator.intercalate words) :
    a ∈ separator ∨ ∃ w ∈ words, a ∈ w := by
  induction words with
  | nil => simp at member
  | cons w words ih =>
      cases words with
      | nil => exact .inr ⟨w, by simp, by simpa using member⟩
      | cons w' words =>
          rw [List.intercalate_cons_cons, List.append_assoc, List.mem_append, List.mem_append] at member
          obtain own | between | later := member
          · exact .inr ⟨w, by simp, own⟩
          · exact .inl between
          · obtain between | ⟨v, known, own⟩ := ih later
            · exact .inl between
            · exact .inr ⟨v, List.mem_cons_of_mem w known, own⟩

/-- Words without the separator, joined. -/
theorem joined_inj {c : Char} {words words' : List String} (some : words ≠ []) (some' : words' ≠ [])
    (free : ∀ w ∈ words, c ∉ w.toList) (free' : ∀ w ∈ words', c ∉ w.toList)
    (same : (String.singleton c).intercalate words = (String.singleton c).intercalate words') :
    words = words' := by
  have split : ∀ ws : List String, ws ≠ [] → (∀ w ∈ ws, c ∉ w.toList) →
      ((String.singleton c).intercalate ws).toList.splitOn c = ws.map String.toList := by
    intro ws nonempty clear
    rw [String.toList_intercalate, String.toList_singleton]
    apply List.splitOn_intercalate
    · simpa using clear
    · simpa using nonempty
  have lists : words.map String.toList = words'.map String.toList := by
    rw [← split words some free, same, split words' some' free']
  exact List.map_injective_iff.2 (fun _ _ => String.toList_injective) lists

end Separated
