import Mathlib.Tactic.Cases

/-! # Character-list text

The string operations of a Unicode-aware standard library, on lists of
characters: trimming, splitting at the first occurrence and reading a signed
machine number. Strings are converted once, at the border of a function.
-/

namespace Text

/-- The `Debug` form of a text: in quotes, with escapes. -/
class DebugText where
  quoted : String → String

/-- The Unicode `White_Space` property. -/
def isWhitespace (c : Char) : Bool :=
  let n := c.toNat
  (9 ≤ n && n ≤ 13) || n == 0x20 || n == 0x85 || n == 0xA0 || n == 0x1680 ||
    (0x2000 ≤ n && n ≤ 0x200A) || n == 0x2028 || n == 0x2029 || n == 0x202F || n == 0x205F ||
    n == 0x3000

/-- Drop whitespace at both ends. -/
def trim (cs : List Char) : List Char :=
  ((cs.dropWhile isWhitespace).reverse.dropWhile isWhitespace).reverse

/-- Cut at the first element that satisfies `p`; the element itself is dropped. -/
def splitFirst (p : Char → Bool) : List Char → Option (List Char × List Char)
  | [] => none
  | c :: cs =>
      if p c then some ([], cs)
      else (splitFirst p cs).map fun (before, after) => (c :: before, after)

def allDigits (cs : List Char) : Bool := cs.all Char.isDigit

/-- An optional sign, then at least one digit. -/
def readSigned : List Char → Option Int
  | '-' :: cs => if cs ≠ [] ∧ allDigits cs then some (-(Nat.ofDigitChars 10 cs 0 : Int)) else none
  | '+' :: cs => if cs ≠ [] ∧ allDigits cs then some (Nat.ofDigitChars 10 cs 0 : Int) else none
  | cs => if cs ≠ [] ∧ allDigits cs then some (Nat.ofDigitChars 10 cs 0 : Int) else none

theorem not_isWhitespace_of_isDigit {c : Char} (digit : c.isDigit = true) :
    isWhitespace c = false := by
  have range : 48 ≤ c.toNat ∧ c.toNat ≤ 57 := by
    simp only [Char.isDigit, Bool.and_eq_true, decide_eq_true_eq] at digit
    exact digit
  simp only [isWhitespace, Bool.or_eq_false_iff, Bool.and_eq_false_iff, decide_eq_false_iff_not,
    beq_eq_false_iff_ne]
  omega

variable {p : Char → Bool} {cs : List Char}

private theorem dropWhile_head (head : ∀ c ∈ cs.head?, p c = false) : cs.dropWhile p = cs := by
  cases cs with
  | nil => rfl
  | cons c cs => simp [head c rfl]

/-- Text whose ends are not blank is left alone. -/
theorem trim_of_ends (first : ∀ c ∈ cs.head?, isWhitespace c = false)
    (last : ∀ c ∈ cs.getLast?, isWhitespace c = false) : trim cs = cs := by
  unfold trim
  rw [dropWhile_head first, dropWhile_head (by simpa using last), List.reverse_reverse]

/-- A blank at the end is dropped. -/
theorem trim_concat {c : Char} (blank : isWhitespace c = true) (nonempty : cs ≠ [])
    (first : ∀ c ∈ cs.head?, isWhitespace c = false) (last : ∀ c ∈ cs.getLast?, isWhitespace c = false) :
    trim (cs ++ [c]) = cs := by
  have head : (cs ++ [c]).head? = cs.head? := by
    cases cs with
    | nil => exact absurd rfl nonempty
    | cons _ _ => rfl
  have kept : (cs ++ [c]).dropWhile isWhitespace = cs ++ [c] := dropWhile_head (by rwa [head])
  unfold trim
  rw [kept, List.reverse_append, List.reverse_singleton,
    List.singleton_append, List.dropWhile_cons_of_pos blank, dropWhile_head (by simpa using last),
    List.reverse_reverse]

theorem splitFirst_eq_none : splitFirst p cs = none ↔ ∀ c ∈ cs, p c = false := by
  induction cs with
  | nil => simp [splitFirst]
  | cons c cs ih => cases here : p c <;> simp [splitFirst, here, ih]

theorem splitFirst_append {before after : List Char} {c : Char} (clear : ∀ b ∈ before, p b = false)
    (here : p c = true) :
    splitFirst p (before ++ c :: after) = some (before, after) := by
  induction before with
  | nil => simp [splitFirst, here]
  | cons b before ih =>
      have head : p b = false := clear b (by simp)
      have tail := ih fun b' member => clear b' (by simp [member])
      simp [splitFirst, head, tail]

/-- The two sides and the element between them make up the whole. -/
theorem of_splitFirst {before after : List Char} (h : splitFirst p cs = some (before, after)) :
    ∃ c, p c = true ∧ cs = before ++ c :: after := by
  induction cs generalizing before with
  | nil => simp [splitFirst] at h
  | cons c cs ih =>
      unfold splitFirst at h
      split at h
      next here =>
        obtain ⟨rfl, rfl⟩ := Prod.mk.inj (Option.some.inj h)
        exact ⟨c, here, rfl⟩
      next =>
        obtain ⟨⟨front, back⟩, split, same⟩ := Option.map_eq_some_iff.1 h
        obtain ⟨rfl, rfl⟩ := Prod.mk.inj same
        obtain ⟨mark, here, whole⟩ := ih split
        exact ⟨mark, here, by rw [whole, List.cons_append]⟩

theorem allDigits_append {ds : List Char} : allDigits (cs ++ ds) = (allDigits cs && allDigits ds) := by
  simp [allDigits]

end Text
