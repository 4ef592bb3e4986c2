import Mathlib.Algebra.Group.Nat.Defs
import Mathlib.Data.List.Basic

/-! # Numbers in hexadecimal

A fixed number of digits, in lower case, and groups of them with hyphens between. Both
lose nothing.
-/

namespace Hex

/-- The last `width` digits. -/
def hexDigits : (width n : Nat) → List Char
  | 0, _ => []
  | width + 1, n => hexDigits width (n / 16) ++ [Nat.digitChar (n % 16)]

/-- Groups of the given sizes, and the rest. -/
def hyphenated : List Nat → List Char → List Char
  | [], cs => cs
  | size :: sizes, cs => cs.take size ++ '-' :: hyphenated sizes (cs.drop size)

@[simp] theorem length_hexDigits (width n : Nat) : (hexDigits width n).length = width := by
  induction width generalizing n with
  | zero => rfl
  | succ width ih => rw [hexDigits, List.length_append, ih, List.length_singleton]

theorem digitChar_injective {a b : Nat} (left : a < 16) (right : b < 16) (same : Nat.digitChar a = Nat.digitChar b) : a = b := by
  have all : ∀ a b : Fin 16, Nat.digitChar a = Nat.digitChar b → a = b := by decide
  exact congrArg Fin.val (all ⟨a, left⟩ ⟨b, right⟩ same)

theorem hexDigits_injective {width n m : Nat} (left : n < 16 ^ width) (right : m < 16 ^ width)
    (same : hexDigits width n = hexDigits width m) : n = m := by
  induction width generalizing n m with
  | zero => omega
  | succ width ih =>
      rw [Nat.pow_succ] at left right
      obtain ⟨front, last⟩ := List.append_inj same (by simp)
      have high := ih (Nat.div_lt_of_lt_mul (by omega)) (Nat.div_lt_of_lt_mul (by omega)) front
      have low := digitChar_injective (Nat.mod_lt n (by decide)) (Nat.mod_lt m (by decide)) (List.singleton_inj.1 last)
      omega

theorem hyphenated_injective {sizes : List Nat} {cs ds : List Char} (length : cs.length = ds.length)
    (same : hyphenated sizes cs = hyphenated sizes ds) : cs = ds := by
  induction sizes generalizing cs ds with
  | nil => exact same
  | cons size sizes ih =>
      obtain ⟨front, rest⟩ := List.append_inj same (by rw [List.length_take, List.length_take, length])
      have back := ih (by rw [List.length_drop, List.length_drop, length]) (List.cons.inj rest).2
      rw [← List.take_append_drop size cs, ← List.take_append_drop size ds, front, back]

end Hex
