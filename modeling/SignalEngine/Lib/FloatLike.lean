import SignalEngine.Lib.Binary64
import Mathlib.Algebra.Order.Field.Rat

/-! # Floats

What a program does with its floats, over any type that has these operations: exact
rationals, rationals with infinities and NaN, or doubles, whose operations are rounded.
A zero has no sign.
-/

class FloatLike (F : Type) extends Zero F, Neg F, Add F, Sub F, Mul F, Div F, LE F, LT F, Min F, Max F where
  /-- A literal of the program. -/
  ofRat : ℚ → F
  abs : F → F
  isNan : F → Bool
  isFinite : F → Bool
  decEq : DecidableEq F
  decLE : DecidableLE F
  decLT : DecidableLT F

attribute [reducible, instance (low)] FloatLike.decEq FloatLike.decLE FloatLike.decLT

-- a type keeps the operations it has
attribute [instance (low)] FloatLike.toZero FloatLike.toNeg FloatLike.toAdd FloatLike.toSub FloatLike.toMul
  FloatLike.toDiv FloatLike.toLE FloatLike.toLT FloatLike.toMin FloatLike.toMax

@[reducible] instance : FloatLike ℚ where
  ofRat q := q
  abs q := |q|
  isNan _ := false
  isFinite _ := true
  decEq := inferInstance
  decLE := inferInstance
  decLT := inferInstance

namespace FloatLike

@[simp] theorem ofRat_rat (q : ℚ) : (ofRat q : ℚ) = q := rfl

@[simp] theorem abs_rat (q : ℚ) : abs q = |q| := rfl

@[simp] theorem isNan_rat (q : ℚ) : isNan q = false := rfl

@[simp] theorem isFinite_rat (q : ℚ) : isFinite q = true := rfl

end FloatLike

inductive FloatArg where
  | finite (q : ℚ)
  | infinite (negative : Bool)
  | nan
  deriving DecidableEq

namespace FloatArg

def add : FloatArg → FloatArg → FloatArg
  | finite a, finite b => finite (a + b)
  | infinite m, infinite n => if m = n then infinite m else nan
  | infinite m, finite _ | finite _, infinite m => infinite m
  | _, _ => nan

def neg : FloatArg → FloatArg
  | finite a => finite (-a)
  | infinite m => infinite !m
  | nan => nan

def mul : FloatArg → FloatArg → FloatArg
  | finite a, finite b => finite (a * b)
  | infinite m, infinite n => infinite (m != n)
  | infinite m, finite a | finite a, infinite m => if a = 0 then nan else infinite (m != decide (a < 0))
  | _, _ => nan

def div : FloatArg → FloatArg → FloatArg
  | finite a, finite b => if b ≠ 0 then finite (a / b) else if a = 0 then nan else infinite (decide (a < 0))
  | finite _, infinite _ => finite 0
  | infinite m, finite b => infinite (m != decide (b < 0))
  | _, _ => nan

/-- No comparison with a NaN holds. -/
def le : FloatArg → FloatArg → Bool
  | finite a, finite b => a ≤ b
  | infinite m, infinite n => m || !n
  | infinite m, finite _ => m
  | finite _, infinite n => !n
  | _, _ => false

def lt : FloatArg → FloatArg → Bool
  | finite a, finite b => a < b
  | infinite m, infinite n => m && !n
  | infinite m, finite _ => m
  | finite _, infinite n => !n
  | _, _ => false

/-- Of a NaN and a number the number. -/
def pick (first : FloatArg → FloatArg → Bool) : FloatArg → FloatArg → FloatArg
  | nan, y => y
  | x, nan => x
  | x, y => if first x y then x else y

def abs : FloatArg → FloatArg
  | finite a => finite |a|
  | infinite _ => infinite false
  | nan => nan

def isNan : FloatArg → Bool
  | nan => true
  | _ => false

def isFinite : FloatArg → Bool
  | finite _ => true
  | _ => false

@[reducible] instance : FloatLike FloatArg where
  zero := finite 0
  neg := neg
  add := add
  sub x y := add x (neg y)
  mul := mul
  div := div
  le x y := le x y = true
  lt x y := lt x y = true
  min := pick le
  max := pick fun x y => le y x
  ofRat := finite
  abs := abs
  isNan := isNan
  isFinite := isFinite
  decEq := inferInstance
  decLE x y := inferInstanceAs (Decidable (le x y = true))
  decLT x y := inferInstanceAs (Decidable (lt x y = true))

def sum (xs : List FloatArg) : FloatArg := xs.foldl add (finite 0)

/-- The value, where it is finite and accepted. -/
def require (x : FloatArg) (accepted : ℚ → Bool) (message : String) : Except String ℚ :=
  match x with
  | finite q => if accepted q then .ok q else .error message
  | _ => .error message

@[simp] theorem finite_add_finite (a b : ℚ) : add (finite a) (finite b) = finite (a + b) := rfl

@[simp] theorem finite_sub_finite (a b : ℚ) : finite a - finite b = finite (a - b) := by
  rw [sub_eq_add_neg]
  rfl

@[simp] theorem finite_le_finite (a b : ℚ) : finite a ≤ finite b ↔ a ≤ b := decide_eq_true_iff

@[simp] theorem finite_lt_finite (a b : ℚ) : finite a < finite b ↔ a < b := decide_eq_true_iff

theorem sum_append_singleton (xs : List FloatArg) (x : FloatArg) : sum (xs ++ [x]) = add (sum xs) x := by
  simp [sum]

/-- What is finite after an addition was finite before it. -/
theorem finite_of_add {x : FloatArg} {a c : ℚ} (total : add (finite a) x = finite c) : x = finite (c - a) := by
  cases x with
  | finite b =>
      rw [finite_add_finite, finite.injEq] at total
      rw [← total, add_sub_cancel_left]
  | infinite negative => cases total
  | nan => cases total

theorem sum_finite (qs : List ℚ) : sum (qs.map finite) = finite qs.sum := by
  have shifted : ∀ a, (qs.map finite).foldl add (finite a) = finite (a + qs.sum) := by
    induction qs with
    | nil => simp
    | cons q qs ih =>
        intro a
        rw [List.map_cons, List.foldl_cons, finite_add_finite, ih, List.sum_cons, add_assoc]
  rw [sum, shifted, zero_add]

theorem require_ok_iff {x : FloatArg} {accepted : ℚ → Bool} {message : String} {q : ℚ} :
    x.require accepted message = .ok q ↔ x = finite q ∧ accepted q = true := by
  cases x with
  | finite a =>
      simp only [require, finite.injEq]
      split
      next yes =>
        rw [Except.ok.injEq]
        exact ⟨fun same => ⟨same, same ▸ yes⟩, fun h => h.1⟩
      next no =>
        constructor
        · intro refused
          cases refused
        · rintro ⟨rfl, yes⟩
          exact absurd yes no
  | infinite negative => simp [require]
  | nan => simp [require]

end FloatArg

/-! ## Doubles -/

/-- A float whose finite values have 53 significant bits. -/
def Double : Type := FloatArg

namespace Double

def finite (q : ℚ) : Double := FloatArg.finite q

def infinite (negative : Bool) : Double := FloatArg.infinite negative

/-- The place of the last bit, for a subnormal number the least of all. -/
def unit (q : ℚ) : ℚ := max (Binary64.ulp |q|) (2 ^ (-1074 : Int))

/-- The nearest double; beyond the largest one it is infinite. -/
def nearest (q : ℚ) : Double :=
  let rounded := Binary64.nearestEven (q / unit q) * unit q
  if |rounded| < 2 ^ 1024 then finite rounded else infinite (decide (q < 0))

def rounded : FloatArg → Double
  | .finite q => nearest q
  | x => x

/-- The value of a double: nothing is lost when it is stored. -/
def Exact (q : ℚ) : Prop := nearest q = finite q

@[reducible] instance : FloatLike Double where
  zero := finite 0
  neg := FloatArg.neg
  add x y := rounded (FloatArg.add x y)
  sub x y := rounded (FloatArg.add x (FloatArg.neg y))
  mul x y := rounded (FloatArg.mul x y)
  div x y := rounded (FloatArg.div x y)
  le x y := FloatArg.le x y = true
  lt x y := FloatArg.lt x y = true
  min := FloatArg.pick FloatArg.le
  max := FloatArg.pick fun x y => FloatArg.le y x
  ofRat := nearest
  abs := FloatArg.abs
  isNan := FloatArg.isNan
  isFinite := FloatArg.isFinite
  decEq := inferInstanceAs (DecidableEq FloatArg)
  decLE x y := inferInstanceAs (Decidable (FloatArg.le x y = true))
  decLT x y := inferInstanceAs (Decidable (FloatArg.lt x y = true))

theorem finite_add_finite {a b : ℚ} (exact : Exact (a + b)) : finite a + finite b = finite (a + b) := exact

end Double
