import Mathlib.Data.Int.Order.Basic
import Mathlib.Tactic.Linarith
import Mathlib.Tactic.Positivity

/-! # Fixed-width signed integers

A `w`-bit two's complement integer is an integer with its range. A checked
operation answers `none` when the exact result leaves the range; an unchecked
one keeps the low `w` bits. `Arith` gives a computation the second meaning and
remembers whether some unchecked operation on the way left the range, so "the
result is exact" and "nothing wrapped" can be told apart.
-/

namespace MachineInt

/-- `-2^(w-1) ≤ x < 2^(w-1)`, without a subtraction on the width. -/
def Fits (w : Nat) (x : Int) : Prop := -(2 ^ w : Int) ≤ 2 * x ∧ 2 * x < 2 ^ w

instance (w : Nat) (x : Int) : Decidable (Fits w x) := inferInstanceAs (Decidable (_ ∧ _))

/-- The low `w` bits of `x`, read as a signed value. -/
def wrap (w : Nat) (x : Int) : Int := x.bmod (2 ^ w)

theorem wrap_of_fits {w x} (h : Fits w x) : wrap w x = x := by
  unfold wrap
  obtain ⟨lower, upper⟩ := h
  apply Int.bmod_eq_of_le_mul_two
  · push_cast
    omega
  · push_cast
    omega

theorem wrap_fits (w : Nat) (x : Int) : Fits w (wrap w x) := by
  have positive : 0 < 2 ^ w := Nat.two_pow_pos w
  have lower := Int.le_bmod (x := x) positive
  have upper := Int.bmod_lt (x := x) positive
  have cast : ((2 ^ w : Nat) : Int) = 2 ^ w := by push_cast; rfl
  unfold Fits wrap
  rw [← cast]
  omega

/-- Wrapping only ever takes away from a non-negative number. -/
theorem wrap_le {w x} (nonneg : 0 ≤ x) : wrap w x ≤ x := by
  by_cases fits : Fits w x
  · exact (wrap_of_fits fits).le
  · obtain ⟨-, upper⟩ := wrap_fits w x
    have beyond : (2 ^ w : Int) ≤ 2 * x := by
      have positive : (0 : Int) < 2 ^ w := by positivity
      unfold Fits at fits
      omega
    omega

/-- Whatever lies between zero and a value in range is in range. -/
theorem Fits.between {w x y} (h : Fits w x) (lower : min x 0 ≤ y) (upper : y ≤ max x 0) :
    Fits w y := by
  obtain ⟨low, high⟩ := h
  have positive : (0 : Int) < 2 ^ w := by positivity
  exact ⟨by omega, by omega⟩

theorem Fits.of_le {w x y} (h : Fits w x) (nonneg : 0 ≤ y) (le : y ≤ x) : Fits w y := by
  obtain ⟨lower, upper⟩ := h
  exact ⟨by omega, by omega⟩

/-- A `w`-bit signed integer: an out-of-range value cannot be built. -/
structure SInt (w : Nat) where
  val : Int
  fits : Fits w val
  deriving DecidableEq

namespace SInt

variable {w : Nat}

@[ext] theorem ext_val {a b : SInt w} (h : a.val = b.val) : a = b := by
  cases a
  cases b
  simp_all

/-- The value an unchecked operation leaves behind. -/
def wrapping (x : Int) : SInt w := ⟨wrap w x, wrap_fits w x⟩

/-- The answer of a checked operation with exact result `x`. -/
def checked (x : Int) : Option (SInt w) := if h : Fits w x then some ⟨x, h⟩ else none

@[simp] theorem wrapping_val (x : Int) : (wrapping x : SInt w).val = wrap w x := rfl

theorem wrapping_val_of_fits {x : Int} (h : Fits w x) : (wrapping x : SInt w).val = x :=
  wrap_of_fits h

theorem checked_eq_some {x : Int} {a : SInt w} : checked x = some a ↔ a.val = x := by
  unfold checked
  constructor
  · intro h
    split at h
    · rw [← Option.some.inj h]
    · cases h
  · rintro rfl
    simp [a.fits]

theorem checked_eq_none {x : Int} : (checked x : Option (SInt w)) = none ↔ ¬ Fits w x := by
  simp [checked]

def checkedMul (a b : SInt w) : Option (SInt w) := checked (a.val * b.val)

def checkedAdd (a b : SInt w) : Option (SInt w) := checked (a.val + b.val)

def checkedNeg (a : SInt w) : Option (SInt w) := checked (-a.val)

theorem ediv_fits {x b : Int} (h : Fits w x) (positive : 0 < b) : Fits w (x / b) := by
  apply h.between
  · rcases le_total 0 x with nonneg | nonpos
    · rw [min_eq_right nonneg]
      exact Int.ediv_nonneg nonneg positive.le
    · rw [min_eq_left nonpos]
      exact (Int.le_ediv_iff_mul_le positive).2 (by nlinarith)
  · rcases le_total 0 x with nonneg | nonpos
    · rw [max_eq_left nonneg]
      exact Int.ediv_le_self b nonneg
    · rw [max_eq_right nonpos]
      exact Int.ediv_nonpos_of_nonpos_of_neg nonpos positive

theorem emod_fits {x b : Int} (h : Fits w b) (positive : 0 < b) : Fits w (x % b) :=
  h.of_le (Int.emod_nonneg x positive.ne') (Int.emod_lt_of_pos x positive).le

/-- A `w`-bit integer that can be a divisor or a rounding step. -/
structure Positive (w : Nat) extends SInt w where
  pos : 0 < val

/-- Euclidean division, which cannot leave the range when the divisor is positive. -/
def divEuclid (a : SInt w) (b : Positive w) : SInt w := ⟨a.val / b.val, ediv_fits a.fits b.pos⟩

def remEuclid (a : SInt w) (b : Positive w) : SInt w := ⟨a.val % b.val, emod_fits b.fits b.pos⟩

def toPositive? (a : SInt w) : Option (Positive w) :=
  if pos : 0 < a.val then some ⟨a, pos⟩ else none

theorem toPositive?_eq_some {a : SInt w} {p : Positive w} :
    a.toPositive? = some p ↔ p.toSInt = a := by
  unfold toPositive?
  constructor
  · intro h
    split at h
    · rw [← Option.some.inj h]
    · cases h
  · rintro rfl
    simp [p.pos]

theorem toPositive?_eq_none {a : SInt w} : a.toPositive? = none ↔ a.val ≤ 0 := by
  simp [toPositive?]

def Positive.checkedMul (a b : Positive w) : Option (Positive w) :=
  if h : Fits w (a.val * b.val) then some ⟨⟨_, h⟩, mul_pos a.pos b.pos⟩ else none

theorem Positive.checkedMul_eq_some {a b c : Positive w} :
    a.checkedMul b = some c ↔ c.val = a.val * b.val := by
  unfold checkedMul
  constructor
  · intro h
    split at h
    · rw [← Option.some.inj h]
    · cases h
  · intro h
    have fits : Fits w (a.val * b.val) := h ▸ c.fits
    rw [dif_pos fits]
    congr 1
    cases c
    simp only [mk.injEq]
    exact ext_val h.symm

theorem Positive.checkedMul_eq_none {a b : Positive w} :
    a.checkedMul b = none ↔ ¬ Fits w (a.val * b.val) := by
  simp [checkedMul]

end SInt

/-- A computation on machine integers, with the record of whether an unchecked
    operation left the range. -/
structure Arith (α : Type) where
  val : α
  wrapped : Bool
  deriving DecidableEq

namespace Arith

variable {α β : Type}

instance : Monad Arith where
  pure a := ⟨a, false⟩
  bind x f := ⟨(f x.val).val, x.wrapped || (f x.val).wrapped⟩

@[ext] theorem ext_fields {x y : Arith α} (val : x.val = y.val) (wrapped : x.wrapped = y.wrapped) :
    x = y := by
  cases x
  cases y
  simp_all

@[simp] theorem pure_val (a : α) : (pure a : Arith α).val = a := rfl
@[simp] theorem pure_wrapped (a : α) : (pure a : Arith α).wrapped = false := rfl
@[simp] theorem bind_val (x : Arith α) (f : α → Arith β) : (x >>= f).val = (f x.val).val := rfl
@[simp] theorem bind_wrapped (x : Arith α) (f : α → Arith β) :
    (x >>= f).wrapped = (x.wrapped || (f x.val).wrapped) := rfl

@[simp] theorem map_val (f : α → β) (x : Arith α) : (f <$> x).val = f x.val := rfl
@[simp] theorem map_wrapped (f : α → β) (x : Arith α) : (f <$> x).wrapped = x.wrapped :=
  Bool.or_false _

instance : LawfulMonad Arith :=
  LawfulMonad.mk' Arith
    (by intro α x; ext <;> simp)
    (by intro α β a f; ext <;> simp)
    (by intro α β γ x f g; ext <;> simp [Bool.or_assoc])

/-- An unchecked operation whose exact result is `x`. -/
def unchecked {w : Nat} (x : Int) : Arith (SInt w) := ⟨.wrapping x, !decide (Fits w x)⟩

@[simp] theorem unchecked_val_val {w : Nat} (x : Int) :
    (unchecked x : Arith (SInt w)).val.val = wrap w x := rfl

theorem unchecked_wrapped_iff {w : Nat} {x : Int} :
    (unchecked x : Arith (SInt w)).wrapped = true ↔ ¬ Fits w x := by
  simp [unchecked]

theorem unchecked_of_fits {w : Nat} {x : Int} (h : Fits w x) :
    (unchecked x : Arith (SInt w)) = pure ⟨x, h⟩ := by
  simp only [unchecked, h, decide_true, Bool.not_true]
  exact congrArg (Arith.mk · false) (SInt.ext_val (SInt.wrapping_val_of_fits h))

end Arith

/-- A computation on machine integers that may also give up. -/
abbrev Calc (ε α : Type) := ExceptT ε Arith α

namespace Calc

variable {ε α β : Type}

/-- What the computation returns. -/
def result (x : Calc ε α) : Except ε α := x.run.val

/-- Whether an unchecked operation on the way left the range. -/
def wrapped (x : Calc ε α) : Bool := x.run.wrapped

/-- A checked operation, with the error that stands for its refusal. -/
def checked (e : ε) (x : Option α) : Calc ε α := ExceptT.mk (pure (x.elim (.error e) .ok))

def ofExcept (x : Except ε α) : Calc ε α := ExceptT.mk (pure x)

def ofArith (x : Arith α) : Calc ε α := ExceptT.mk (Except.ok <$> x)

@[simp] theorem result_pure (a : α) : (pure a : Calc ε α).result = .ok a := rfl
@[simp] theorem wrapped_pure (a : α) : (pure a : Calc ε α).wrapped = false := rfl
@[simp] theorem result_throw (e : ε) : (throw e : Calc ε α).result = .error e := rfl
@[simp] theorem wrapped_throw (e : ε) : (throw e : Calc ε α).wrapped = false := rfl
@[simp] theorem checked_some (e : ε) (a : α) : checked e (some a) = pure a := rfl
@[simp] theorem checked_none (e : ε) : checked e (none : Option α) = throw e := rfl
@[simp] theorem ofExcept_ok (a : α) : (ofExcept (.ok a) : Calc ε α) = pure a := rfl
@[simp] theorem ofExcept_error (e : ε) : (ofExcept (.error e) : Calc ε α) = throw e := rfl
@[simp] theorem ofArith_pure (a : α) : (ofArith (pure a) : Calc ε α) = pure a := rfl
@[simp] theorem throw_bind (e : ε) (f : α → Calc ε β) : (throw e >>= f) = throw e := rfl
@[simp] theorem result_ofArith (x : Arith α) : (ofArith x : Calc ε α).result = .ok x.val := rfl

@[simp] theorem wrapped_ofArith (x : Arith α) : (ofArith x : Calc ε α).wrapped = x.wrapped := by
  change (x.wrapped || false) = x.wrapped
  exact Bool.or_false _

@[simp] theorem result_bind (x : Calc ε α) (f : α → Calc ε β) :
    (x >>= f).result = x.result >>= fun a => (f a).result := by
  change (Arith.val (x.run >>= ExceptT.bindCont f)) = _
  cases answer : x.run.val with
  | error e => simp [result, answer, ExceptT.bindCont, Bind.bind, Except.bind]
  | ok a =>
      simp only [result, answer, Arith.bind_val, ExceptT.bindCont]
      rfl

theorem wrapped_bind_ok {x : Calc ε α} {a : α} (f : α → Calc ε β) (answer : x.result = .ok a) :
    (x >>= f).wrapped = (x.wrapped || (f a).wrapped) := by
  change (x.run.wrapped || (ExceptT.bindCont f x.run.val).wrapped) = _
  unfold result at answer
  rw [answer]
  rfl

theorem wrapped_bind_error {x : Calc ε α} {e : ε} (f : α → Calc ε β)
    (answer : x.result = .error e) : (x >>= f).wrapped = x.wrapped := by
  change (x.run.wrapped || (ExceptT.bindCont f x.run.val).wrapped) = _
  unfold result at answer
  rw [answer]
  exact Bool.or_false _

end Calc

end MachineInt
