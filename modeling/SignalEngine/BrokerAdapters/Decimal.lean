import SignalEngine.Lib.MachineInt
import SignalEngine.Lib.Text

/-! # The exact decimal type

`units / 10^scale` with at most 18 fractional digits and 128-bit units. The
operations that compute with unchecked machine arithmetic come twice: the
`Calc` form keeps the record of whether something wrapped, the plain form is
its value, which is what a release build returns.
-/

open MachineInt

namespace BrokerAdapters

inductive DecError where
  | invalid (text : String)
  | tooPrecise (text : String)
  | overflow
  | scaleTooLarge (scale : Nat)
  | badStep
  deriving Repr, DecidableEq

/-- Rounding direction; ties of `halfUp` go up. -/
inductive Rounding where
  | floor
  | ceil
  | halfUp
  deriving Repr, DecidableEq

/-- Maximum number of fractional digits a `Dec` carries. -/
def maxScale : Nat := 18

structure Dec where
  units : SInt 128
  scale : Nat
  scale_le : scale ≤ maxScale
  deriving DecidableEq

theorem pow10_fits {n : Nat} (small : n ≤ 38) : Fits 128 (10 ^ n) := by
  have bound : (10 : Int) ^ n ≤ 10 ^ 38 := pow_le_pow_right₀ (by decide) small
  have top : Fits 128 (10 ^ 38) := by decide
  exact top.of_le (by positivity) bound

/-- `10^n`; the bound on `n` is the promise of the callers. -/
def pow10 (n : Nat) (small : n ≤ 38) : SInt.Positive 128 := ⟨⟨10 ^ n, pow10_fits small⟩, by positivity⟩

@[simp] theorem pow10_val (n : Nat) (small : n ≤ 38) : (pow10 n small).val = 10 ^ n := rfl

namespace Dec

/-! The proofs that the decimals written down in the code share. -/

theorem scale_zero : 0 ≤ maxScale := by decide
theorem scale_one : 1 ≤ maxScale := by decide
theorem scale_two : 2 ≤ maxScale := by decide
theorem scale_three : 3 ≤ maxScale := by decide
theorem scale_four : 4 ≤ maxScale := by decide
theorem scale_five : 5 ≤ maxScale := by decide
theorem scale_eight : 8 ≤ maxScale := by decide
theorem scale_eighteen : 18 ≤ maxScale := by decide

theorem fits_one : Fits 128 1 := by decide
theorem fits_two : Fits 128 2 := by decide
theorem fits_three : Fits 128 3 := by decide
theorem fits_four : Fits 128 4 := by decide
theorem fits_five : Fits 128 5 := by decide
theorem fits_twentyFive : Fits 128 25 := by decide
theorem fits_neg_five : Fits 128 (-5) := by decide

def zero : Dec := ⟨⟨0, by decide⟩, 0, scale_zero⟩

def new (units : SInt 128) (scale : Nat) : Except DecError Dec :=
  if h : scale ≤ maxScale then .ok ⟨units, scale, h⟩ else .error (.scaleTooLarge scale)

def isZero (d : Dec) : Bool := d.units.val == 0

def isNegative (d : Dec) : Bool := d.units.val < 0

def isPositive (d : Dec) : Bool := 0 < d.units.val

/-- A power of ten no larger than the one that lifts a scale to the cap. -/
def lift (d : Dec) (s : Nat) (le : s ≤ maxScale) : SInt.Positive 128 :=
  pow10 (s - d.scale) (by unfold maxScale at le; omega)

@[simp] theorem lift_val (d : Dec) (s : Nat) (le : s ≤ maxScale) :
    (d.lift s le).val = 10 ^ (s - d.scale) := rfl

/-- Drop one trailing zero at a time while the scale is positive. -/
def stripZeros (units : SInt 128) : Nat → SInt 128 × Nat
  | 0 => (units, 0)
  | scale + 1 =>
      if units.val.tmod 10 = 0 then stripZeros (units.divEuclid (pow10 1 (by decide))) scale
      else (units, scale + 1)

/-- `normalized` on units and scale that need not respect the cap. -/
def normalized (units : SInt 128) (scale : Nat) : SInt 128 × Nat :=
  let stripped := stripZeros units scale
  if stripped.1.val = 0 then (stripped.1, 0) else stripped

theorem stripZeros_le (units : SInt 128) (scale : Nat) : (stripZeros units scale).2 ≤ scale := by
  induction scale generalizing units with
  | zero => exact le_rfl
  | succ scale ih =>
      unfold stripZeros
      split
      · exact (ih _).trans (Nat.le_succ scale)
      · exact le_rfl

/-- Strip trailing fractional zeros; the value is unchanged. -/
def normal (d : Dec) : Dec :=
  let n := normalized d.units d.scale
  ⟨n.1, n.2, by
    have le := (stripZeros_le d.units d.scale).trans d.scale_le
    simp only [n, normalized]
    split
    · exact Nat.zero_le _
    · exact le⟩

/-- The shape `parse` reads: sign, digits around the point, exponent. -/
structure Literal where
  neg : Bool
  int : List Char
  frac : List Char
  exp : Int
  deriving Repr, DecidableEq

def isExponentMark (c : Char) : Bool := c == 'e' || c == 'E'

/-- Mantissa and exponent; the exponent must be a 32-bit number. -/
def splitExponent (t : List Char) : Option (List Char × Int) :=
  match Text.splitFirst isExponentMark t with
  | some (mant, exponent) => do
      let e ← Text.readSigned exponent
      if Fits 32 e then some (mant, e) else none
  | none => some (t, 0)

def splitSign : List Char → Bool × List Char
  | '-' :: rest => (true, rest)
  | '+' :: rest => (false, rest)
  | mant => (false, mant)

def splitPoint (mant : List Char) : List Char × List Char :=
  (Text.splitFirst (· == '.') mant).getD (mant, [])

/-- The syntactic half of `parse`, up to the test that both parts are digits. -/
def readLiteral (text : List Char) : Option Literal :=
  let t := Text.trim text
  if t = [] then none
  else do
    let (mant, exp) ← splitExponent t
    let (neg, mant) := splitSign mant
    let (int, frac) := splitPoint mant
    if int = [] ∧ frac = [] then none
    else if Text.allDigits int && Text.allDigits frac then some ⟨neg, int, frac, exp⟩
    else none

/-- Accumulate the digits with checked multiplications and additions. -/
def readDigits (units : SInt 128) : List Char → Option (SInt 128)
  | [] => some units
  | c :: cs => do
      let shifted ← units.checkedMul (pow10 1 (by decide)).toSInt
      let next ← SInt.checked (shifted.val + (c.toNat - '0'.toNat : Nat))
      readDigits next cs

/-- The literal is worth its digits times `10^-netScale`. The length of the
    fractional part passes through 32 bits. -/
def Literal.netScale (l : Literal) : Int := (l.frac.length % 2 ^ 32 : Nat) - l.exp

/-- Units and scale of a literal, before the sign and the cap. -/
def Literal.scaled (l : Literal) (units : SInt 128) : Except DecError (SInt 128 × Nat) :=
  if l.netScale < 0 then
    let up := (-l.netScale).toNat
    if up ≥ 2 ^ 32 then .error .overflow
    else if large : up > 38 then .error .overflow
    else
      match units.checkedMul (pow10 up (by omega)).toSInt with
      | some units => .ok (units, 0)
      | none => .error .overflow
  else if l.netScale ≥ 2 ^ 32 then .error .overflow
  else .ok (units, l.netScale.toNat)

def negate (neg : Bool) (units : SInt 128) : Arith (SInt 128) :=
  if neg then .unchecked (-units.val) else pure units

/-- The last part of `parse`: the sign, then the cap on the scale. -/
def signed (s : String) (neg : Bool) (units : SInt 128) (scale : Nat) : Calc DecError Dec := do
  let units ← Calc.ofArith (negate neg units)
  if within : scale ≤ maxScale then
    return ⟨units, scale, within⟩
  else
    -- Trailing zeros beyond the cap are allowed, real precision is not.
    let n := normalized units scale
    if within : n.2 ≤ maxScale then return ⟨n.1, n.2, within⟩
    else throw (.tooPrecise s)

def parseCalc (s : String) : Calc DecError Dec :=
  match readLiteral s.toList with
  | none => throw (.invalid s)
  | some l => do
      let units ← Calc.checked .overflow (readDigits ⟨0, by decide⟩ (l.int ++ l.frac))
      let (units, scale) ← Calc.ofExcept (l.scaled units)
      signed s l.neg units scale

/-- Parse `"123"`, `"-0.5"`, `"1.25000000"` and scientific forms like `"1e-7"`. -/
def parse (s : String) : Except DecError Dec := (parseCalc s).result

theorem pow10_scale_small (d : Dec) : d.scale ≤ 38 := le_trans d.scale_le (by decide)

def intFrac (d : Dec) : SInt 128 × SInt 128 :=
  let p := pow10 d.scale d.pow10_scale_small
  (d.units.divEuclid p, d.units.remEuclid p)

/-- Integer and fractional parts are compared separately; the fractional parts
    are brought to one scale with unchecked multiplications. -/
def cmpCalc (a b : Dec) : Arith Ordering :=
  let (ai, af) := a.intFrac
  let (bi, bf) := b.intFrac
  match compare ai.val bi.val with
  | .eq => do
      let s := max a.scale b.scale
      let within : s ≤ maxScale := max_le a.scale_le b.scale_le
      let af ← (Arith.unchecked (af.val * (a.lift s within).val) : Arith (SInt 128))
      let bf ← (Arith.unchecked (bf.val * (b.lift s within).val) : Arith (SInt 128))
      pure (compare af.val bf.val)
  | decided => pure decided

def cmp (a b : Dec) : Ordering := (cmpCalc a b).val

instance : LT Dec := ⟨fun a b => a.cmp b = .lt⟩
instance : LE Dec := ⟨fun a b => a.cmp b ≠ .gt⟩
instance (a b : Dec) : Decidable (a < b) := inferInstanceAs (Decidable (a.cmp b = .lt))
instance (a b : Dec) : Decidable (a ≤ b) := inferInstanceAs (Decidable (a.cmp b ≠ .gt))

/-- `PartialEq::eq`: equality of values, whatever the scales. -/
def eq (a b : Dec) : Bool := a.cmp b == .eq

/-- `Ord::min`: the first argument when the two are equal. -/
instance : Min Dec := ⟨fun a b => if a ≤ b then a else b⟩

/-- `Ord::max`: the second argument when the two are equal. -/
instance : Max Dec := ⟨fun a b => if a ≤ b then b else a⟩

/-- The quotient `q` with remainder `r` of a division by `div`, adjusted to the
    rounding direction. -/
def adjust (mode : Rounding) (q r : SInt 128) (div : SInt.Positive 128) : Arith (SInt 128) :=
  match mode with
  | .floor => pure q
  | .ceil => Arith.unchecked (q.val + if r.val ≠ 0 then 1 else 0)
  | .halfUp => do
      let twice ← (Arith.unchecked (r.val * 2) : Arith (SInt 128))
      Arith.unchecked (q.val + if twice.val ≥ div.val then 1 else 0)

def roundDpCalc (d : Dec) (dp : Nat) (mode : Rounding) : Calc DecError Dec :=
  if within : dp ≤ maxScale then
    if d.scale ≤ dp then do
      let units ← Calc.ofArith (.unchecked (d.units.val * (d.lift dp within).val))
      return ⟨units, dp, within⟩
    else do
      let small : d.scale - dp ≤ 38 := le_trans (Nat.sub_le ..) d.pow10_scale_small
      let div := pow10 (d.scale - dp) small
      let units ← Calc.ofArith (adjust mode (d.units.divEuclid div) (d.units.remEuclid div) div)
      return ⟨units, dp, within⟩
  else throw (.scaleTooLarge dp)

/-- Round to `dp` fractional digits in the given direction. -/
def roundDp (d : Dec) (dp : Nat) (mode : Rounding) : Except DecError Dec :=
  (roundDpCalc d dp mode).result

def roundToMultipleCalc (d step : Dec) (mode : Rounding) : Calc DecError Dec :=
  match step.units.toPositive? with
  | none => throw .badStep
  | some stepUnits => do
      let s := max d.scale step.scale
      let within : s ≤ maxScale := max_le d.scale_le step.scale_le
      let a ← Calc.checked .overflow (d.units.checkedMul (d.lift s within).toSInt)
      let b ← Calc.checked .overflow (stepUnits.checkedMul (step.lift s within))
      let n ← Calc.ofArith (adjust mode (a.divEuclid b) (a.remEuclid b) b)
      let units ← Calc.checked .overflow (n.checkedMul b.toSInt)
      return ⟨units, s, within⟩

/-- Round to a multiple of `step` in the given direction. -/
def roundToMultiple (d step : Dec) (mode : Rounding) : Except DecError Dec :=
  (roundToMultipleCalc d step mode).result

/-- The product, floored to the cap when its natural scale exceeds it. -/
def checkedMul (a b : Dec) : Option Dec := do
  let units ← a.units.checkedMul b.units
  let scale := a.scale + b.scale
  if within : scale ≤ maxScale then some ⟨units, scale, within⟩
  else
    let drop := scale - maxScale
    if large : drop > 38 then none
    else
      some ⟨units.divEuclid (pow10 drop (by omega)), maxScale, le_rfl⟩

def checkedAdd (x y : Dec) : Option Dec := do
  let s := max x.scale y.scale
  let within : s ≤ maxScale := max_le x.scale_le y.scale_le
  let a ← x.units.checkedMul (x.lift s within).toSInt
  let b ← y.units.checkedMul (y.lift s within).toSInt
  let units ← a.checkedAdd b
  some ⟨units, s, within⟩

/-- The fractional part, zero-padded on the left to the value's own scale. -/
def fracChars (d : Dec) : List Char :=
  let frac := Nat.toDigits 10 (d.units.val.natAbs % 10 ^ d.scale)
  List.replicate (d.scale - frac.length) '0' ++ frac

/-- Plain decimal notation keeping the value's own scale. -/
def displayChars (d : Dec) : List Char :=
  let sign := if d.units.val < 0 then ['-'] else []
  let int := Nat.toDigits 10 (d.units.val.natAbs / 10 ^ d.scale)
  if d.scale = 0 then sign ++ int else sign ++ int ++ '.' :: d.fracChars

def display (d : Dec) : String := String.ofList d.displayChars

/-- Render with exactly `dp` fractional digits, or refuse to lose digits. -/
def toFixedCalc (d : Dec) (dp : Nat) : Calc DecError String := do
  let r ← roundDpCalc d dp .floor
  let order ← Calc.ofArith (cmpCalc r d)
  if order ≠ .eq then throw (.tooPrecise d.display)
  return r.display

def toFixed (d : Dec) (dp : Nat) : Except DecError String := (toFixedCalc d dp).result

end Dec

end BrokerAdapters
