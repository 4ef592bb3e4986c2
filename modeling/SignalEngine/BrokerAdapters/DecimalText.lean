import SignalEngine.BrokerAdapters.DecimalValue
import Mathlib.Data.Rat.Defs
import Mathlib.Algebra.Order.Ring.Rat
import Mathlib.Tactic.FieldSimp
import Mathlib.Tactic.NormNum

/-! # Decimal literals

What the text of a decimal stands for, as a rational number, and what reading
and printing do with it. The reader carries the number of fractional digits
through 32 bits; `Literal.valueAt` keeps that count apart from the true one.
-/

open MachineInt

namespace BrokerAdapters

namespace Dec

def toRat (d : Dec) : ℚ := d.units.val / 10 ^ d.scale

theorem toRat_eq_atto (d : Dec) : d.toRat = d.atto / 10 ^ maxScale := by
  have cap : ((10 : ℚ) ^ d.scale * 10 ^ (maxScale - d.scale)) = 10 ^ maxScale := by
    exact_mod_cast d.ten_pow_cap
  rw [toRat, atto, ← cap]
  push_cast
  field_simp

namespace Literal

/-- The digits around the point, read as one natural number. -/
def mantissa (l : Literal) : Nat := Nat.ofDigitChars 10 (l.int ++ l.frac) 0

/-- The value of the literal if its point stood `digits` places from the right. -/
def valueAt (l : Literal) (digits : Nat) : ℚ :=
  (if l.neg then -l.mantissa else l.mantissa : ℚ) * 10 ^ (l.exp - digits)

def value (l : Literal) : ℚ := l.valueAt l.frac.length

/-- A literal with that many fractional digits is within the range of `Dec`. -/
def AcceptedAt (l : Literal) (digits : Nat) : Prop :=
  let netScale : Int := digits - l.exp
  Fits 128 l.mantissa ∧
    if netScale < 0 then netScale ≥ -38 ∧ Fits 128 (l.mantissa * 10 ^ (-netScale).toNat)
    else netScale < 2 ^ 32 ∧ 10 ^ (netScale.toNat - maxScale) ∣ l.mantissa

end Literal

theorem le_ofDigitChars (cs : List Char) (init : Nat) : init ≤ Nat.ofDigitChars 10 cs init := by
  rw [Nat.ofDigitChars_eq_ofDigitChars_zero]
  have scaled : init ≤ 10 ^ cs.length * init := Nat.le_mul_of_pos_left _ (by positivity)
  omega

/-- The checked accumulation gives up exactly when the number does not fit. -/
theorem readDigits_eq (cs : List Char) : ∀ units : SInt 128, 0 ≤ units.val →
    readDigits units cs = SInt.checked (Nat.ofDigitChars 10 cs units.val.toNat : Int) := by
  induction cs with
  | nil =>
      intro units nonneg
      rw [readDigits, Nat.ofDigitChars_nil, Int.toNat_of_nonneg nonneg]
      exact (SInt.checked_eq_some.2 rfl).symm
  | cons c cs ih =>
      intro units nonneg
      have value : ((10 * units.val.toNat + (c.toNat - '0'.toNat) : Nat) : Int) =
          units.val * 10 + (c.toNat - '0'.toNat : Nat) := by
        push_cast [Int.toNat_of_nonneg nonneg]
        ring
      have later : (10 * units.val.toNat + (c.toNat - '0'.toNat) : Nat) ≤
          Nat.ofDigitChars 10 (c :: cs) units.val.toNat := by
        rw [Nat.ofDigitChars_cons]
        exact le_ofDigitChars ..
      -- A prefix that does not fit is no larger than the whole number.
      by_cases whole : Fits 128 (Nat.ofDigitChars 10 (c :: cs) units.val.toNat : Int)
      · have nextFits : Fits 128 (units.val * 10 + (c.toNat - '0'.toNat : Nat)) :=
          whole.of_le (by omega) (by rw [← value]; exact_mod_cast later)
        have shiftFits : Fits 128 (units.val * 10) := nextFits.of_le (by omega) (by omega)
        have shift : units.checkedMul (pow10 1 (by decide)).toSInt = some ⟨units.val * 10, shiftFits⟩ :=
          SInt.checked_eq_some.2 (by simp)
        have next : (SInt.checked (units.val * 10 + (c.toNat - '0'.toNat : Nat)) : Option (SInt 128)) =
            some ⟨_, nextFits⟩ := SInt.checked_eq_some.2 rfl
        simp only [readDigits, shift, Option.bind_eq_bind, Option.bind_some, next]
        rw [ih _ (by simp only; omega), Nat.ofDigitChars_cons]
        simp only [← value, Int.toNat_natCast]
      · rw [SInt.checked_eq_none.2 whole, readDigits]
        simp only [Option.bind_eq_bind, Option.bind_eq_none_iff]
        intro shifted shift next step
        have shiftVal : shifted.val = units.val * 10 := by
          simpa [pow10] using SInt.checked_eq_some.1 shift
        have nextVal := SInt.checked_eq_some.1 step
        have advance : next.val.toNat = 10 * units.val.toNat + (c.toNat - '0'.toNat) := by omega
        rw [ih next (by omega), advance, ← Nat.ofDigitChars_cons]
        exact SInt.checked_eq_none.2 whole

/-- Stripping keeps the value and stops at the last significant digit. -/
theorem stripZeros_spec (scale : Nat) : ∀ units : SInt 128,
    let stripped := stripZeros units scale
    stripped.2 ≤ scale ∧ units.val = stripped.1.val * 10 ^ (scale - stripped.2) ∧
      (stripped.2 = 0 ∨ ¬ (10 : Int) ∣ stripped.1.val) := by
  induction scale with
  | zero =>
      intro units
      simp [stripZeros]
  | succ scale ih =>
      intro units
      by_cases divides : units.val.tmod 10 = 0
      · obtain ⟨le, value, last⟩ := ih (units.divEuclid (pow10 1 (by decide)))
        simp only [stripZeros, divides, if_true]
        refine ⟨by omega, ?_, last⟩
        have tenth : units.val / 10 * 10 = units.val :=
          Int.ediv_mul_cancel (Int.dvd_of_tmod_eq_zero divides)
        have quotient : (units.divEuclid (pow10 1 (by decide))).val = units.val / 10 := rfl
        rw [quotient] at value
        rw [← tenth, value, mul_assoc, ← pow_succ, Nat.succ_sub le]
      · have last : ¬ (10 : Int) ∣ units.val := fun dvd => divides (Int.tmod_eq_zero_of_dvd dvd)
        simp [stripZeros, divides, last]

/-- Within the cap, normalizing keeps the value; beyond it, the cap is out of
    reach for every representation of the value. -/
theorem normalized_spec (units : SInt 128) (scale : Nat) :
    let n := normalized units scale
    (n.2 ≤ maxScale → (n.1.val : ℚ) / 10 ^ n.2 = units.val / 10 ^ scale ∧
      (10 : Int) ^ (scale - maxScale) ∣ units.val) ∧
    (¬ n.2 ≤ maxScale → ¬ (10 : Int) ^ (scale - maxScale) ∣ units.val) := by
  obtain ⟨le, value, last⟩ := stripZeros_spec scale units
  simp only [normalized]
  by_cases zero : (stripZeros units scale).1.val = 0
  · have unitsZero : units.val = 0 := by rw [value, zero, zero_mul]
    simp [zero, unitsZero]
  · simp only [zero, if_false]
    constructor
    · intro within
      constructor
      · have powers : (10 : ℚ) ^ scale = 10 ^ (stripZeros units scale).2 *
            10 ^ (scale - (stripZeros units scale).2) := by
          rw [← pow_add, Nat.add_sub_cancel' le]
        have valueRat : (units.val : ℚ) = (stripZeros units scale).1.val *
            10 ^ (scale - (stripZeros units scale).2) := by exact_mod_cast value
        rw [powers, valueRat]
        field_simp
      · rw [value]
        exact Dvd.dvd.mul_left (pow_dvd_pow 10 (by omega)) _
    · intro beyond divides
      have last : ¬ (10 : Int) ∣ (stripZeros units scale).1.val := by
        rcases last with none | last
        · omega
        · exact last
      apply last
      have more : (10 : Int) ^ (scale - (stripZeros units scale).2 + 1) ∣ units.val :=
        (pow_dvd_pow 10 (by omega)).trans divides
      have split : units.val = 10 ^ (scale - (stripZeros units scale).2) *
          (stripZeros units scale).1.val := by
        rw [mul_comm]
        exact value
      rw [split, pow_succ] at more
      exact (mul_dvd_mul_iff_left (ten_pow_pos _).ne').1 more

namespace Literal

variable {l : Literal}

theorem acceptedAt_read :
    l.AcceptedAt (l.frac.length % 2 ^ 32) ↔ Fits 128 l.mantissa ∧
      if l.netScale < 0 then
        l.netScale ≥ -38 ∧ Fits 128 (l.mantissa * 10 ^ (-l.netScale).toNat)
      else l.netScale < 2 ^ 32 ∧ 10 ^ (l.netScale.toNat - maxScale) ∣ l.mantissa := Iff.rfl

/-- Scaling either gives up with an overflow, or it keeps the value and lands on
    scale zero or on the literal's own scale. -/
theorem scaled_cases (units : SInt 128) (exact : units.val = l.mantissa) :
    (l.scaled units = .error .overflow ∧ ¬ l.AcceptedAt (l.frac.length % 2 ^ 32)) ∨
    (∃ up, l.scaled units = .ok (up, 0) ∧ 0 ≤ up.val ∧ l.netScale < 0 ∧
      up.val = l.mantissa * 10 ^ (-l.netScale).toNat ∧
      l.AcceptedAt (l.frac.length % 2 ^ 32)) ∨
    (l.scaled units = .ok (units, l.netScale.toNat) ∧ 0 ≤ l.netScale ∧
      l.netScale < 2 ^ 32) := by
  have fits : Fits 128 l.mantissa := exact ▸ units.fits
  rw [acceptedAt_read]
  unfold scaled
  by_cases negative : l.netScale < 0
  · simp only [negative, if_true]
    by_cases small : l.netScale ≥ -38
    · have narrow : ¬ (-l.netScale).toNat ≥ 2 ^ 32 := by omega
      have low : ¬ (-l.netScale).toNat > 38 := by omega
      simp only [narrow, if_false, low, dite_false]
      by_cases product : Fits 128 (l.mantissa * 10 ^ (-l.netScale).toNat)
      · have step : units.checkedMul (pow10 (-l.netScale).toNat (by omega)).toSInt =
            some ⟨_, product⟩ := SInt.checked_eq_some.2 (by rw [exact]; rfl)
        refine .inr (.inl ⟨⟨_, product⟩, ?_, by positivity, trivial, rfl, fits, small, product⟩)
        rw [step]
      · have step : units.checkedMul (pow10 (-l.netScale).toNat (by omega)).toSInt = none :=
          SInt.checked_eq_none.2 (by rw [exact]; exact product)
        refine .inl ⟨?_, fun accepted => product accepted.2.2⟩
        rw [step]
    · refine .inl ⟨?_, fun accepted => small accepted.2.1⟩
      have high : (-l.netScale).toNat > 38 := by omega
      simp only [high, dite_true, ite_self]
  · simp only [negative, if_false]
    by_cases wide : l.netScale ≥ 2 ^ 32
    · refine .inl ⟨?_, fun accepted => ?_⟩
      · rw [if_pos wide]
      · have := accepted.2.1
        omega
    · refine .inr (.inr ⟨?_, by omega, by omega⟩)
      rw [if_neg wide]

theorem valueAt_eq_div (l : Literal) {digits : Nat} (nonneg : 0 ≤ digits - l.exp) :
    l.valueAt digits =
      (if l.neg then -l.mantissa else l.mantissa : ℚ) / 10 ^ (digits - l.exp : Int).toNat := by
  have exponent : l.exp - digits = -((digits - l.exp : Int).toNat : Int) := by omega
  rw [valueAt, exponent, zpow_neg, zpow_natCast, div_eq_mul_inv]

theorem valueAt_eq_mul (l : Literal) {digits : Nat} (neg : digits - l.exp < 0) :
    l.valueAt digits =
      (if l.neg then -l.mantissa else l.mantissa : ℚ) * 10 ^ (-(digits - l.exp : Int)).toNat := by
  have exponent : l.exp - digits = ((-(digits - l.exp : Int)).toNat : Int) := by omega
  rw [valueAt, exponent, zpow_natCast]

theorem valueAt_of_mantissa_zero (l : Literal) (zero : l.mantissa = 0) (digits : Nat) :
    l.valueAt digits = 0 := by
  simp [valueAt, zero]

theorem valueAt_inj (l : Literal) (nonzero : l.mantissa ≠ 0) {m n : Nat}
    (same : l.valueAt m = l.valueAt n) : m = n := by
  have sign : (if l.neg then -l.mantissa else l.mantissa : ℚ) ≠ 0 := by
    split <;> simpa using nonzero
  have powers : (10 : ℚ) ^ (l.exp - m) = 10 ^ (l.exp - n) := mul_left_cancel₀ sign same
  have exponents := zpow_right_injective₀ (by norm_num) (by norm_num) powers
  omega

theorem dvd_of_valueAt_eq (l : Literal) {digits : Nat} {k : Int} (nonneg : 0 ≤ digits - l.exp)
    (value : l.valueAt digits = k / 10 ^ maxScale) :
    10 ^ ((digits - l.exp : Int).toNat - maxScale) ∣ l.mantissa := by
  rcases le_or_gt (digits - l.exp : Int).toNat maxScale with le | gt
  · rw [Nat.sub_eq_zero_of_le le]
    exact one_dvd _
  · rw [valueAt_eq_div l nonneg] at value
    have powers : (10 : ℚ) ^ (digits - l.exp : Int).toNat =
        10 ^ ((digits - l.exp : Int).toNat - maxScale) * 10 ^ maxScale := by
      rw [← pow_add, Nat.sub_add_cancel gt.le]
    have scaled : (if l.neg then -l.mantissa else l.mantissa : ℚ) =
        10 ^ ((digits - l.exp : Int).toNat - maxScale) * k := by
      rw [powers] at value
      field_simp at value
      linarith
    have signed : (if l.neg then -(l.mantissa : Int) else l.mantissa) =
        10 ^ ((digits - l.exp : Int).toNat - maxScale) * k := by
      split at scaled <;> simp_all <;> exact_mod_cast scaled
    have divides : (10 : Int) ^ ((digits - l.exp : Int).toNat - maxScale) ∣ l.mantissa := by
      have whole := Dvd.intro k signed.symm
      split at whole
      · exact Int.dvd_neg.1 whole
      · exact whole
    exact_mod_cast divides

end Literal

theorem readLiteral_exp_fits {text : List Char} {l : Literal} (read : readLiteral text = some l) :
    Fits 32 l.exp := by
  have exponent {t mant : List Char} {e : Int} (h : splitExponent t = some (mant, e)) :
      Fits 32 e := by
    unfold splitExponent at h
    split at h
    · simp only [Option.bind_eq_bind, Option.bind_eq_some_iff] at h
      obtain ⟨read, -, h⟩ := h
      split at h
      next fits =>
          cases h
          exact fits
      next => cases h
    · cases h
      decide
  simp only [readLiteral] at read
  split at read
  · cases read
  · obtain ⟨⟨mant, e⟩, split, rest⟩ := Option.bind_eq_some_iff.1 read
    simp only at rest
    split at rest
    · cases rest
    · split at rest
      · cases rest
        exact exponent split
      · cases rest

/-- The sign of the literal never wraps: the units it is applied to are not negative. -/
theorem negate_eq (neg : Bool) {units : SInt 128} (nonneg : 0 ≤ units.val) :
    ∃ out : SInt 128, negate neg units = pure out ∧
      out.val = if neg then -units.val else units.val := by
  obtain ⟨lower, upper⟩ := units.fits
  have fits : Fits 128 (-units.val) := ⟨by omega, by omega⟩
  cases neg with
  | true => exact ⟨⟨-units.val, fits⟩, Arith.unchecked_of_fits fits, rfl⟩
  | false => exact ⟨units, rfl, rfl⟩

theorem signed_cases (s : String) (neg : Bool) (units : SInt 128) (scale : Nat)
    (nonneg : 0 ≤ units.val) :
    (∃ r, signed s neg units scale = pure r ∧ (10 : Int) ^ (scale - maxScale) ∣ units.val ∧
      r.toRat = (if neg then -units.val else units.val : ℚ) / 10 ^ scale) ∨
    (signed s neg units scale = throw (.tooPrecise s) ∧
      ¬ (10 : Int) ^ (scale - maxScale) ∣ units.val) := by
  obtain ⟨out, sign, outVal⟩ := negate_eq neg nonneg
  have outRat : (out.val : ℚ) = (if neg then -units.val else units.val : ℚ) := by
    rw [outVal]
    split <;> simp
  have outDvd (p : Int) : p ∣ out.val ↔ p ∣ units.val := by
    rw [outVal]
    split <;> simp
  unfold signed
  rw [sign, Calc.ofArith_pure]
  simp only [pure_bind]
  by_cases within : scale ≤ maxScale
  · refine .inl ⟨⟨out, scale, within⟩, by rw [dif_pos within], ?_, ?_⟩
    · rw [Nat.sub_eq_zero_of_le within]
      simp
    · rw [toRat, outRat]
  · rw [dif_neg within]
    obtain ⟨kept, lost⟩ := normalized_spec out scale
    by_cases reduced : (normalized out scale).2 ≤ maxScale
    · obtain ⟨value, divides⟩ := kept reduced
      refine .inl ⟨⟨_, _, reduced⟩, by rw [dif_pos reduced], (outDvd _).1 divides, ?_⟩
      rw [toRat, value, outRat]
    · refine .inr ⟨by rw [dif_neg reduced], fun divides => lost reduced ((outDvd _).2 divides)⟩

/-- Reading a literal wraps nothing. It returns the value with the point where
    `netScale` puts it, or an overflow, or it refuses real precision beyond the cap. -/
theorem parseCalc_cases {s : String} {l : Literal} (read : readLiteral s.toList = some l) :
    (∃ r, parseCalc s = pure r ∧ l.AcceptedAt (l.frac.length % 2 ^ 32) ∧
      r.toRat = l.valueAt (l.frac.length % 2 ^ 32)) ∨
    (parseCalc s = throw .overflow ∧ ¬ l.AcceptedAt (l.frac.length % 2 ^ 32)) ∨
    (parseCalc s = throw (.tooPrecise s) ∧ 0 ≤ l.netScale ∧ Fits 128 l.mantissa ∧
      ¬ 10 ^ (l.netScale.toNat - maxScale) ∣ l.mantissa) := by
  have digits := readDigits_eq (l.int ++ l.frac) ⟨0, by decide⟩ le_rfl
  simp only [Int.toNat_zero] at digits
  unfold parseCalc
  rw [read]
  simp only [digits]
  by_cases fits : Fits 128 (Nat.ofDigitChars 10 (l.int ++ l.frac) 0 : Int)
  · have units : (SInt.checked (Nat.ofDigitChars 10 (l.int ++ l.frac) 0 : Int) : Option (SInt 128)) =
        some ⟨l.mantissa, fits⟩ := SInt.checked_eq_some.2 rfl
    rw [units]
    simp only [Calc.checked_some, pure_bind]
    rcases Literal.scaled_cases (l := l) ⟨l.mantissa, fits⟩ rfl with
      ⟨scaled, refused⟩ | ⟨up, scaled, nonneg, negative, value, accepted⟩ | ⟨scaled, nonneg, narrow⟩
    · rw [scaled]
      exact .inr (.inl ⟨rfl, refused⟩)
    · rw [scaled]
      simp only [Calc.ofExcept_ok, pure_bind]
      rcases signed_cases s l.neg up 0 nonneg with ⟨r, result, -, exact⟩ | ⟨-, precise⟩
      · refine .inl ⟨r, result, accepted, ?_⟩
        have valueRat : (up.val : ℚ) = l.mantissa * 10 ^ (-l.netScale).toNat := by
          exact_mod_cast value
        rw [exact, l.valueAt_eq_mul negative, valueRat, ← Literal.netScale]
        split <;> simp
      · exact absurd (by simp) precise
    · rw [scaled]
      simp only [Calc.ofExcept_ok, pure_bind]
      have dividesNat : (10 : Int) ^ (l.netScale.toNat - maxScale) ∣ l.mantissa ↔
          10 ^ (l.netScale.toNat - maxScale) ∣ l.mantissa := by
        exact_mod_cast Int.natCast_dvd_natCast (m := 10 ^ (l.netScale.toNat - maxScale))
      rcases signed_cases s l.neg ⟨l.mantissa, fits⟩ l.netScale.toNat (by simp) with
        ⟨r, result, divides, exact⟩ | ⟨result, precise⟩
      · refine .inl ⟨r, result, ?_, ?_⟩
        · rw [Literal.acceptedAt_read]
          refine ⟨fits, ?_⟩
          rw [if_neg (not_lt.2 nonneg)]
          exact ⟨narrow, dividesNat.1 divides⟩
        · rw [exact, l.valueAt_eq_div nonneg, ← Literal.netScale]
          simp
      · exact .inr (.inr ⟨result, nonneg, fits, fun divides => precise (dividesNat.2 divides)⟩)
  · rw [SInt.checked_eq_none.2 fits]
    exact .inr (.inl ⟨rfl, fun accepted => fits accepted.1⟩)

theorem signed_readable {s : String} {neg : Bool} {units : SInt 128} {scale : Nat} {r : Dec} (nonneg : 0 ≤ units.val)
    (read : (signed s neg units scale).result = .ok r) : r.units.val ≠ -2 ^ 127 := by
  obtain ⟨out, sign, value⟩ := negate_eq neg nonneg
  have bound : -2 ^ 127 < out.val := by
    obtain ⟨-, upper⟩ := units.fits
    rw [value]
    split <;> omega
  rw [signed, sign, Calc.ofArith_pure, pure_bind] at read
  split at read
  · rw [Calc.result_pure] at read
    obtain rfl := Except.ok.inj read
    exact bound.ne'
  · simp only at read
    split at read
    · rw [Calc.result_pure] at read
      obtain rfl := Except.ok.inj read
      obtain ⟨-, stripped, -⟩ := stripZeros_spec scale out
      -- dropping zeros makes the units smaller
      have grows : (1 : Int) ≤ 10 ^ (scale - (stripZeros out scale).2) := one_le_pow₀ (by decide)
      have least : (stripZeros out scale).1.val ≠ -2 ^ 127 := by
        intro same
        rw [same] at stripped
        nlinarith
      show (normalized out scale).1.val ≠ -2 ^ 127
      simp only [normalized]
      split <;> exact least
    · rw [Calc.result_throw] at read
      cases read

theorem parse_readable {s : String} {d : Dec} (parsed : parse s = .ok d) : d.units.val ≠ -2 ^ 127 := by
  rw [parse, parseCalc] at parsed
  split at parsed
  · rw [Calc.result_throw] at parsed
    cases parsed
  next l _ =>
    have digits := readDigits_eq (l.int ++ l.frac) ⟨0, by decide⟩ le_rfl
    rw [Int.toNat_zero] at digits
    rw [digits] at parsed
    cases checked : (SInt.checked (Nat.ofDigitChars 10 (l.int ++ l.frac) 0 : Int) : Option (SInt 128)) with
    | none =>
        rw [checked] at parsed
        cases parsed
    | some units =>
        have mantissa : units.val = l.mantissa := SInt.checked_eq_some.1 checked
        rw [checked, Calc.checked_some, pure_bind] at parsed
        rcases Literal.scaled_cases units mantissa with ⟨scaled, -⟩ | ⟨up, scaled, nonneg, -⟩ | ⟨scaled, -⟩
        · rw [scaled] at parsed
          cases parsed
        · rw [scaled, Calc.ofExcept_ok, pure_bind] at parsed
          exact signed_readable nonneg parsed
        · rw [scaled, Calc.ofExcept_ok, pure_bind] at parsed
          exact signed_readable (by rw [mantissa]; exact Int.natCast_nonneg _) parsed

/-- A sign, digits, and a point with more digits when there are any. -/
def plainText (neg : Bool) (int frac : List Char) : List Char :=
  (if neg then ['-'] else []) ++ int ++ if frac = [] then [] else '.' :: frac

theorem plain_char {neg : Bool} {int frac : List Char} {c : Char}
    (intDigits : Text.allDigits int = true) (fracDigits : Text.allDigits frac = true)
    (member : c ∈ plainText neg int frac) : c = '-' ∨ c = '.' ∨ c.isDigit = true := by
  simp only [plainText, Text.allDigits, List.all_eq_true] at *
  grind

theorem plain_not_blank {c : Char} (plain : c = '-' ∨ c = '.' ∨ c.isDigit = true) :
    Text.isWhitespace c = false := by
  rcases plain with rfl | rfl | digit
  · decide
  · decide
  · exact Text.not_isWhitespace_of_isDigit digit

theorem plain_not_exponent {c : Char} (plain : c = '-' ∨ c = '.' ∨ c.isDigit = true) :
    isExponentMark c = false := by
  rcases plain with rfl | rfl | digit
  · decide
  · decide
  · rw [isExponentMark, Bool.or_eq_false_iff, beq_eq_false_iff_ne, beq_eq_false_iff_ne]
    constructor
    · rintro rfl
      exact absurd digit (by decide)
    · rintro rfl
      exact absurd digit (by decide)

theorem splitSign_digits {int rest : List Char} (digits : Text.allDigits int = true)
    (nonempty : int ≠ []) : splitSign (int ++ rest) = (false, int ++ rest) := by
  cases int with
  | nil => exact absurd rfl nonempty
  | cons c cs =>
      have digit : c.isDigit = true := by
        simp only [Text.allDigits, List.all_cons, Bool.and_eq_true] at digits
        exact digits.1
      have notMinus : c ≠ '-' := by
        rintro rfl
        exact absurd digit (by decide)
      have notPlus : c ≠ '+' := by
        rintro rfl
        exact absurd digit (by decide)
      simp only [List.cons_append]
      unfold splitSign
      split
      next h => exact absurd (List.cons.inj h).1 notMinus
      next h => exact absurd (List.cons.inj h).1 notPlus
      next => rfl

theorem splitPoint_digits {int frac : List Char} (digits : Text.allDigits int = true) :
    splitPoint (int ++ if frac = [] then [] else '.' :: frac) = (int, frac) := by
  have clear : ∀ c ∈ int, (c == '.') = false := by
    intro c member
    rw [beq_eq_false_iff_ne]
    rintro rfl
    simp only [Text.allDigits, List.all_eq_true] at digits
    exact absurd (digits '.' member) (by decide)
  unfold splitPoint
  split
  next none =>
      rw [List.append_nil, Text.splitFirst_eq_none.2 clear, none]
      rfl
  next =>
      rw [Text.splitFirst_append clear (by decide)]
      rfl

theorem readLiteral_plain (neg : Bool) {int frac : List Char}
    (intDigits : Text.allDigits int = true) (fracDigits : Text.allDigits frac = true)
    (nonempty : int ≠ []) :
    readLiteral (plainText neg int frac) = some ⟨neg, int, frac, 0⟩ := by
  have plain {c : Char} (member : c ∈ plainText neg int frac) :=
    plain_char intDigits fracDigits member
  have trimmed : Text.trim (plainText neg int frac) = plainText neg int frac :=
    Text.trim_of_ends (fun c first => plain_not_blank (plain (List.mem_of_mem_head? first)))
      (fun c last => plain_not_blank (plain (List.mem_of_mem_getLast? last)))
  have filled : plainText neg int frac ≠ [] := by
    simp [plainText, nonempty]
  have exponent : splitExponent (plainText neg int frac) = some (plainText neg int frac, 0) := by
    rw [splitExponent, Text.splitFirst_eq_none.2 fun c member => plain_not_exponent (plain member)]
  have sign : splitSign (plainText neg int frac) =
      (neg, int ++ if frac = [] then [] else '.' :: frac) := by
    cases neg with
    | true => rfl
    | false => exact splitSign_digits intDigits nonempty
  simp only [readLiteral, trimmed, filled, if_false, exponent, Option.bind_eq_bind,
    Option.bind_some, sign, splitPoint_digits intDigits, nonempty, false_and, intDigits,
    fracDigits, Bool.and_self, if_true]

theorem allDigits_toDigits (n : Nat) : Text.allDigits (Nat.toDigits 10 n) = true :=
  List.all_eq_true.2 fun _ member => Nat.isDigit_of_mem_toDigits (by decide) (by decide) member

theorem allDigits_fracChars (d : Dec) : Text.allDigits d.fracChars = true := by
  rw [fracChars, Text.allDigits_append, allDigits_toDigits, Bool.and_true]
  simp [Text.allDigits, List.all_replicate]

theorem length_fracChars (d : Dec) (fractional : d.scale ≠ 0) : d.fracChars.length = d.scale := by
  have bound : (Nat.toDigits 10 (d.units.val.natAbs % 10 ^ d.scale)).length ≤ d.scale :=
    (Nat.length_toDigits_le_iff (by decide) (Nat.pos_of_ne_zero fractional)).2
      (Nat.mod_lt _ (by positivity))
  simp only [fracChars, List.length_append, List.length_replicate]
  omega

theorem ofDigitChars_fracChars (d : Dec) :
    Nat.ofDigitChars 10 d.fracChars 0 = d.units.val.natAbs % 10 ^ d.scale := by
  rw [fracChars, Nat.ofDigitChars_append, Nat.ofDigitChars_replicate_zero, Nat.mul_zero,
    Nat.ofDigitChars_ten_toDigits]

/-- What `display` shows, as a literal. -/
def shown (d : Dec) : Literal where
  neg := d.units.val < 0
  int := Nat.toDigits 10 (d.units.val.natAbs / 10 ^ d.scale)
  frac := if d.scale = 0 then [] else d.fracChars
  exp := 0

theorem shown_frac_length (d : Dec) : d.shown.frac.length = d.scale := by
  by_cases integral : d.scale = 0
  · simp [shown, integral]
  · simp [shown, integral, d.length_fracChars integral]

theorem shown_mantissa (d : Dec) : d.shown.mantissa = d.units.val.natAbs := by
  by_cases integral : d.scale = 0
  · simp [Literal.mantissa, shown, integral, Nat.ofDigitChars_ten_toDigits]
  · simp only [Literal.mantissa, shown, integral, if_false]
    rw [Nat.ofDigitChars_append, Nat.ofDigitChars_ten_toDigits,
      Nat.ofDigitChars_eq_ofDigitChars_zero, d.length_fracChars integral, ofDigitChars_fracChars,
      Nat.div_add_mod]

theorem shown_value (d : Dec) : d.shown.value = d.toRat := by
  have point : (d.shown.frac.length : Int) - d.shown.exp = d.scale := by
    rw [shown_frac_length]
    simp [shown]
  rw [Literal.value, Literal.valueAt_eq_div _ (by omega), point, shown_mantissa, toRat]
  congr 1
  by_cases negative : d.units.val < 0
  · have magnitude : (d.units.val.natAbs : Int) = -d.units.val := by omega
    simp only [shown, negative, decide_true, if_true]
    rw [← Int.cast_natCast, magnitude, Int.cast_neg, neg_neg]
  · have magnitude : (d.units.val.natAbs : Int) = d.units.val := by omega
    simp only [shown, negative, decide_false, Bool.false_eq_true, if_false]
    rw [← Int.cast_natCast, magnitude]

/-- Printing and reading back: the text shows the value at its own scale. -/
theorem readLiteral_display (d : Dec) : readLiteral d.display.toList = some d.shown := by
  have plain : d.displayChars = plainText d.shown.neg d.shown.int d.shown.frac := by
    by_cases integral : d.scale = 0
    · simp [displayChars, plainText, shown, integral]
    · have filled : d.fracChars ≠ [] := by
        intro empty
        have := d.length_fracChars integral
        rw [empty] at this
        exact integral this.symm
      simp [displayChars, plainText, shown, integral, filled]
  have fracDigits : Text.allDigits d.shown.frac = true := by
    by_cases integral : d.scale = 0
    · simp [shown, integral, Text.allDigits]
    · simp [shown, integral, d.allDigits_fracChars]
  rw [display, String.toList_ofList, plain]
  exact readLiteral_plain _ (allDigits_toDigits _) fracDigits Nat.toDigits_ne_nil

/-- The text is a decimal number of this value. -/
def Denotes (text : String) (value : ℚ) : Prop :=
  ∃ l, readLiteral text.toList = some l ∧ l.value = value

theorem denotes_display (d : Dec) : Denotes d.display d.toRat :=
  ⟨d.shown, d.readLiteral_display, d.shown_value⟩

/-- The one decimal whose digits do not fit is the smallest; every other reads back
    as it was. -/
theorem parse_display (d : Dec) (readable : d.units.val ≠ -2 ^ 127) : parse d.display = .ok d := by
  have magnitude : Nat.ofDigitChars 10 (d.shown.int ++ d.shown.frac) 0 = d.units.val.natAbs :=
    d.shown_mantissa
  obtain ⟨lower, upper⟩ := d.units.fits
  have fits : Fits 128 (d.units.val.natAbs : Int) := by
    constructor <;> omega
  have digits : readDigits ⟨0, by decide⟩ (d.shown.int ++ d.shown.frac) =
      some ⟨d.units.val.natAbs, fits⟩ := by
    rw [readDigits_eq _ _ le_rfl, SInt.checked_eq_some]
    simp only [Int.toNat_zero]
    exact congrArg Nat.cast magnitude.symm
  have scale := d.scale_le
  unfold maxScale at scale
  have net : d.shown.netScale = d.scale := by
    rw [Literal.netScale, shown_frac_length]
    simp only [shown, sub_zero]
    omega
  have scaled : d.shown.scaled ⟨d.units.val.natAbs, fits⟩ = .ok (⟨d.units.val.natAbs, fits⟩, d.scale) := by
    simp only [Literal.scaled, net]
    rw [if_neg (by omega), if_neg (by omega), Int.toNat_natCast]
  obtain ⟨⟨out, outFits⟩, sign, value⟩ :=
    negate_eq d.shown.neg (show 0 ≤ (⟨d.units.val.natAbs, fits⟩ : SInt 128).val by simp)
  have same : out = d.units.val := by
    simp only at value
    rw [value]
    by_cases negative : d.units.val < 0
    · simp only [shown, negative, decide_true, if_true]
      omega
    · simp only [shown, negative, decide_false, Bool.false_eq_true, if_false]
      omega
  unfold parse parseCalc
  rw [readLiteral_display]
  simp only [digits, Calc.checked_some, pure_bind, scaled, Calc.ofExcept_ok, signed, sign, Calc.ofArith_pure]
  rw [dif_pos d.scale_le]
  subst same
  rfl

end Dec

end BrokerAdapters
