import SignalEngine.BrokerAdapters.DecimalText
import SignalEngine.Lib.DirectedRounding

/-! # Rounding of decimals

`round_dp` and `round_to_multiple` against the rounding of rational numbers they
document. Two of their steps are unchecked: lifting the units to a larger scale,
and doubling the remainder for the half-up test. Everything else stays in range
for every input.
-/

open MachineInt

namespace BrokerAdapters

/-- The integer next to `x` in the given direction; ties of `halfUp` go up. -/
def Rounding.toInt : Rounding → ℚ → Int
  | .floor, x => ⌊x⌋
  | .ceil, x => ⌈x⌉
  | .halfUp, x => ⌊x + 1 / 2⌋

theorem Rounding.toInt_intCast (mode : Rounding) (n : Int) : mode.toInt n = n := by
  cases mode with
  | floor => exact Int.floor_intCast n
  | ceil => exact Int.ceil_intCast n
  | halfUp =>
      rw [toInt, Int.floor_intCast_add]
      norm_num

namespace Dec

variable (d : Dec) {step : Dec} {dp : Nat} (mode : Rounding) (a : SInt 128) (b : SInt.Positive 128)

theorem quotient_succ_fits (inexact : a.val % b.val ≠ 0) : Fits 128 (a.val / b.val + 1) := by
  have positive := b.pos
  have split := Int.mul_ediv_add_emod a.val b.val
  have restLower : 0 < a.val % b.val :=
    lt_of_le_of_ne (Int.emod_nonneg _ positive.ne') inexact.symm
  have restUpper := Int.emod_lt_of_pos a.val positive
  apply a.fits.between
  · rcases le_or_gt 0 (a.val / b.val) with nonneg | negative
    · omega
    · have scaled : b.val * (a.val / b.val + 1) ≤ a.val / b.val + 1 := by nlinarith
      rw [mul_add, mul_one] at scaled
      omega
  · rcases le_or_gt 0 (a.val / b.val) with nonneg | negative
    · have scaled : 2 * (a.val / b.val) ≤ b.val * (a.val / b.val) := by nlinarith
      omega
    · omega

/-- Adjusting a Euclidean quotient rounds the fraction, as long as the doubled
    remainder of the half-up test does not wrap. -/
theorem adjust_exact (calm : mode = .halfUp → Fits 128 (a.val % b.val * 2)) :
    ∃ n : SInt 128, adjust mode (a.divEuclid b) (a.remEuclid b) b = pure n ∧
      n.val = mode.toInt ((a.val : ℚ) / b.val) := by
  have upFits (up : Prop) [Decidable up] (inexact : up → a.val % b.val ≠ 0) :
      Fits 128 (a.val / b.val + if up then 1 else 0) := by
    split
    next yes => exact quotient_succ_fits a b (inexact yes)
    next => simpa using SInt.ediv_fits a.fits b.pos
  cases mode with
  | floor => exact ⟨a.divEuclid b, rfl, (DirectedRounding.floor_div b.pos).symm⟩
  | ceil =>
      have fits := upFits (a.val % b.val ≠ 0) id
      exact ⟨⟨_, fits⟩, Arith.unchecked_of_fits fits, (DirectedRounding.ceil_div b.pos).symm⟩
  | halfUp =>
      have inexact : a.val % b.val * 2 ≥ b.val → a.val % b.val ≠ 0 := by
        have := b.pos
        omega
      have fits := upFits (a.val % b.val * 2 ≥ b.val) inexact
      refine ⟨⟨_, fits⟩, ?_, (DirectedRounding.floor_div_add_half b.pos).symm⟩
      simp only [adjust, SInt.remEuclid, SInt.divEuclid, Arith.unchecked_of_fits (calm rfl),
        pure_bind, Arith.unchecked_of_fits fits]

theorem adjust_wraps (wraps : ¬ Fits 128 (a.val % b.val * 2)) :
    (adjust .halfUp (a.divEuclid b) (a.remEuclid b) b).wrapped = true := by
  rw [adjust, Arith.bind_wrapped, Bool.or_eq_true]
  exact .inl (Arith.unchecked_wrapped_iff.2 wraps)

/-- Lifting the units to `dp` digits stays in range, or `dp` needs no lifting. -/
def LiftFits (d : Dec) (dp : Nat) : Prop :=
  dp ≤ maxScale → d.scale ≤ dp → Fits 128 (d.units.val * 10 ^ (dp - d.scale))

theorem toRat_mul_pow (le : d.scale ≤ dp) : d.toRat * 10 ^ dp = (d.units.val * 10 ^ (dp - d.scale) : Int) := by
  have powers : (10 : ℚ) ^ dp = 10 ^ d.scale * 10 ^ (dp - d.scale) := by
    rw [← pow_add, Nat.add_sub_cancel' le]
  rw [toRat, powers]
  push_cast
  field_simp

theorem toRat_mul_pow_of_gt (gt : dp < d.scale) :
    d.toRat * 10 ^ dp = (d.units.val : ℚ) / (10 ^ (d.scale - dp) : Int) := by
  have powers : (10 : ℚ) ^ d.scale = 10 ^ dp * 10 ^ (d.scale - dp) := by
    rw [← pow_add, Nat.add_sub_cancel' gt.le]
  rw [toRat, powers]
  push_cast
  field_simp

theorem roundDpCalc_exact (within : dp ≤ maxScale) (calm : d.LiftFits dp) :
    ∃ r : Dec, d.roundDpCalc dp mode = pure r ∧ r.scale = dp ∧
      r.toRat = mode.toInt (d.toRat * 10 ^ dp) / 10 ^ dp := by
  unfold roundDpCalc
  rw [dif_pos within]
  by_cases le : d.scale ≤ dp
  · rw [if_pos le, lift_val, Arith.unchecked_of_fits (calm within le)]
    refine ⟨⟨⟨_, calm within le⟩, dp, within⟩, rfl, rfl, ?_⟩
    rw [toRat_mul_pow d le, mode.toInt_intCast]
    rfl
  · rw [if_neg le]
    have small : d.scale - dp ≤ 38 := le_trans (Nat.sub_le ..) d.pow10_scale_small
    have doubled : Fits 128 (d.units.val % 10 ^ (d.scale - dp) * 2) := by
      have upper := Int.emod_lt_of_pos d.units.val (ten_pow_pos (d.scale - dp))
      have lower := Int.emod_nonneg d.units.val (ten_pow_pos (d.scale - dp)).ne'
      have power : (10 : Int) ^ (d.scale - dp) ≤ 10 ^ 18 :=
        pow_le_pow_right₀ (by decide) (le_trans (Nat.sub_le ..) d.scale_le)
      exact Fits.of_le (x := 10 ^ 18 * 2) (by decide) (by omega) (by omega)
    obtain ⟨n, adjusted, value⟩ :=
      adjust_exact mode d.units (pow10 (d.scale - dp) small) fun _ => doubled
    refine ⟨⟨n, dp, within⟩, ?_, rfl, ?_⟩
    · simp only [adjusted, Calc.ofArith_pure, pure_bind]
    · rw [toRat_mul_pow_of_gt d (not_le.1 le)]
      simp only [toRat]
      rw [value]
      rfl

theorem roundDpCalc_wraps (within : dp ≤ maxScale) (le : d.scale ≤ dp)
    (wraps : ¬ Fits 128 (d.units.val * 10 ^ (dp - d.scale))) :
    (d.roundDpCalc dp mode).wrapped = true := by
  unfold roundDpCalc
  rw [dif_pos within, if_pos le, Calc.wrapped_bind_ok _ (Calc.result_ofArith _), Bool.or_eq_true,
    Calc.wrapped_ofArith]
  exact .inl (Arith.unchecked_wrapped_iff.2 wraps)

/-- The value and the step of `round_to_multiple` on their common scale. -/
def commonUnits (d step : Dec) : Int := d.units.val * 10 ^ (max d.scale step.scale - d.scale)

/-- The half-up test of `round_to_multiple` does not double a remainder out of range. -/
def RemainderFits (d step : Dec) (mode : Rounding) : Prop :=
  0 < step.units.val → Fits 128 (d.commonUnits step) → Fits 128 (step.commonUnits d) →
    mode = .halfUp → Fits 128 (d.commonUnits step % step.commonUnits d * 2)

theorem roundToMultipleCalc_badStep (nonpos : step.units.val ≤ 0) :
    d.roundToMultipleCalc step mode = throw .badStep := by
  rw [roundToMultipleCalc, SInt.toPositive?_eq_none.2 nonpos]

theorem roundToMultipleCalc_common (positive : 0 < step.units.val) :
    (d.roundToMultipleCalc step mode = throw .overflow ∧
      ¬ (Fits 128 (d.commonUnits step) ∧ Fits 128 (step.commonUnits d))) ∨
    ∃ (a : SInt 128) (b : SInt.Positive 128),
      a.val = d.commonUnits step ∧ b.val = step.commonUnits d ∧
      d.roundToMultipleCalc step mode = (do
        let n ← Calc.ofArith (adjust mode (a.divEuclid b) (a.remEuclid b) b)
        let units ← Calc.checked .overflow (n.checkedMul b.toSInt)
        pure ⟨units, max d.scale step.scale, max_le d.scale_le step.scale_le⟩) := by
  have stepUnits : step.units.toPositive? = some ⟨step.units, positive⟩ :=
    SInt.toPositive?_eq_some.2 rfl
  simp only [roundToMultipleCalc, stepUnits]
  have stepCommon : step.commonUnits d =
      step.units.val * 10 ^ (max d.scale step.scale - step.scale) := by
    rw [commonUnits, max_comm]
  by_cases value : Fits 128 (d.commonUnits step)
  · have first : d.units.checkedMul (d.lift (max d.scale step.scale)
        (max_le d.scale_le step.scale_le)).toSInt = some ⟨_, value⟩ := SInt.checked_eq_some.2 rfl
    by_cases unit : Fits 128 (step.commonUnits d)
    · have unitPos : 0 < step.commonUnits d := mul_pos positive (ten_pow_pos _)
      have second : SInt.Positive.checkedMul ⟨step.units, positive⟩
          (step.lift (max d.scale step.scale) (max_le d.scale_le step.scale_le)) =
            some ⟨⟨_, unit⟩, unitPos⟩ :=
        SInt.Positive.checkedMul_eq_some.2 stepCommon
      refine .inr ⟨⟨_, value⟩, ⟨⟨_, unit⟩, unitPos⟩, rfl, rfl, ?_⟩
      simp only [first, second, Calc.checked_some, pure_bind]
    · have second : SInt.Positive.checkedMul ⟨step.units, positive⟩
          (step.lift (max d.scale step.scale) (max_le d.scale_le step.scale_le)) = none :=
        SInt.Positive.checkedMul_eq_none.2 (stepCommon ▸ unit)
      refine .inl ⟨?_, fun both => unit both.2⟩
      simp only [first, second, Calc.checked_some, Calc.checked_none, pure_bind, Calc.throw_bind]
  · have first : d.units.checkedMul (d.lift (max d.scale step.scale)
        (max_le d.scale_le step.scale_le)).toSInt = none := SInt.checked_eq_none.2 value
    refine .inl ⟨?_, fun both => value both.1⟩
    simp only [first, Calc.checked_none, Calc.throw_bind]

theorem toRat_common (step : Dec) : d.toRat = d.commonUnits step / 10 ^ max d.scale step.scale := by
  have powers : (10 : ℚ) ^ max d.scale step.scale =
      10 ^ d.scale * 10 ^ (max d.scale step.scale - d.scale) := by
    rw [← pow_add, Nat.add_sub_cancel' (le_max_left ..)]
  rw [toRat, commonUnits, powers]
  push_cast
  field_simp

theorem roundToMultipleCalc_exact (positive : 0 < step.units.val) (calm : d.RemainderFits step mode) :
    d.roundToMultipleCalc step mode = throw .overflow ∨
    ∃ r : Dec, d.roundToMultipleCalc step mode = pure r ∧
      r.toRat = mode.toInt (d.toRat / step.toRat) * step.toRat := by
  rcases roundToMultipleCalc_common d mode positive with ⟨overflow, -⟩ | ⟨a, b, value, unit, h⟩
  · exact .inl overflow
  · have doubled : mode = .halfUp → Fits 128 (a.val % b.val * 2) := by
      rw [value, unit]
      exact calm positive (value ▸ a.fits) (unit ▸ b.fits)
    obtain ⟨n, adjusted, rounded⟩ := adjust_exact mode a b doubled
    rw [h, adjusted, Calc.ofArith_pure, pure_bind]
    cases product : n.checkedMul b.toSInt with
    | none => exact .inl rfl
    | some units =>
        refine .inr ⟨_, rfl, ?_⟩
        have exact := SInt.checked_eq_some.1 product
        have unitRat : step.toRat = b.val / 10 ^ max d.scale step.scale := by
          rw [toRat_common step d, unit, max_comm]
        have bPos : (b.val : ℚ) ≠ 0 := by exact_mod_cast b.pos.ne'
        have ratio : d.toRat / step.toRat = a.val / b.val := by
          rw [toRat_common d step, unitRat, value]
          field_simp
        rw [ratio, ← rounded, unitRat, toRat]
        simp only [exact]
        push_cast
        ring

theorem roundToMultipleCalc_wraps (wraps : ¬ d.RemainderFits step mode) :
    (d.roundToMultipleCalc step mode).wrapped = true := by
  unfold RemainderFits at wraps
  push Not at wraps
  obtain ⟨positive, valueFits, unitFits, rfl, doubled⟩ := wraps
  rcases roundToMultipleCalc_common d .halfUp positive with ⟨-, misfit⟩ | ⟨a, b, value, unit, h⟩
  · exact absurd ⟨valueFits, unitFits⟩ misfit
  · rw [← value, ← unit] at doubled
    rw [h, Calc.wrapped_bind_ok _ (Calc.result_ofArith _), Calc.wrapped_ofArith,
      adjust_wraps a b doubled, Bool.true_or]

theorem isPositive_iff_units {d : Dec} : d.isPositive = true ↔ 0 < d.units.val :=
  decide_eq_true_iff

/-- The number of `10^-dp` in a value, as `round_dp` finds it on the way down: a
    lift to more digits is taken modulo the width. -/
def digitsAt (d : Dec) (dp : Nat) : Int :=
  if d.scale ≤ dp then wrap 128 (d.units.val * 10 ^ (dp - d.scale))
  else d.units.val / 10 ^ (d.scale - dp)

theorem roundDp_floor (within : dp ≤ maxScale) :
    ∃ units : SInt 128, units.val = d.digitsAt dp ∧
      d.roundDp dp .floor = .ok ⟨units, dp, within⟩ := by
  unfold roundDp roundDpCalc
  rw [dif_pos within]
  by_cases le : d.scale ≤ dp
  · rw [if_pos le]
    exact ⟨_, by simp [digitsAt, le], rfl⟩
  · rw [if_neg le]
    refine ⟨d.units.divEuclid (pow10 (d.scale - dp) (le_trans (Nat.sub_le ..) d.pow10_scale_small)),
      ?_, rfl⟩
    simp only [digitsAt, le, if_false]
    rfl

theorem roundDp_floor_eq_ok {d r : Dec} {dp : Nat} :
    d.roundDp dp .floor = .ok r ↔ r.scale = dp ∧ r.units.val = d.digitsAt dp := by
  constructor
  · intro h
    by_cases within : dp ≤ maxScale
    · obtain ⟨units, value, rounded⟩ := roundDp_floor d within
      obtain rfl := Except.ok.inj (h.symm.trans rounded)
      exact ⟨rfl, value⟩
    · unfold roundDp roundDpCalc at h
      rw [dif_neg within] at h
      cases h
  · rintro ⟨rfl, value⟩
    obtain ⟨units, same, rounded⟩ := roundDp_floor d r.scale_le
    obtain rfl : units = r.units := SInt.ext_val (same.trans value.symm)
    exact rounded

theorem digitsAt_scale : d.digitsAt d.scale = d.units.val := by
  simp [digitsAt, wrap_of_fits d.units.fits]

theorem digitsAt_le (nonneg : 0 ≤ d.units.val) (within : dp ≤ maxScale) :
    d.digitsAt dp * 10 ^ (maxScale - dp) ≤ d.atto := by
  unfold digitsAt
  split
  next le =>
    rw [d.atto_lift le within]
    have wide : 0 ≤ d.units.val * 10 ^ (dp - d.scale) := mul_nonneg nonneg (ten_pow_pos _).le
    exact mul_le_mul_of_nonneg_right (wrap_le wide) (ten_pow_pos _).le
  next gt =>
    have powers : (10 : Int) ^ (maxScale - dp) = 10 ^ (d.scale - dp) * 10 ^ (maxScale - d.scale) := by
      rw [← pow_add]
      congr 1
      have := d.scale_le
      omega
    rw [powers, ← mul_assoc, atto]
    exact mul_le_mul_of_nonneg_right (Int.ediv_mul_le _ (ten_pow_pos _).ne') (ten_pow_pos _).le

theorem roundDp_floor_le {d r : Dec} {dp : Nat} (nonneg : 0 ≤ d.units.val)
    (rounded : d.roundDp dp .floor = .ok r) : r ≤ d := by
  obtain ⟨rfl, units⟩ := roundDp_floor_eq_ok.1 rounded
  rw [le_iff]
  nth_rewrite 1 [atto]
  rw [units]
  exact digitsAt_le d nonneg r.scale_le

theorem roundDp_floor_self : d.roundDp d.scale .floor = .ok d :=
  roundDp_floor_eq_ok.2 ⟨rfl, d.digitsAt_scale.symm⟩

/-- Normalizing keeps the value and stops at the last significant digit. -/
theorem normal_spec (nonzero : d.units.val ≠ 0) :
    d.normal.scale ≤ d.scale ∧ d.units.val = d.normal.units.val * 10 ^ (d.scale - d.normal.scale) ∧
      (d.normal.scale = 0 ∨ ¬ (10 : Int) ∣ d.normal.units.val) := by
  have spec := stripZeros_spec d.scale d.units
  have kept : (stripZeros d.units d.scale).1.val ≠ 0 := by
    intro zero
    apply nonzero
    rw [spec.2.1, zero, zero_mul]
  simpa [normal, normalized, kept] using spec

theorem toFixed_self : d.toFixed d.scale = .ok d.display := by
  obtain ⟨r, rounded, -, -⟩ := d.roundDpCalc_exact .floor d.scale_le (by
    intro _ _
    simpa using d.units.fits)
  have same : r = d := by
    have self := roundDp_floor_self d
    rw [roundDp, rounded] at self
    exact Except.ok.inj self
  rw [toFixed, toFixedCalc, rounded, same]
  simp [cmpCalc_eq]

theorem atto_normal : d.normal.atto = d.atto := by
  by_cases zero : d.units.val = 0
  · have spec := stripZeros_spec d.scale d.units
    have stripped : (stripZeros d.units d.scale).1.val = 0 := by
      have := spec.2.1
      rw [zero] at this
      rcases mul_eq_zero.1 this.symm with h | h
      · exact h
      · exact absurd h (ten_pow_pos _).ne'
    simp [normal, normalized, stripped, atto, zero]
  · obtain ⟨le, value, -⟩ := d.normal_spec zero
    rw [d.normal.atto_lift le d.scale_le, ← value, atto]

theorem toRat_normal : d.normal.toRat = d.toRat := by
  rw [toRat_eq_atto, toRat_eq_atto, atto_normal]

theorem roundToMultiple_floor_eq_ok {d step m : Dec} :
    d.roundToMultiple step .floor = .ok m ↔
      0 < step.units.val ∧ Fits 128 (d.commonUnits step) ∧ Fits 128 (step.commonUnits d) ∧
      m.scale = max d.scale step.scale ∧
      m.units.val = d.commonUnits step / step.commonUnits d * step.commonUnits d := by
  by_cases positive : 0 < step.units.val
  · rcases roundToMultipleCalc_common d .floor positive with ⟨overflow, misfit⟩ | ⟨a, b, value, unit, h⟩
    · rw [roundToMultiple, overflow]
      constructor
      · rintro ⟨⟩
      · rintro ⟨-, first, second, -⟩
        exact absurd ⟨first, second⟩ misfit
    · have firstFits : Fits 128 (d.commonUnits step) := value ▸ a.fits
      have secondFits : Fits 128 (step.commonUnits d) := unit ▸ b.fits
      rw [roundToMultiple, h]
      simp only [adjust, Calc.ofArith_pure, pure_bind, positive, firstFits, secondFits, true_and]
      cases product : (a.divEuclid b).checkedMul b.toSInt with
      | none =>
          have misfit := SInt.checked_eq_none.1 product
          constructor
          · rintro ⟨⟩
          · rintro ⟨-, units⟩
            apply absurd _ misfit
            have : (a.divEuclid b).val * b.toSInt.val = m.units.val := by
              rw [units, ← value, ← unit]
              rfl
            rw [this]
            exact m.units.fits
      | some units =>
          have exact := SInt.checked_eq_some.1 product
          have product' : units.val =
              d.commonUnits step / step.commonUnits d * step.commonUnits d := by
            rw [exact, ← value, ← unit]
            rfl
          constructor
          · intro done
            obtain rfl := Except.ok.inj done
            exact ⟨rfl, product'⟩
          · rintro ⟨scale, same⟩
            have : units = m.units := SInt.ext_val (product'.trans same.symm)
            subst this
            cases m
            cases scale
            rfl
  · rw [roundToMultiple, roundToMultipleCalc_badStep d .floor (not_lt.1 positive)]
    constructor
    · rintro ⟨⟩
    · rintro ⟨yes, -⟩
      exact absurd yes positive

theorem commonUnits_pos {d : Dec} (step : Dec) (positive : 0 < d.units.val) : 0 < d.commonUnits step :=
  mul_pos positive (ten_pow_pos _)

theorem roundToMultiple_floor_again {d d' step m : Dec} (multiple : d.roundToMultiple step .floor = .ok m)
    (scale : d'.scale = d.scale) (value : d'.commonUnits step = m.units.val) :
    d'.roundToMultiple step .floor = .ok m := by
  obtain ⟨stepPos, -, unitFits, mScale, units⟩ := roundToMultiple_floor_eq_ok.1 multiple
  have unitPos : 0 < step.commonUnits d := commonUnits_pos d stepPos
  have sameUnit : step.commonUnits d' = step.commonUnits d := by
    rw [commonUnits, commonUnits, scale]
  refine roundToMultiple_floor_eq_ok.2 ⟨stepPos, value ▸ m.units.fits, sameUnit ▸ unitFits, ?_, ?_⟩
  · rw [mScale, scale]
  · rw [value, sameUnit, units, Int.mul_ediv_cancel _ unitPos.ne']

theorem roundToMultiple_floor_le {d step m : Dec} (multiple : d.roundToMultiple step .floor = .ok m) :
    m.units.val ≤ d.commonUnits step := by
  obtain ⟨stepPos, -, -, -, units⟩ := roundToMultiple_floor_eq_ok.1 multiple
  rw [units]
  exact Int.ediv_mul_le _ (commonUnits_pos d stepPos).ne'

theorem roundToMultiple_floor_pos {d step m : Dec} (multiple : d.roundToMultiple step .floor = .ok m)
    (positive : 0 < m.units.val) : 0 < d.units.val := by
  have bound := positive.trans_le (roundToMultiple_floor_le multiple)
  exact pos_of_mul_pos_left bound (ten_pow_pos _).le

theorem roundToMultiple_floor_nonneg {d step m : Dec} (multiple : d.roundToMultiple step .floor = .ok m)
    (nonneg : 0 ≤ d.units.val) : 0 ≤ m.units.val := by
  obtain ⟨stepPos, -, -, -, units⟩ := roundToMultiple_floor_eq_ok.1 multiple
  have unitPos := commonUnits_pos d stepPos
  have top : 0 ≤ d.commonUnits step := mul_nonneg nonneg (ten_pow_pos _).le
  rw [units]
  exact mul_nonneg (Int.ediv_nonneg top unitPos.le) unitPos.le

theorem atto_roundToMultiple_floor_le {d step m : Dec} (multiple : d.roundToMultiple step .floor = .ok m) :
    m.atto ≤ d.atto := by
  obtain ⟨-, -, -, scale, -⟩ := roundToMultiple_floor_eq_ok.1 multiple
  have within : max d.scale step.scale ≤ maxScale := max_le d.scale_le step.scale_le
  rw [d.atto_lift (le_max_left d.scale step.scale) within, atto, scale]
  exact mul_le_mul_of_nonneg_right (roundToMultiple_floor_le multiple) (ten_pow_pos _).le

theorem toRat_roundToMultiple_floor {d step m : Dec} (multiple : d.roundToMultiple step .floor = .ok m) :
    m.toRat = (⌊d.toRat / step.toRat⌋ : ℚ) * step.toRat := by
  obtain ⟨stepPos, -⟩ := roundToMultiple_floor_eq_ok.1 multiple
  rcases roundToMultipleCalc_exact d .floor stepPos (fun _ _ _ absurd => nomatch absurd) with
    overflow | ⟨r, exact, value⟩
  · rw [roundToMultiple, overflow] at multiple
    cases multiple
  · rw [roundToMultiple, exact] at multiple
    obtain rfl := Except.ok.inj multiple
    exact value

theorem normal_scale_le_iff (nonzero : d.units.val ≠ 0) (dp : Nat) :
    d.normal.scale ≤ dp ↔ ∃ k : Int, d.toRat = k / 10 ^ dp := by
  obtain ⟨-, value, last⟩ := d.normal_spec nonzero
  rw [← toRat_normal]
  constructor
  · intro le
    refine ⟨d.normal.units.val * 10 ^ (dp - d.normal.scale), ?_⟩
    rw [eq_div_iff (by positivity), toRat_mul_pow _ le]
  · rintro ⟨k, digits⟩
    by_contra beyond
    have gt : dp < d.normal.scale := not_le.1 beyond
    have whole : d.normal.units.val = k * 10 ^ (d.normal.scale - dp) := by
      rw [eq_div_iff (by positivity), toRat_mul_pow_of_gt _ gt, div_eq_iff (by positivity)] at digits
      exact_mod_cast digits
    rcases last with none | last
    · omega
    · apply last
      rw [whole]
      exact Dvd.dvd.mul_left (dvd_pow_self 10 (by omega)) k

end Dec

end BrokerAdapters
