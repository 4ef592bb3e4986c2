import SignalEngine.BrokerAdapters.DecimalRounding
import SignalEngine.RebalancerCore.DecMath

/-! # Exactness of decimal arithmetic

One type for every arithmetic operation on decimals, what each of them computes
(with the record of what wrapped), what it documents, and the inputs on which it
keeps that promise: exact, rounded as documented, or an error.
-/

open MachineInt BrokerAdapters Outcome

namespace RebalancerCore

open DecMath

namespace DecMath

/-- The decimal text shown for a finite float, as a literal. -/
def FloatText.literal (negative : Bool) (int frac : List (Fin 10)) : Dec.Literal :=
  ⟨negative, digitChars int, digitChars frac, 0⟩

def RatioRound.toInt : RatioRound → ℚ → Int
  | .down, x => ⌊x⌋
  | .up, x => ⌈x⌉

/-- `v < 0.0`: minus zero is not negative. -/
def FloatText.isNegative (negative : Bool) (int frac : List (Fin 10)) : Bool :=
  negative && (int ++ frac).any isNonzeroDigit

theorem allDigits_digitChars (digits : List (Fin 10)) :
    Text.allDigits (digitChars digits) = true := by
  have each : ∀ d : Fin 10, (Nat.digitChar d).isDigit = true := by decide
  simp [Text.allDigits, digitChars, each]

theorem digitChars_append (as bs : List (Fin 10)) :
    digitChars (as ++ bs) = digitChars as ++ digitChars bs :=
  List.map_append

@[simp] theorem length_digitChars (digits : List (Fin 10)) :
    (digitChars digits).length = digits.length := List.length_map _

/-- The number a list of digits shows. -/
def shownNat (digits : List (Fin 10)) : Nat := Nat.ofDigitChars 10 (digitChars digits) 0

theorem shownNat_cons (d : Fin 10) (digits : List (Fin 10)) :
    shownNat (d :: digits) = 10 ^ digits.length * d + shownNat digits := by
  rw [shownNat, digitChars, List.map_cons, Nat.ofDigitChars_cons_digitChar_of_lt_ten d.isLt,
    Nat.ofDigitChars_eq_ofDigitChars_zero]
  simp [shownNat, digitChars]

theorem shownNat_append (as bs : List (Fin 10)) :
    shownNat (as ++ bs) = 10 ^ bs.length * shownNat as + shownNat bs := by
  rw [shownNat, digitChars_append, Nat.ofDigitChars_append, Nat.ofDigitChars_eq_ofDigitChars_zero,
    length_digitChars]
  rfl

theorem shownNat_lt (digits : List (Fin 10)) : shownNat digits < 10 ^ digits.length := by
  induction digits with
  | nil => decide
  | cons d digits ih =>
      rw [shownNat_cons, List.length_cons, pow_succ]
      have digit : (d : Nat) ≤ 9 := by omega
      nlinarith

theorem shownNat_eq_zero (digits : List (Fin 10)) :
    shownNat digits = 0 ↔ digits.any isNonzeroDigit = false := by
  induction digits with
  | nil => simp [shownNat, digitChars]
  | cons d digits ih =>
      rw [shownNat_cons, Nat.add_eq_zero_iff, ih, List.any_cons, Bool.or_eq_false_iff]
      simp [isNonzeroDigit]

end DecMath

inductive DecOp where
  | roundDp (d : Dec) (dp : Nat) (mode : Rounding)
  | roundToMultiple (d step : Dec) (mode : Rounding)
  | toFixed (d : Dec) (dp : Nat)
  | checkedAdd (a b : Dec)
  | checkedMul (a b : Dec)
  | parse (text : String)
  | neg (a : Dec)
  | abs (a : Dec)
  | add (a b : Dec)
  | sub (a b : Dec)
  | mul (a b : Dec)
  | sum (items : List Dec)
  | divFloor (n d : Dec) (dp : Nat)
  | ratioToDec (v : F64) (round : RatioRound)

namespace DecOp

inductive Answer where
  | dec (d : Dec)
  | text (s : String)
  deriving DecidableEq

inductive Failure where
  | dec (e : DecError)
  | math (e : MathError)
  | absent
  deriving DecidableEq

/-- The same computation, with its answer and its error tagged. -/
def tagged {ε α : Type} (failure : ε → Failure) (answer : α → Answer) (x : Calc ε α) :
    Calc Failure Answer :=
  ExceptT.mk (⟨match x.result with
    | .ok a => .ok (answer a)
    | .error e => .error (failure e), x.wrapped⟩)

/-- A computation all of whose machine operations are checked. -/
def allChecked (x : Except MathError Dec) : Calc Failure Answer :=
  tagged .math .dec (Calc.ofExcept x)

def run : DecOp → Calc Failure Answer
  | .roundDp d dp mode => tagged .dec .dec (d.roundDpCalc dp mode)
  | .roundToMultiple d step mode => tagged .dec .dec (d.roundToMultipleCalc step mode)
  | .toFixed d dp => tagged .dec .text (d.toFixedCalc dp)
  | .checkedAdd a b => tagged (fun _ => .absent) .dec (Calc.checked () (a.checkedAdd b))
  | .checkedMul a b => tagged (fun _ => .absent) .dec (Calc.checked () (a.checkedMul b))
  | .parse text => tagged .dec .dec (Dec.parseCalc text)
  | .neg a => allChecked (DecMath.neg a)
  | .abs a => allChecked (DecMath.abs a)
  | .add a b => allChecked (DecMath.add a b)
  | .sub a b => allChecked (DecMath.sub a b)
  | .mul a b => allChecked (DecMath.mul a b)
  | .sum items => allChecked (DecMath.sum items)
  | .divFloor n d dp => allChecked (DecMath.divFloor n d dp)
  | .ratioToDec v round => allChecked (DecMath.ratioToDec v round)

/-- The exact product, floored to 18 digits when it has more of its own. -/
def product (a b : Dec) : ℚ :=
  if a.scale + b.scale ≤ maxScale then a.toRat * b.toRat
  else ⌊a.toRat * b.toRat * 10 ^ maxScale⌋ / 10 ^ maxScale

/-- The documented result, in rational numbers. -/
def Exact : DecOp → Answer → Prop
  | .roundDp d dp mode, .dec r => r.toRat = mode.toInt (d.toRat * 10 ^ dp) / 10 ^ dp
  | .roundToMultiple d step mode, .dec r =>
      r.toRat = mode.toInt (d.toRat / step.toRat) * step.toRat
  | .toFixed d dp, .text s =>
      ∃ l, Dec.readLiteral s.toList = some l ∧ l.value = d.toRat ∧ l.frac.length = dp
  | .checkedAdd a b, .dec r => r.toRat = a.toRat + b.toRat
  | .checkedMul a b, .dec r => r.toRat = product a b
  | .parse text, .dec r => ∃ l, Dec.readLiteral text.toList = some l ∧ r.toRat = l.value
  | .neg a, .dec r => r.toRat = -a.toRat
  | .abs a, .dec r => r.toRat = |a.toRat|
  | .add a b, .dec r => r.toRat = a.toRat + b.toRat
  | .sub a b, .dec r => r.toRat = a.toRat - b.toRat
  | .mul a b, .dec r => r.toRat = product a b
  | .sum items, .dec r => r.toRat = (items.map Dec.toRat).sum
  | .divFloor n d dp, .dec r => r.toRat = ⌊n.toRat / d.toRat * 10 ^ dp⌋ / 10 ^ dp
  | .ratioToDec ⟨.finite negative int frac _, _⟩ round, .dec r =>
      r.toRat = round.toInt ((FloatText.literal negative int frac).value * 10 ^ maxScale) /
        10 ^ maxScale
  | _, _ => False

/-- Overflow, or the divisor the division does not accept. -/
def Failure.isOverflow : Failure → Bool
  | .dec .overflow => true
  | .math .overflow => true
  | .math .badDivisor => true
  | .absent => true
  | _ => false

/-- An argument outside the documented domain, with the error that names it. -/
def Refuses : DecOp → Failure → Prop
  | .roundDp _ dp _, .dec e => maxScale < dp ∧ e = .scaleTooLarge dp
  | .roundToMultiple _ step _, .dec e => step.toRat ≤ 0 ∧ e = .badStep
  | .toFixed d dp, .dec e =>
      (maxScale < dp ∧ e = .scaleTooLarge dp) ∨
        ((¬ ∃ k : Int, d.toRat = k / 10 ^ dp) ∧ e = .tooPrecise d.display)
  | .parse text, .dec e =>
      (Dec.readLiteral text.toList = none ∧ e = .invalid text) ∨
        ∃ l, Dec.readLiteral text.toList = some l ∧ (¬ ∃ k : Int, l.value = k / 10 ^ maxScale) ∧
          e = .tooPrecise text
  | .ratioToDec v _, .math e =>
      (∃ why, e = .badRatio v.debug why) ∧
        match v.shown with
        | .finite negative int frac _ =>
            FloatText.isNegative negative int frac = true ∨
              ¬ Fits 128 (shownNat (int ++ frac.take maxScale))
        | _ => True
  | _, _ => False

/-- Nothing wraps on the way; the answer is the documented one; the only errors
    are overflows and refused arguments. -/
def Sound (op : DecOp) : Prop :=
  op.run.wrapped = false ∧
    match op.run.result with
    | .ok answer => op.Exact answer
    | .error e => e.isOverflow = true ∨ op.Refuses e

/-- The inputs that reach no unchecked overflow: the lift of `round_dp` and
    `to_fixed`, the doubled remainder of `round_to_multiple`, and the 32-bit count
    of fractional digits of `parse`. -/
def Contained : DecOp → Prop
  | .roundDp d dp _ => d.LiftFits dp
  | .toFixed d dp => d.LiftFits dp
  | .roundToMultiple d step mode => d.RemainderFits step mode
  | .parse text => ∀ l, Dec.readLiteral text.toList = some l →
      2 ^ 32 ≤ l.frac.length → l.mantissa ≠ 0 → ¬ l.AcceptedAt (l.frac.length % 2 ^ 32)
  | _ => True

@[simp] theorem tagged_wrapped {ε α : Type} (failure : ε → Failure) (answer : α → Answer)
    (x : Calc ε α) : (tagged failure answer x).wrapped = x.wrapped := rfl

@[simp] theorem tagged_pure {ε α : Type} (failure : ε → Failure) (answer : α → Answer) (a : α) :
    tagged failure answer (pure a : Calc ε α) = pure (answer a) := rfl

@[simp] theorem tagged_throw {ε α : Type} (failure : ε → Failure) (answer : α → Answer) (e : ε) :
    tagged failure answer (throw e : Calc ε α) = throw (failure e) := rfl

theorem sound_of_pure (op : DecOp) (answer : Answer) (run : op.run = pure answer)
    (exact : op.Exact answer) : op.Sound := by
  unfold Sound
  rw [run]
  exact ⟨rfl, exact⟩

theorem sound_of_throw (op : DecOp) (e : Failure) (run : op.run = throw e)
    (allowed : e.isOverflow = true ∨ op.Refuses e) : op.Sound := by
  unfold Sound
  rw [run]
  exact ⟨rfl, allowed⟩

theorem not_sound_of_wrapped (op : DecOp) (wrapped : op.run.wrapped = true) : ¬ op.Sound := by
  intro sound
  rw [Sound, wrapped] at sound
  exact absurd sound.1 (by decide)

theorem sound_of_allChecked (op : DecOp) {x : Except MathError Dec}
    (run : op.run = allChecked x) (ok : ∀ r, x = .ok r → op.Exact (.dec r))
    (error : ∀ e, x = .error e → (Failure.math e).isOverflow = true ∨ op.Refuses (.math e)) :
    op.Sound := by
  cases result : x with
  | ok r => exact sound_of_pure op (.dec r) (by rw [run, result]; rfl) (ok r result)
  | error e => exact sound_of_throw op (.math e) (by rw [run, result]; rfl) (error e result)

theorem roundDp_sound_iff (d : Dec) (dp : Nat) (mode : Rounding) :
    Sound (.roundDp d dp mode) ↔ d.LiftFits dp := by
  constructor
  · intro sound within le
    by_contra wraps
    exact not_sound_of_wrapped (.roundDp d dp mode) (Dec.roundDpCalc_wraps d mode within le wraps) sound
  · intro calm
    by_cases within : dp ≤ maxScale
    · obtain ⟨r, run, -, exact⟩ := Dec.roundDpCalc_exact d mode within calm
      exact sound_of_pure _ (.dec r) (by rw [DecOp.run, run, tagged_pure]) exact
    · refine sound_of_throw _ (.dec (.scaleTooLarge dp)) ?_ (.inr ⟨not_le.1 within, rfl⟩)
      rw [DecOp.run, Dec.roundDpCalc, dif_neg within, tagged_throw]

theorem toFixed_sound_iff (d : Dec) (dp : Nat) : Sound (.toFixed d dp) ↔ d.LiftFits dp := by
  constructor
  · intro sound within le
    by_contra wraps
    refine not_sound_of_wrapped _ ?_ sound
    have first := Dec.roundDpCalc_wraps d .floor within le wraps
    rw [DecOp.run, tagged_wrapped, Dec.toFixedCalc]
    cases result : (d.roundDpCalc dp .floor).result with
    | ok r => rw [Calc.wrapped_bind_ok _ result, first, Bool.true_or]
    | error e => rw [Calc.wrapped_bind_error _ result, first]
  · intro calm
    by_cases within : dp ≤ maxScale
    · obtain ⟨r, run, scale, exact⟩ := Dec.roundDpCalc_exact d .floor within calm
      have fixed : DecOp.run (.toFixed d dp) =
          if compare r.atto d.atto ≠ .eq then throw (.dec (.tooPrecise d.display))
          else pure (.text r.display) := by
        rw [DecOp.run, Dec.toFixedCalc, run]
        simp only [pure_bind, Dec.cmpCalc_eq, Calc.ofArith_pure]
        split <;> simp
      have valueIff : compare r.atto d.atto = .eq ↔ r.toRat = d.toRat := by
        rw [compare_eq_iff_eq, Dec.toRat_eq_atto, Dec.toRat_eq_atto,
          div_left_inj' (by positivity), Int.cast_inj]
      by_cases same : compare r.atto d.atto = .eq
      · refine sound_of_pure _ (.text r.display) (by rw [fixed, if_neg (not_not.2 same)]) ?_
        refine ⟨r.shown, r.readLiteral_display, ?_, ?_⟩
        · rw [r.shown_value, valueIff.1 same]
        · rw [r.shown_frac_length, scale]
      · refine sound_of_throw _ (.dec (.tooPrecise d.display)) (by rw [fixed, if_pos same])
          (.inr (.inr ⟨?_, rfl⟩))
        rintro ⟨k, value⟩
        apply same
        rw [valueIff, exact, value, div_mul_cancel₀ _ (by positivity), Rounding.toInt_intCast]
    · refine sound_of_throw _ (.dec (.scaleTooLarge dp)) ?_
        (.inr (.inl ⟨not_le.1 within, rfl⟩))
      rw [DecOp.run, Dec.toFixedCalc, Dec.roundDpCalc, dif_neg within, Calc.throw_bind,
        tagged_throw]

theorem roundToMultiple_sound_iff (d step : Dec) (mode : Rounding) :
    Sound (.roundToMultiple d step mode) ↔ d.RemainderFits step mode := by
  constructor
  · intro sound
    by_contra wraps
    exact not_sound_of_wrapped (.roundToMultiple d step mode) (Dec.roundToMultipleCalc_wraps d mode wraps) sound
  · intro calm
    by_cases positive : 0 < step.units.val
    · rcases Dec.roundToMultipleCalc_exact d mode positive calm with run | ⟨r, run, exact⟩
      · exact sound_of_throw _ (.dec .overflow) (by rw [DecOp.run, run, tagged_throw]) (.inl rfl)
      · exact sound_of_pure _ (.dec r) (by rw [DecOp.run, run, tagged_pure]) exact
    · refine sound_of_throw _ (.dec .badStep) ?_ (.inr ⟨?_, rfl⟩)
      · rw [DecOp.run, Dec.roundToMultipleCalc_badStep d mode (not_lt.1 positive), tagged_throw]
      · have units : (step.units.val : ℚ) ≤ 0 := by exact_mod_cast not_lt.1 positive
        exact div_nonpos_of_nonpos_of_nonneg units (by positivity)

theorem long_literal_not_multiple {text : List Char} {l : Dec.Literal}
    (read : Dec.readLiteral text = some l) (long : 2 ^ 32 ≤ l.frac.length)
    (nonzero : l.mantissa ≠ 0) (fits : Fits 128 l.mantissa) :
    ¬ ∃ k : Int, l.value = k / 10 ^ maxScale := by
  rintro ⟨k, value⟩
  have expFits := Dec.readLiteral_exp_fits read
  have divides := l.dvd_of_valueAt_eq (by unfold Fits at expFits; omega) value
  have large : 39 ≤ ((l.frac.length : Int) - l.exp).toNat - maxScale := by
    unfold Fits maxScale at *
    omega
  have power : 10 ^ 39 ≤ l.mantissa :=
    le_trans (Nat.pow_le_pow_right (by decide) large)
      (Nat.le_of_dvd (Nat.pos_of_ne_zero nonzero) divides)
  unfold Fits at fits
  omega

theorem parse_sound_of_contained {text : String} (contained : Contained (.parse text)) :
    Sound (.parse text) := by
  cases read : Dec.readLiteral text.toList with
  | none =>
      refine sound_of_throw _ (.dec (.invalid text)) ?_ (.inr (.inl ⟨read, rfl⟩))
      rw [DecOp.run, Dec.parseCalc, read, tagged_throw]
  | some l =>
      have point : l.frac.length < 2 ^ 32 → l.frac.length % 2 ^ 32 = l.frac.length :=
        Nat.mod_eq_of_lt
      rcases Dec.parseCalc_cases read with
        ⟨r, run, accepted, value⟩ | ⟨run, -⟩ | ⟨run, nonneg, fits, precise⟩
      · refine sound_of_pure _ (.dec r) (by rw [DecOp.run, run, tagged_pure]) ⟨l, read, ?_⟩
        rw [value, Dec.Literal.value]
        by_cases short : l.frac.length < 2 ^ 32
        · rw [point short]
        · have zero : l.mantissa = 0 := by
            by_contra nonzero
            exact contained l read (not_lt.1 short) nonzero accepted
          rw [l.valueAt_of_mantissa_zero zero, l.valueAt_of_mantissa_zero zero]
      · exact sound_of_throw _ (.dec .overflow) (by rw [DecOp.run, run, tagged_throw]) (.inl rfl)
      · refine sound_of_throw _ (.dec (.tooPrecise text)) (by rw [DecOp.run, run, tagged_throw])
          (.inr (.inr ⟨l, read, ?_, rfl⟩))
        by_cases short : l.frac.length < 2 ^ 32
        · rintro ⟨k, exact⟩
          unfold Dec.Literal.netScale at nonneg precise
          rw [point short] at nonneg precise
          exact precise (l.dvd_of_valueAt_eq nonneg exact)
        · have nonzero : l.mantissa ≠ 0 := by
            intro zero
            rw [zero] at precise
            exact precise (dvd_zero _)
          exact long_literal_not_multiple read (not_lt.1 short) nonzero fits

theorem parse_contained_of_sound {text : String} (sound : Sound (.parse text)) :
    Contained (.parse text) := by
  intro l read long nonzero accepted
  rcases Dec.parseCalc_cases read with
    ⟨r, run, -, value⟩ | ⟨-, refused⟩ | ⟨-, nonneg, -, precise⟩
  · have exact : Exact (.parse text) (.dec r) := by
      have answer := sound.2
      rwa [DecOp.run, run, tagged_pure] at answer
    obtain ⟨l', read', same⟩ := exact
    obtain rfl : l = l' := Option.some.inj (read.symm.trans read')
    have moved := l.valueAt_inj nonzero (value.symm.trans same)
    have := Nat.mod_lt l.frac.length (by decide : 0 < 2 ^ 32)
    omega
  · exact refused accepted
  · rw [Dec.Literal.acceptedAt_read, if_neg (not_lt.2 nonneg)] at accepted
    exact precise accepted.2.2

theorem product_eq (a b : Dec) :
    product a b = (a.atto * b.atto / 10 ^ maxScale : Int) / 10 ^ maxScale := by
  have ratio : a.toRat * b.toRat * 10 ^ maxScale =
      ((a.atto * b.atto : Int) : ℚ) / ((10 ^ maxScale : Int) : ℚ) := by
    rw [Dec.toRat_eq_atto, Dec.toRat_eq_atto]
    push_cast
    field_simp
  have floored : ⌊a.toRat * b.toRat * 10 ^ maxScale⌋ = a.atto * b.atto / 10 ^ maxScale := by
    rw [ratio, DirectedRounding.floor_div (Dec.ten_pow_pos _)]
  unfold product
  split
  next within =>
      -- Without extra digits the product is a multiple of the last place already.
      have divides : (10 : Int) ^ maxScale ∣ a.atto * b.atto := by
        have aCap := a.scale_le
        have bCap := b.scale_le
        have factors : a.atto * b.atto = 10 ^ (maxScale - a.scale + (maxScale - b.scale)) *
            (a.units.val * b.units.val) := by
          unfold Dec.atto
          ring
        rw [factors]
        exact Dvd.dvd.mul_right (pow_dvd_pow 10 (by omega)) _
      have whole : a.toRat * b.toRat * 10 ^ maxScale =
          (a.atto * b.atto / 10 ^ maxScale : Int) := by
        rw [ratio, Int.cast_div divides (by exact_mod_cast (Dec.ten_pow_pos _).ne')]
      rw [← whole, mul_div_cancel_right₀ _ (by positivity)]
  next => rw [floored]

end DecOp

namespace DecMath

/-! Which errors the checked helpers return. -/

variable {a b : Dec} {e : MathError}

theorem add_error (h : add a b = .error e) : e = .overflow :=
  (orOverflow_eq_error.1 h).2

theorem mul_error (h : mul a b = .error e) : e = .overflow :=
  (orOverflow_eq_error.1 h).2

theorem neg_error (h : neg a = .error e) : e = .overflow := by
  rcases bind_eq_error.1 h with h | ⟨units, -, h⟩
  · exact (orOverflow_eq_error.1 h).2
  · cases h

theorem sub_error (h : sub a b = .error e) : e = .overflow := by
  rcases bind_eq_error.1 h with h | ⟨negated, -, h⟩
  · exact neg_error h
  · exact add_error h

theorem abs_error (h : abs a = .error e) : e = .overflow := by
  unfold abs at h
  split at h
  · exact neg_error h
  · cases h

theorem sum_error {items : List Dec} {e : MathError} : ∀ {start : Dec},
    items.foldlM add start = .error e → e = .overflow := by
  induction items with
  | nil =>
      intro start h
      cases h
  | cons item items ih =>
      intro start h
      rcases bind_eq_error.1 h with h | ⟨next, -, h⟩
      · exact add_error h
      · exact ih h

theorem checkedPow10_error {n : Nat} {e : MathError} (h : checkedPow10 n = .error e) :
    e = .overflow := by
  unfold checkedPow10 at h
  split at h
  · cases h
  · exact (Except.error.inj h).symm

theorem scaledFraction_error {n : Dec} {du : SInt.Positive 128} {ds dp : Nat} {e : MathError}
    (h : scaledFraction n du ds dp = .error e) : e = .overflow := by
  simp only [scaledFraction] at h
  split at h
  all_goals
    rcases bind_eq_error.1 h with h | ⟨m, -, h⟩
    · exact checkedPow10_error h
    · rcases bind_eq_error.1 h with h | ⟨product, -, h⟩
      · exact (orOverflow_eq_error.1 h).2
      · cases h

theorem divFloor_error {n d : Dec} {dp : Nat} {e : MathError} (h : divFloor n d dp = .error e) :
    e = .overflow ∨ e = .badDivisor := by
  unfold divFloor at h
  split at h
  · exact .inr (Except.error.inj h).symm
  · rcases bind_eq_error.1 h with h | ⟨⟨num, den⟩, -, h⟩
    · exact .inl (scaledFraction_error h)
    · simp only at h
      split at h
      · cases h
      · exact .inl (Except.error.inj h).symm

end DecMath

namespace DecOp

theorem overflow_allowed {op : DecOp} {e : MathError} (overflow : e = .overflow) :
    (Failure.math e).isOverflow = true ∨ op.Refuses (.math e) := by
  rw [overflow]
  exact .inl rfl

attribute [local simp] Exact run

variable {debug : String} {negative : Bool} {int frac : List (Fin 10)} {nonempty : int ≠ []} (round : RatioRound)
  (a : Dec)

theorem checkedAdd_sound (b : Dec) : Sound (.checkedAdd a b) := by
  cases result : a.checkedAdd b with
  | none => exact sound_of_throw _ .absent (by rw [run, result]; rfl) (.inl rfl)
  | some r =>
      refine sound_of_pure _ (.dec r) (by rw [run, result]; rfl) ?_
      simp only [Exact, Dec.toRat_eq_atto, Dec.atto_checkedAdd result]
      push_cast
      ring

theorem checkedMul_sound (b : Dec) : Sound (.checkedMul a b) := by
  cases result : a.checkedMul b with
  | none => exact sound_of_throw _ .absent (by rw [run, result]; rfl) (.inl rfl)
  | some r =>
      refine sound_of_pure _ (.dec r) (by rw [run, result]; rfl) ?_
      simp only [Exact, product_eq]
      rw [Dec.toRat_eq_atto, Dec.atto_checkedMul result]

theorem neg_sound : Sound (.neg a) := by
  refine sound_of_allChecked _ rfl (fun r ok => ?_) fun e error => overflow_allowed (neg_error error)
  simp only [Exact, Dec.toRat_eq_atto, neg_ok ok]
  push_cast
  ring

theorem abs_sound : Sound (.abs a) := by
  refine sound_of_allChecked _ rfl (fun r ok => ?_) fun e error => overflow_allowed (abs_error error)
  have positive : (0 : ℚ) < 10 ^ maxScale := by positivity
  simp only [Exact, Dec.toRat_eq_atto, abs_ok ok]
  rw [abs_div, abs_of_pos positive]
  push_cast
  rfl

theorem add_sound (b : Dec) : Sound (.add a b) := by
  refine sound_of_allChecked _ rfl (fun r ok => ?_) fun e error => overflow_allowed (add_error error)
  simp only [Exact, Dec.toRat_eq_atto, add_ok ok]
  push_cast
  ring

theorem sub_sound (b : Dec) : Sound (.sub a b) := by
  refine sound_of_allChecked _ rfl (fun r ok => ?_) fun e error => overflow_allowed (sub_error error)
  simp only [Exact, Dec.toRat_eq_atto, sub_ok ok]
  push_cast
  ring

theorem mul_sound (b : Dec) : Sound (.mul a b) := by
  refine sound_of_allChecked _ rfl (fun r ok => ?_) fun e error => overflow_allowed (mul_error error)
  simp only [Exact, product_eq]
  rw [Dec.toRat_eq_atto, mul_ok ok]

theorem sum_toRat (items : List Dec) :
    (items.map Dec.toRat).sum = ((items.map Dec.atto).sum : Int) / 10 ^ maxScale := by
  induction items with
  | nil => simp
  | cons item items ih =>
      rw [List.map_cons, List.sum_cons, ih, Dec.toRat_eq_atto, List.map_cons, List.sum_cons]
      push_cast
      ring

theorem sum_sound (items : List Dec) : Sound (.sum items) := by
  refine sound_of_allChecked _ rfl (fun r ok => ?_) fun e error => overflow_allowed (sum_error error)
  simp only [Exact]
  rw [Dec.toRat_eq_atto, sum_ok ok, sum_toRat]

theorem divFloor_sound (n d : Dec) (dp : Nat) : Sound (.divFloor n d dp) := by
  refine sound_of_allChecked _ rfl (fun r ok => ?_) fun e error => ?_
  · obtain ⟨positive, within, quotient⟩ := divFloor_ok ok
    have dNonzero : (d.atto : ℚ) ≠ 0 := by exact_mod_cast positive.ne'
    have ratio : n.toRat / d.toRat * 10 ^ dp = ((n.atto * 10 ^ dp : Int) : ℚ) / d.atto := by
      rw [Dec.toRat_eq_atto, Dec.toRat_eq_atto]
      push_cast
      field_simp
    have powers : (10 : ℚ) ^ maxScale = 10 ^ (maxScale - dp) * 10 ^ dp := by
      rw [← pow_add, Nat.sub_add_cancel within]
    simp only [Exact]
    rw [ratio, DirectedRounding.floor_div positive, Dec.toRat_eq_atto, quotient, powers]
    push_cast
    field_simp
  · rcases divFloor_error error with rfl | rfl
    · exact .inl rfl
    · exact .inl rfl

theorem literal_value (nonneg : FloatText.isNegative negative int frac = false) :
    (FloatText.literal negative int frac).value = shownNat (int ++ frac) / 10 ^ frac.length := by
  have mantissa : (FloatText.literal negative int frac).mantissa = shownNat (int ++ frac) := by
    simp [Dec.Literal.mantissa, FloatText.literal, shownNat, digitChars_append]
  have point : ((FloatText.literal negative int frac).frac.length : Int) -
      (FloatText.literal negative int frac).exp = frac.length := by
    simp [FloatText.literal]
  rw [Dec.Literal.value, Dec.Literal.valueAt_eq_div _ (by omega), point, mantissa]
  cases negative with
  | false => rfl
  | true =>
      have zero : shownNat (int ++ frac) = 0 := (shownNat_eq_zero _).2 nonneg
      simp [zero]

/-- At most 18 fractional digits are read exactly, or do not fit. -/
theorem parse_shown (negative : Bool) {int frac : List (Fin 10)} (nonempty : int ≠ [])
    (short : frac.length ≤ maxScale) :
    let text := String.ofList (Dec.plainText negative (digitChars int) (digitChars frac))
    (∃ r, Dec.parse text = .ok r ∧ r.toRat = (FloatText.literal negative int frac).value ∧
      Fits 128 (shownNat (int ++ frac))) ∨
    (Dec.parse text = .error .overflow ∧ ¬ Fits 128 (shownNat (int ++ frac))) := by
  have filled : digitChars int ≠ [] := by simpa [digitChars] using nonempty
  have read : Dec.readLiteral
      (String.ofList (Dec.plainText negative (digitChars int) (digitChars frac))).toList =
        some (FloatText.literal negative int frac) := by
    rw [String.toList_ofList]
    exact Dec.readLiteral_plain _ (allDigits_digitChars _) (allDigits_digitChars _) filled
  have cap : maxScale = 18 := rfl
  have whole : (FloatText.literal negative int frac).frac.length % 2 ^ 32 =
      (FloatText.literal negative int frac).frac.length := by
    apply Nat.mod_eq_of_lt
    simp only [FloatText.literal, length_digitChars]
    omega
  have point : (FloatText.literal negative int frac).netScale = frac.length := by
    rw [Dec.Literal.netScale, whole]
    simp [FloatText.literal]
  have few : (FloatText.literal negative int frac).netScale.toNat - maxScale = 0 := by omega
  simp only [Dec.parse]
  have mantissa : (FloatText.literal negative int frac).mantissa = shownNat (int ++ frac) := by
    simp [Dec.Literal.mantissa, FloatText.literal, shownNat, digitChars_append]
  rcases Dec.parseCalc_cases read with ⟨r, run, accepted, value⟩ | ⟨run, refused⟩ | ⟨-, -, -, precise⟩
  · rw [whole] at value
    have fits := (Dec.Literal.acceptedAt_read.1 accepted).1
    rw [mantissa] at fits
    exact .inl ⟨r, by rw [run]; rfl, value, fits⟩
  · refine .inr ⟨by rw [run]; rfl, fun fits => refused ?_⟩
    rw [Dec.Literal.acceptedAt_read, if_neg (by omega), few]
    refine ⟨?_, by omega, one_dvd _⟩
    rw [mantissa]
    exact fits
  · rw [few] at precise
    exact absurd (one_dvd _) precise

theorem readShown_shown (debug : String) (negative : Bool) {int frac : List (Fin 10)}
    (nonempty : int ≠ []) (short : frac.length ≤ maxScale) :
    let text := Dec.plainText negative (digitChars int) (digitChars frac)
    (∃ r, readShown debug text = .ok r ∧ r.toRat = (FloatText.literal negative int frac).value ∧
      Fits 128 (shownNat (int ++ frac))) ∨
    (readShown debug text = .error (.badRatio debug "not a decimal") ∧
      ¬ Fits 128 (shownNat (int ++ frac))) := by
  simp only [readShown]
  rcases parse_shown negative nonempty short with ⟨r, parsed, exact⟩ | ⟨parsed, misfit⟩
  · exact .inl ⟨r, by rw [parsed], exact⟩
  · exact .inr ⟨by rw [parsed], misfit⟩

theorem ratioToDec_long (debug : String) {negative : Bool} {int frac : List (Fin 10)}
    (nonempty : int ≠ []) (round : RatioRound)
    (nonneg : FloatText.isNegative negative int frac = false) (long : ¬ frac.length ≤ 18) :
    DecMath.ratioToDec ⟨.finite negative int frac nonempty, debug⟩ round = (do
      let base ← readShown debug
        (Dec.plainText negative (digitChars int) (digitChars (frac.take 18)))
      if round = .up ∧ (frac.drop 18).any isNonzeroDigit then
        DecMath.add base ⟨⟨1, by decide⟩, 18, by decide⟩
      else .ok base) := by
  have filled : frac ≠ [] := by
    rintro rfl
    exact long (by decide)
  have kept : digitChars (frac.take 18) ≠ [] := by
    simp [digitChars, filled]
  unfold FloatText.isNegative at nonneg
  simp only [DecMath.ratioToDec, nonneg, Bool.false_eq_true, if_false, filled, long, Dec.plainText, kept,
    signChars]

section

variable (nonneg : FloatText.isNegative negative int frac = false)

include nonneg

theorem ratioToDec_short (short : frac.length ≤ 18) :
    DecMath.ratioToDec ⟨.finite negative int frac nonempty, debug⟩ round =
      readShown debug (Dec.plainText negative (digitChars int) (digitChars frac)) := by
  unfold FloatText.isNegative at nonneg
  by_cases filled : frac = []
  · subst filled
    rw [List.append_nil] at nonneg
    simp only [DecMath.ratioToDec, List.append_nil, nonneg, Bool.false_eq_true, if_false, if_true,
      Dec.plainText, signChars, digitChars, List.map_nil]
  · have kept : digitChars frac ≠ [] := by
      simp [digitChars, filled]
    simp only [DecMath.ratioToDec, nonneg, Bool.false_eq_true, if_false, filled, short, if_true,
      Dec.plainText, kept, signChars]

theorem shown_scaled (long : maxScale ≤ frac.length) :
    (FloatText.literal negative int frac).value * 10 ^ maxScale =
      ((10 ^ (frac.length - maxScale) * shownNat (int ++ frac.take maxScale) +
        shownNat (frac.drop maxScale) : Int) : ℚ) / ((10 ^ (frac.length - maxScale) : Int) : ℚ) := by
  have whole : shownNat (int ++ frac) =
      10 ^ (frac.length - maxScale) * shownNat (int ++ frac.take maxScale) +
        shownNat (frac.drop maxScale) := by
    conv_lhs => rw [← List.take_append_drop maxScale frac, ← List.append_assoc, shownNat_append]
    rw [List.length_drop]
  have powers : (10 : ℚ) ^ frac.length = 10 ^ (frac.length - maxScale) * 10 ^ maxScale := by
    rw [← pow_add, Nat.sub_add_cancel long]
  rw [literal_value nonneg, whole, powers]
  push_cast
  field_simp

theorem ratioToDec_long_exact (long : maxScale < frac.length) :
    round.toInt ((FloatText.literal negative int frac).value * 10 ^ maxScale) =
    (shownNat (int ++ frac.take maxScale) +
      if round = .up ∧ (frac.drop maxScale).any isNonzeroDigit then 1 else 0 : Int) := by
  have small := shownNat_lt (frac.drop maxScale)
  rw [List.length_drop] at small
  have smallInt : (shownNat (frac.drop maxScale) : Int) < 10 ^ (frac.length - maxScale) := by
    exact_mod_cast small
  have quotient : (10 ^ (frac.length - maxScale) * shownNat (int ++ frac.take maxScale) +
      shownNat (frac.drop maxScale) : Int) / 10 ^ (frac.length - maxScale) =
        shownNat (int ++ frac.take maxScale) := by
    rw [Int.mul_add_ediv_left _ _ (Dec.ten_pow_pos _).ne', Int.ediv_eq_zero_of_lt (by omega) smallInt,
      add_zero]
  have remainder : (10 ^ (frac.length - maxScale) * shownNat (int ++ frac.take maxScale) +
      shownNat (frac.drop maxScale) : Int) % 10 ^ (frac.length - maxScale) =
        shownNat (frac.drop maxScale) := by
    rw [Int.mul_add_emod_self_left, Int.emod_eq_of_lt (by omega) smallInt]
  rw [shown_scaled nonneg long.le]
  cases round with
  | down =>
      simp only [RatioRound.toInt, DirectedRounding.floor_div (Dec.ten_pow_pos _), quotient]
      simp
  | up =>
      simp only [RatioRound.toInt, DirectedRounding.ceil_div (Dec.ten_pow_pos _), quotient, remainder]
      have rest : (shownNat (frac.drop maxScale) : Int) ≠ 0 ↔
          (frac.drop maxScale).any isNonzeroDigit = true := by
        rw [Ne, Int.natCast_eq_zero, shownNat_eq_zero, Bool.not_eq_false]
      simp only [rest, true_and]

theorem shown_scaled_short (short : frac.length ≤ maxScale) :
    (FloatText.literal negative int frac).value * 10 ^ maxScale =
      (shownNat (int ++ frac) * 10 ^ (maxScale - frac.length) : Int) := by
  have powers : (10 : ℚ) ^ maxScale = 10 ^ frac.length * 10 ^ (maxScale - frac.length) := by
    rw [← pow_add, Nat.add_sub_cancel' short]
  rw [literal_value nonneg, powers]
  push_cast
  field_simp

theorem ratioToDec_short_sound (short : frac.length ≤ maxScale) :
    Sound (.ratioToDec ⟨.finite negative int frac nonempty, debug⟩ round) := by
  rcases readShown_shown debug negative nonempty short with ⟨r, read, value, -⟩ | ⟨read, misfit⟩
  · refine sound_of_pure _ (.dec r) ?_ ?_
    · rw [run, ratioToDec_short round nonneg short, read]
      rfl
    · have whole (n : Int) : round.toInt n = n := by
        cases round with
        | down => exact Int.floor_intCast n
        | up => exact Int.ceil_intCast n
      simp only [Exact]
      rw [shown_scaled_short nonneg short, whole, ← shown_scaled_short nonneg short, value,
        mul_div_cancel_right₀ _ (by positivity)]
  · refine sound_of_throw _ (.math (.badRatio debug "not a decimal")) ?_ (.inr ?_)
    · rw [run, ratioToDec_short round nonneg short, read]
      rfl
    · refine ⟨⟨_, rfl⟩, .inr ?_⟩
      rwa [List.take_of_length_le short]

theorem ratioToDec_long_sound (long : maxScale < frac.length) :
    Sound (.ratioToDec ⟨.finite negative int frac nonempty, debug⟩ round) := by
  have keptLength : (frac.take maxScale).length = maxScale := by
    rw [List.length_take]
    omega
  have keptNonneg : FloatText.isNegative negative int (frac.take maxScale) = false := by
    unfold FloatText.isNegative at nonneg ⊢
    rw [Bool.and_eq_false_iff] at nonneg ⊢
    refine nonneg.imp id fun zero => ?_
    rw [List.any_append, Bool.or_eq_false_iff] at zero ⊢
    refine ⟨zero.1, ?_⟩
    have parts := zero.2
    rw [← List.take_append_drop maxScale frac, List.any_append, Bool.or_eq_false_iff] at parts
    exact parts.1
  have split := ratioToDec_long debug nonempty round nonneg (not_le.2 long)
  have rounded := ratioToDec_long_exact round nonneg long
  rcases readShown_shown debug negative nonempty keptLength.le with
    ⟨base, read, value, -⟩ | ⟨read, misfit⟩
  · have baseValue : base.toRat = shownNat (int ++ frac.take maxScale) / 10 ^ maxScale := by
      rw [value, literal_value keptNonneg, keptLength]
    have result : DecMath.ratioToDec ⟨.finite negative int frac nonempty, debug⟩ round =
        if round = .up ∧ (frac.drop maxScale).any isNonzeroDigit then
          DecMath.add base ⟨⟨1, by decide⟩, 18, by decide⟩
        else .ok base := by
      simp only [maxScale] at read
      rw [split, read]
      rfl
    refine sound_of_allChecked _ rfl (fun r ok => ?_) fun e error => ?_
    · simp only [Exact, rounded]
      rw [result] at ok
      split at ok
      next up =>
          have total := add_ok ok
          have unit : (⟨⟨1, by decide⟩, 18, by decide⟩ : Dec).atto = 1 := by decide
          rw [unit] at total
          rw [Dec.toRat_eq_atto] at baseValue ⊢
          have baseUnits : (base.atto : ℚ) = shownNat (int ++ frac.take maxScale) :=
            (div_left_inj' (by positivity)).1 baseValue
          rw [total, if_pos up]
          push_cast
          rw [baseUnits]
      next down =>
          cases ok
          rw [if_neg down, baseValue]
          push_cast
          ring
    · rw [result] at error
      split at error
      · exact overflow_allowed (add_error error)
      · cases error
  · refine sound_of_throw _ (.math (.badRatio debug "not a decimal")) ?_
      (.inr ⟨⟨_, rfl⟩, .inr misfit⟩)
    simp only [maxScale] at read
    rw [run, split, read]
    rfl

end

theorem ratioToDec_sound (v : F64) (round : RatioRound) : Sound (.ratioToDec v round) := by
  obtain ⟨shown, debug⟩ := v
  cases shown with
  | nan =>
      exact sound_of_throw _ (.math (.badRatio debug "not finite")) rfl (.inr ⟨⟨_, rfl⟩, trivial⟩)
  | infinite negative =>
      exact sound_of_throw _ (.math (.badRatio debug "not finite")) rfl (.inr ⟨⟨_, rfl⟩, trivial⟩)
  | finite negative int frac nonempty =>
      by_cases below : FloatText.isNegative negative int frac = true
      · refine sound_of_throw _ (.math (.badRatio debug "negative")) ?_
          (.inr ⟨⟨_, rfl⟩, .inl below⟩)
        unfold FloatText.isNegative at below
        simp only [run, DecMath.ratioToDec, below, if_true]
        rfl
      · rw [Bool.not_eq_true] at below
        rcases le_or_gt frac.length maxScale with short | long
        · exact ratioToDec_short_sound round below short
        · exact ratioToDec_long_sound round below long

/-- An operation keeps its promise exactly on the inputs that reach no unchecked
    overflow. -/
theorem sound_iff_contained (op : DecOp) : op.Sound ↔ op.Contained := by
  cases op with
  | roundDp d dp mode => exact roundDp_sound_iff d dp mode
  | roundToMultiple d step mode => exact roundToMultiple_sound_iff d step mode
  | toFixed d dp => exact toFixed_sound_iff d dp
  | parse text => exact ⟨parse_contained_of_sound, parse_sound_of_contained⟩
  | checkedAdd a b => exact iff_of_true (checkedAdd_sound a b) trivial
  | checkedMul a b => exact iff_of_true (checkedMul_sound a b) trivial
  | neg a => exact iff_of_true (neg_sound a) trivial
  | abs a => exact iff_of_true (abs_sound a) trivial
  | add a b => exact iff_of_true (add_sound a b) trivial
  | sub a b => exact iff_of_true (sub_sound a b) trivial
  | mul a b => exact iff_of_true (mul_sound a b) trivial
  | sum items => exact iff_of_true (sum_sound items) trivial
  | divFloor n d dp => exact iff_of_true (divFloor_sound n d dp) trivial
  | ratioToDec v round => exact iff_of_true (ratioToDec_sound v round) trivial

/-- A thousand million million million, brought to 18 digits, comes back negative. -/
theorem roundDp_wraps_at_ten_pow_21 :
    Dec.roundDp ⟨⟨10 ^ 21, by decide⟩, 0, by decide⟩ 18 .floor =
        .ok ⟨⟨-20847100762815390390123822295304634368, by decide⟩, 18, by decide⟩ ∧
      ¬ Sound (.roundDp ⟨⟨10 ^ 21, by decide⟩, 0, by decide⟩ 18 .floor) := by
  refine ⟨by decide, fun sound => ?_⟩
  exact absurd sound.1 (by decide)

end DecOp

end RebalancerCore
