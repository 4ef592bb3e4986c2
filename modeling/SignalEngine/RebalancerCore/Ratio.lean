import SignalEngine.RebalancerCore.Exactness

/-! # Ratios

A float is read as the decimal its text denotes. Floats compare as these decimals
do, and the decimal a ratio becomes is the one cut at 18 digits.
-/

open MachineInt BrokerAdapters Outcome

namespace RebalancerCore.DecMath

/-- The decimal its text denotes; a text that is not a number is worth nothing. -/
def F64.value (v : F64) : ℚ :=
  match v.shown with
  | .finite negative int frac _ =>
      (if negative then -(shownNat (int ++ frac)) else shownNat (int ++ frac) : ℚ) / 10 ^ frac.length
  | _ => 0

namespace F64

def isFinite (v : F64) : Bool :=
  match v.shown with
  | .finite .. => true
  | _ => false

/-- `<`: nothing compares with NaN. -/
def lt (a b : F64) : Bool :=
  match a.shown, b.shown with
  | .nan, _ => false
  | _, .nan => false
  | .infinite negative, .infinite negative' => negative && !negative'
  | .infinite negative, .finite .. => negative
  | .finite .., .infinite negative => !negative
  | .finite .., .finite .. => a.value < b.value

/-- `<=` -/
def le (a b : F64) : Bool := a.shown != .nan && b.shown != .nan && !b.lt a

def zero : F64 := ⟨.finite false [0] [] zeroDigit_ne, "0.0"⟩

def one : F64 := ⟨.finite false [1] [] (by decide), "1.0"⟩

/-- `{}` -/
def display (v : F64) : String :=
  match v.shown with
  | .nan => "NaN"
  | .infinite negative => if negative then "-inf" else "inf"
  | .finite negative int frac _ => String.ofList (Dec.plainText negative (digitChars int) (digitChars frac))

end F64


/-! ## What is compared and what is read -/

namespace F64

variable {v a b : F64}

theorem value_literal {negative : Bool} {int frac : List (Fin 10)} {nonempty : int ≠ []}
    (shown : v.shown = .finite negative int frac nonempty) : v.value = (FloatText.literal negative int frac).value := by
  have mantissa : (FloatText.literal negative int frac).mantissa = shownNat (int ++ frac) := by
    simp [Dec.Literal.mantissa, FloatText.literal, shownNat, digitChars_append]
  have point : ((FloatText.literal negative int frac).frac.length : Int) -
      (FloatText.literal negative int frac).exp = frac.length := by
    simp [FloatText.literal]
  rw [Dec.Literal.value, Dec.Literal.valueAt_eq_div _ (by omega), point, mantissa, value, shown]
  rfl

theorem lt_iff (left : a.isFinite = true) (right : b.isFinite = true) : a.lt b = true ↔ a.value < b.value := by
  unfold isFinite at left right
  unfold lt
  split at left
  next shown =>
    split at right
    next shown' => simp only [shown, shown', decide_eq_true_eq]
    next => cases right
  next => cases left

theorem le_iff (left : a.isFinite = true) (right : b.isFinite = true) : a.le b = true ↔ a.value ≤ b.value := by
  have numbers : ∀ v : F64, v.isFinite = true → v.shown ≠ .nan := by
    intro v finite nan
    rw [isFinite, nan] at finite
    cases finite
  rw [le, Bool.and_eq_true, Bool.and_eq_true, bne_iff_ne, bne_iff_ne, Bool.not_eq_true', ← Bool.not_eq_true,
    lt_iff right left, not_lt]
  exact ⟨fun ⟨_, le⟩ => le, fun le => ⟨⟨numbers a left, numbers b right⟩, le⟩⟩

@[simp] theorem zero_isFinite : zero.isFinite = true := rfl

@[simp] theorem one_isFinite : one.isFinite = true := rfl

@[simp] theorem zero_value : zero.value = 0 := by decide +kernel

@[simp] theorem one_value : one.value = 1 := by decide +kernel

/-- The digits that are kept fit in the units of a decimal. -/
def Readable (v : F64) : Prop :=
  match v.shown with
  | .finite _ int frac _ => Fits 128 (shownNat (int ++ frac.take maxScale))
  | _ => False

instance (v : F64) : Decidable v.Readable :=
  match shown : v.shown with
  | .finite _ int frac _ =>
      decidable_of_iff (Fits 128 (shownNat (int ++ frac.take maxScale))) (by rw [Readable, shown])
  | .nan => .isFalse (by rw [Readable, shown]; exact id)
  | .infinite _ => .isFalse (by rw [Readable, shown]; exact id)

def cut (v : F64) : Int := ⌊v.value * 10 ^ maxScale⌋

end F64

variable {v : F64} {negative : Bool} {int : List (Fin 10)}

theorem ratioToDec_ok {round : RatioRound} {d : Dec} (h : ratioToDec v round = .ok d) :
    v.isFinite = true ∧ 0 ≤ v.value ∧ d.atto = round.toInt (v.value * 10 ^ maxScale) := by
  have sound := DecOp.ratioToDec_sound v round
  have exact : DecOp.Exact (.ratioToDec v round) (.dec d) := by
    have answer := sound.2
    rw [DecOp.run, h] at answer
    exact answer
  obtain ⟨shown, debug⟩ := v
  cases shown with
  | nan => cases h
  | infinite negative => cases h
  | finite negative int frac nonempty =>
      have nonneg : FloatText.isNegative negative int frac = false := by
        by_contra negative'
        rw [Bool.not_eq_false, FloatText.isNegative] at negative'
        rw [ratioToDec] at h
        simp only [negative', if_true] at h
        cases h
      have same : F64.value ⟨.finite negative int frac nonempty, debug⟩ =
          (FloatText.literal negative int frac).value := F64.value_literal rfl
      refine ⟨rfl, ?_, ?_⟩
      · rw [same, DecOp.literal_value nonneg]
        positivity
      · simp only [DecOp.Exact] at exact
        rw [Dec.toRat_eq_atto, div_left_inj' (by positivity)] at exact
        rw [same]
        exact_mod_cast exact

theorem ratioToDec_nonneg {round : RatioRound} {d : Dec} (h : ratioToDec v round = .ok d) : 0 ≤ d.atto := by
  obtain ⟨-, nonneg, exact⟩ := ratioToDec_ok h
  have scaled : 0 ≤ v.value * 10 ^ maxScale := by positivity
  rw [exact]
  cases round with
  | down => exact Int.floor_nonneg.2 scaled
  | up => exact Int.ceil_nonneg scaled

theorem isNegative_of_nonneg {frac : List (Fin 10)} {nonempty : int ≠ []}
    (shown : v.shown = .finite negative int frac nonempty) (nonneg : 0 ≤ v.value) :
    FloatText.isNegative negative int frac = false := by
  cases negative with
  | false => rfl
  | true =>
      rw [F64.value, shown] at nonneg
      have positive : (0 : ℚ) < 10 ^ frac.length := by positivity
      have small : (shownNat (int ++ frac) : ℚ) ≤ 0 := by
        simp only [if_true, div_nonneg_iff] at nonneg
        rcases nonneg with ⟨up, -⟩ | ⟨-, down⟩
        · linarith
        · linarith
      have zero : shownNat (int ++ frac) = 0 := by exact_mod_cast le_antisymm small (Nat.cast_nonneg _)
      rw [FloatText.isNegative, (shownNat_eq_zero _).1 zero]
      rfl

theorem isNegative_take {frac : List (Fin 10)} (n : Nat) (nonneg : FloatText.isNegative negative int frac = false) :
    FloatText.isNegative negative int (frac.take n) = false := by
  unfold FloatText.isNegative at nonneg ⊢
  rw [Bool.and_eq_false_iff] at nonneg ⊢
  refine nonneg.imp id fun zero => ?_
  rw [List.any_append, Bool.or_eq_false_iff] at zero ⊢
  refine ⟨zero.1, ?_⟩
  have parts := zero.2
  rw [← List.take_append_drop n frac, List.any_append, Bool.or_eq_false_iff] at parts
  exact parts.1

theorem ratioToDec_down (finite : v.isFinite = true) (nonneg : 0 ≤ v.value) :
    (∃ d, ratioToDec v .down = .ok d) ↔ v.Readable := by
  obtain ⟨shown, debug⟩ := v
  cases shown with
  | nan => cases finite
  | infinite negative => cases finite
  | finite negative int frac nonempty =>
      have notNegative := isNegative_of_nonneg rfl nonneg
      change _ ↔ Fits 128 (shownNat (int ++ frac.take maxScale))
      rcases le_or_gt frac.length maxScale with short | long
      · rw [List.take_of_length_le short, DecOp.ratioToDec_short .down notNegative short]
        rcases DecOp.readShown_shown debug negative nonempty short with ⟨r, read, -, fits⟩ | ⟨read, misfit⟩
        · exact iff_of_true ⟨r, read⟩ fits
        · refine iff_of_false ?_ misfit
          rintro ⟨d, read'⟩
          rw [read] at read'
          cases read'
      · have kept : (frac.take maxScale).length ≤ maxScale := by simp
        rw [DecOp.ratioToDec_long debug nonempty .down notNegative (not_le.2 long)]
        rcases DecOp.readShown_shown debug negative nonempty kept with ⟨r, read, -, fits⟩ | ⟨read, misfit⟩
        · simp only [maxScale] at read
          rw [read]
          exact iff_of_true ⟨r, rfl⟩ fits
        · refine iff_of_false ?_ misfit
          rintro ⟨d, read'⟩
          simp only [maxScale] at read
          rw [read] at read'
          cases read'

theorem ratioToDec_up (finite : v.isFinite = true) (nonneg : 0 ≤ v.value) (small : v.value < 1) :
    ∃ d, ratioToDec v .up = .ok d := by
  obtain ⟨shown, debug⟩ := v
  cases shown with
  | nan => cases finite
  | infinite negative => cases finite
  | finite negative int frac nonempty =>
      have notNegative := isNegative_of_nonneg rfl nonneg
      have value := F64.value_literal (v := ⟨.finite negative int frac nonempty, debug⟩) rfl
      rw [value, DecOp.literal_value notNegative, div_lt_one (by positivity)] at small
      have few : shownNat (int ++ frac) < 10 ^ frac.length := by exact_mod_cast small
      have within {n : Nat} (below : n ≤ 10 ^ maxScale) : Fits 128 (n : Int) := by
        unfold maxScale at below
        constructor <;> omega
      rcases le_or_gt frac.length maxScale with short | long
      · have power : 10 ^ frac.length ≤ 10 ^ maxScale := Nat.pow_le_pow_right (by decide) short
        rw [DecOp.ratioToDec_short .up notNegative short]
        rcases DecOp.readShown_shown debug negative nonempty short with ⟨r, read, -, -⟩ | ⟨-, misfit⟩
        · exact ⟨r, read⟩
        · exact absurd (within (few.le.trans power)) misfit
      · have kept : (frac.take maxScale).length = maxScale := by
          rw [List.length_take]
          omega
        have cutFew : shownNat (int ++ frac.take maxScale) < 10 ^ maxScale := by
          have split : shownNat (int ++ frac) = 10 ^ (frac.length - maxScale) * shownNat (int ++ frac.take maxScale) +
              shownNat (frac.drop maxScale) := by
            conv_lhs => rw [← List.take_append_drop maxScale frac, ← List.append_assoc, shownNat_append]
            rw [List.length_drop]
          have powers : 10 ^ frac.length = 10 ^ (frac.length - maxScale) * 10 ^ maxScale := by
            rw [← pow_add, Nat.sub_add_cancel long.le]
          rw [split, powers] at few
          exact lt_of_mul_lt_mul_left (lt_of_le_of_lt (Nat.le_add_right ..) few) (Nat.zero_le _)
        rw [DecOp.ratioToDec_long debug nonempty .up notNegative (not_le.2 long)]
        rcases DecOp.readShown_shown debug negative nonempty kept.le with ⟨base, read, exact, -⟩ | ⟨-, misfit⟩
        · have units : base.atto = shownNat (int ++ frac.take maxScale) := by
            rw [DecOp.literal_value (isNegative_take _ notNegative), kept, Dec.toRat_eq_atto,
              div_left_inj' (by positivity)] at exact
            exact_mod_cast exact
          have unit : (⟨⟨1, by decide⟩, 18, by decide⟩ : Dec).atto = 1 := by decide
          obtain ⟨total, added, -⟩ := add_fits (a := base) (b := ⟨⟨1, by decide⟩, 18, by decide⟩)
            (by rw [units]; exact within cutFew.le) (by rw [unit]; decide)
            (by rw [units, unit]; exact_mod_cast within cutFew)
          simp only [maxScale] at read
          rw [read]
          simp only [bind, Except.bind]
          split
          · exact ⟨total, added⟩
          · exact ⟨base, rfl⟩
        · exact absurd (within cutFew.le) misfit

theorem kept_le_cut {frac : List (Fin 10)} {nonempty : int ≠ []}
    (shown : v.shown = .finite negative int frac nonempty) (nonneg : 0 ≤ v.value) :
    (shownNat (int ++ frac.take maxScale) : Int) ≤ v.cut := by
  have notNegative := isNegative_of_nonneg shown nonneg
  rw [F64.cut, F64.value_literal shown]
  rcases le_or_gt frac.length maxScale with short | long
  · rw [DecOp.shown_scaled_short notNegative short, Int.floor_intCast, List.take_of_length_le short]
    exact le_mul_of_one_le_right (Int.natCast_nonneg _) (Int.add_one_le_iff.2 (Dec.ten_pow_pos _))
  · have exact := DecOp.ratioToDec_long_exact .down notNegative long
    simp only [RatioRound.toInt] at exact
    rw [exact]
    simp

theorem readable_of_le_one (finite : v.isFinite = true) (nonneg : 0 ≤ v.value) (small : v.value ≤ 1) :
    v.Readable := by
  have cut : v.cut ≤ 10 ^ maxScale := by
    have scaled : v.value * 10 ^ maxScale ≤ ((10 ^ maxScale : Int) : ℚ) := by
      push_cast
      exact mul_le_of_le_one_left (by positivity) small
    exact Int.cast_le.1 ((Int.floor_le _).trans scaled)
  cases shown : v.shown with
  | nan => simp [F64.isFinite, shown] at finite
  | infinite negative => simp [F64.isFinite, shown] at finite
  | finite negative int frac nonempty =>
      have kept := (kept_le_cut shown nonneg).trans cut
      rw [F64.Readable, shown]
      unfold maxScale at kept ⊢
      constructor <;> omega

end RebalancerCore.DecMath
