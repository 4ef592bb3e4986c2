import SignalEngine.MandateCore.Mandate

/-! # What a valid mandate says

The checks of a mandate read as facts about the numbers its texts denote.
-/

open BrokerAdapters RebalancerCore RebalancerCore.DecMath Text

namespace MandateCore

@[simp] theorem violationIf_eq_nil {broken : Bool} {field message : String} :
    violationIf broken field message = [] ↔ broken = false := by
  cases broken <;> simp [violationIf]

/-- A ratio that can be a cap. -/
structure Usable (v : F64) : Prop where
  finite : v.isFinite = true
  positive : 0 < v.value

theorem isMultiple_iff {v : F64} : isMultiple v = true ↔ Usable v := by
  rw [isMultiple, Bool.and_eq_true, Bool.not_eq_true', ← Bool.not_eq_true]
  constructor
  · rintro ⟨finite, above⟩
    rw [F64.le_iff finite F64.zero_isFinite, F64.zero_value, not_le] at above
    exact ⟨finite, above⟩
  · rintro ⟨finite, positive⟩
    rw [F64.le_iff finite F64.zero_isFinite, F64.zero_value, not_le]
    exact ⟨finite, positive⟩

theorem multiple_eq_nil {field : String} {v : F64} : multiple field v = [] ↔ Usable v := by
  rw [multiple, violationIf_eq_nil, Bool.not_eq_false', isMultiple_iff]

theorem fraction_eq_nil {field : String} {v : F64} : fraction field v = [] ↔ Usable v ∧ v.value ≤ 1 := by
  unfold fraction
  split
  next unusable =>
    refine iff_of_false (by simp) fun ⟨usable, _⟩ => ?_
    have given := isMultiple_iff.2 usable
    rw [isMultiple, Bool.and_eq_true, Bool.not_eq_true'] at given
    simp [given.1, given.2] at unusable
  next usable =>
    have given : Usable v := isMultiple_iff.1 (by simpa [isMultiple] using usable)
    rw [violationIf_eq_nil, ← Bool.not_eq_true, F64.lt_iff F64.one_isFinite given.finite, F64.one_value, not_lt]
    exact ⟨fun le => ⟨given, le⟩, fun ⟨_, le⟩ => le⟩

theorem not_lt_iff {a b : F64} (left : Usable a) (right : Usable b) : a.lt b = false ↔ b.value ≤ a.value := by
  rw [← Bool.not_eq_true, F64.lt_iff left.finite right.finite, not_lt]

/-! ## Amounts -/

section Amounts

variable [ExternalDecimal]

theorem money_eq_nil {field : String} {m : Money} : money field m = [] ↔ ∃ q, 0 < q ∧ amountOf m = some q := by
  unfold money amountOf
  rw [List.append_eq_nil_iff, violationIf_eq_nil, Bool.not_eq_false']
  cases ExternalDecimal.fromStr (trimmed m.amount) with
  | none => simp
  | some d =>
      simp only [violationIf_eq_nil, Bool.not_eq_false', decide_eq_true_eq]
      constructor
      · rintro ⟨code, positive⟩
        exact ⟨d, positive, by rw [if_pos positive, if_pos code]⟩
      · rintro ⟨q, -, given⟩
        split at given
        next positive =>
          split at given
          next code => exact ⟨code, positive⟩
          next => cases given
        next => cases given

theorem amountOf_fromStr {m : Money} {q : ℚ} (given : amountOf m = some q) :
    ExternalDecimal.fromStr (trimmed m.amount) = some q ∧ 0 < q := by
  unfold amountOf at given
  split at given
  next d read =>
    split at given
    next positive =>
      split at given
      next => exact ⟨read.trans given, by obtain rfl := Option.some.inj given; exact positive⟩
      next => cases given
    next => cases given
  next => cases given

end Amounts

/-! ## The ladder -/

/-- The ladder from a rung on, after a rung at `prevAt` of scale `prevScale`: triggers ascend to
    at most 1, scales descend, and the last rung alone halts. -/
inductive Ladder : (prevAt prevScale : ℚ) → List LadderRung → Prop
  | halt {prevAt prevScale : ℚ} {rung : LadderRung} (action : rung.action = .haltFlatten)
      (scale : rung.scale = none) (finite : rung.trigger.isFinite = true) (above : prevAt < rung.trigger.value) (fraction : rung.trigger.value ≤ 1) :
      Ladder prevAt prevScale [rung]
  | shrink {prevAt prevScale : ℚ} {rung : LadderRung} {s : F64} {rest : List LadderRung}
      (action : rung.action = .shrink) (scale : rung.scale = some s) (finite : rung.trigger.isFinite = true)
      (above : prevAt < rung.trigger.value) (fraction : rung.trigger.value ≤ 1) (usable : Usable s)
      (below : s.value < 1) (notUp : s.value ≤ prevScale) (later : Ladder rung.trigger.value s.value rest) :
      Ladder prevAt prevScale (rung :: rest)

theorem ladder_of_violations : ∀ (rungs : List LadderRung) (i : Nat) (prevAt prevScale : F64), rungs ≠ [] →
    prevAt.isFinite = true → prevScale.isFinite = true → ladderViolations i prevAt prevScale rungs = [] →
      Ladder prevAt.value prevScale.value rungs := by
  intro rungs
  induction rungs with
  | nil => exact fun _ _ _ some => absurd rfl some
  | cons rung rest ih =>
      intro i prevAt prevScale _ finiteAt finiteScale clear
      simp only [ladderViolations, List.append_eq_nil_iff, violationIf_eq_nil, fraction_eq_nil] at clear
      obtain ⟨⟨⟨⟨⟨⟨usable, fraction⟩, ascending⟩, scaled⟩, lastHalts⟩, onlyLast⟩, later⟩ := clear
      have above : prevAt.value < rung.trigger.value := by
        rw [usable.finite, Bool.true_and, ← Bool.not_eq_true, F64.le_iff usable.finite finiteAt, not_le] at ascending
        exact ascending
      cases action : rung.action with
      | haltFlatten =>
          have last : rest = [] := by
            simpa [action] using onlyLast
          subst last
          have noScale : rung.scale = none := by
            unfold scaleViolations at scaled
            cases scale : rung.scale with
            | none => rfl
            | some s => simp [action, scale] at scaled
          exact .halt action noScale usable.finite above fraction
      | shrink =>
          have more : rest ≠ [] := by
            simpa [action] using lastHalts
          unfold scaleViolations at scaled later
          cases scale : rung.scale with
          | none => simp [action, scale] at scaled
          | some s =>
              rw [action, scale] at scaled later
              dsimp only at scaled later
              split at scaled
              next fits =>
                rw [if_pos fits] at later
                simp only [Bool.and_eq_true] at fits
                obtain ⟨⟨finite, positive⟩, below⟩ := fits
                rw [F64.lt_iff F64.zero_isFinite finite, F64.zero_value] at positive
                rw [F64.lt_iff finite F64.one_isFinite, F64.one_value] at below
                rw [violationIf_eq_nil, ← Bool.not_eq_true, F64.lt_iff finiteScale finite, not_lt] at scaled
                exact .shrink action scale usable.finite above fraction ⟨finite, positive⟩ below scaled
                  (ih (i + 1) rung.trigger s more usable.finite finite later)
              next => cases scaled

/-! ## The whole mandate -/

/-- What the checks say about the numbers. -/
structure Validated [ExternalDecimal] (m : MandateBody) : Prop where
  amounts : ∃ alloc notional, amountOf m.capital.allocated = some alloc ∧
    amountOf m.exposure.maxOrderNotional = some notional ∧ notional ≤ alloc
  reserveFinite : m.capital.minCashReserve.isFinite = true
  reserveNonneg : 0 ≤ m.capital.minCashReserve.value
  reserveBelow : m.capital.minCashReserve.value < 1
  leverage : Usable m.«universe».leverageMaxGross
  leverageOne : 1 ≤ m.«universe».leverageMaxGross.value
  gross : Usable m.exposure.maxGross
  net : Usable m.exposure.maxNet
  position : Usable m.exposure.maxPosition
  turnover : Usable m.exposure.maxTurnoverPerDay
  grossLeverage : m.exposure.maxGross.value ≤ m.«universe».leverageMaxGross.value
  netGross : m.exposure.maxNet.value ≤ m.exposure.maxGross.value
  positionGross : m.exposure.maxPosition.value ≤ m.exposure.maxGross.value
  classes : ∀ entry ∈ m.exposure.maxAssetClass.toList,
    Usable entry.2 ∧ entry.2.value ≤ m.exposure.maxGross.value
  daily : Usable m.loss.dailyLossLimit
  dailyOne : m.loss.dailyLossLimit.value ≤ 1
  ladder : Ladder 0 1 m.loss.drawdownLadder

theorem validated [UnicodeCase] [DebugText] [ExternalDecimal] {m : MandateBody} (valid : validate m = []) :
    Validated m := by
  simp only [validate, List.append_eq_nil_iff] at valid
  obtain ⟨⟨⟨⟨⟨⟨-, capital⟩, «universe»⟩, exposure⟩, loss⟩, -⟩, -⟩ := valid
  simp only [capitalViolations, List.append_eq_nil_iff, money_eq_nil, violationIf_eq_nil] at capital
  obtain ⟨⟨alloc, -, allocated⟩, reserve⟩ := capital
  simp only [universeViolations, List.append_eq_nil_iff, violationIf_eq_nil, Bool.not_eq_false'] at «universe»
  obtain ⟨-, leverageOk⟩ := «universe»
  simp only [exposureViolations, List.append_eq_nil_iff, multiple_eq_nil, money_eq_nil, violationIf_eq_nil]
    at exposure
  obtain ⟨⟨⟨⟨⟨⟨⟨⟨⟨⟨gross, net⟩, position⟩, grossLeverage⟩, netGross⟩, positionGross⟩, classes⟩, notional, -, given⟩,
    order⟩, -⟩, turnover⟩ := exposure
  simp only [lossViolations, List.append_eq_nil_iff, fraction_eq_nil, violationIf_eq_nil] at loss
  obtain ⟨⟨⟨⟨daily, dailyOne⟩, some⟩, ladder⟩, -⟩ := loss
  have leverage := leverageOk
  rw [MandateCore.leverageOk, Bool.and_eq_true, Bool.not_eq_true', ← Bool.not_eq_true] at leverage
  obtain ⟨finite, one⟩ := leverage
  rw [F64.lt_iff finite F64.one_isFinite, F64.one_value, not_lt] at one
  have usable : Usable m.«universe».leverageMaxGross := ⟨finite, by linarith⟩
  rw [isMultiple_iff.2 gross, Bool.true_and] at netGross positionGross
  rw [isMultiple_iff.2 gross, leverageOk, Bool.true_and, Bool.true_and, not_lt_iff usable gross] at grossLeverage
  rw [isMultiple_iff.2 net, Bool.true_and, not_lt_iff gross net] at netGross
  rw [isMultiple_iff.2 position, Bool.true_and, not_lt_iff gross position] at positionGross
  have reserveFinite : m.capital.minCashReserve.isFinite = true := by
    simpa using (Bool.or_eq_false_iff.1 reserve).1
  rw [reserveFinite, Bool.not_true, Bool.false_or, Bool.not_eq_false', Bool.and_eq_true,
    F64.le_iff F64.zero_isFinite reserveFinite, F64.lt_iff reserveFinite F64.one_isFinite, F64.zero_value,
    F64.one_value] at reserve
  refine ⟨⟨alloc, notional, allocated, given, ?_⟩, reserveFinite, reserve.1, reserve.2, usable, one, gross, net,
    position, turnover, grossLeverage, netGross, positionGross, fun entry member => ?_, daily, dailyOne, ?_⟩
  · rw [notionalViolations, allocated, given] at order
    dsimp only at order
    split at order
    next => cases order
    next => simpa using order
  · have clear := List.flatMap_eq_nil_iff.1 classes entry member
    simp only [classViolations, List.append_eq_nil_iff, multiple_eq_nil, violationIf_eq_nil] at clear
    obtain ⟨⟨-, cap⟩, below⟩ := clear
    rw [isMultiple_iff.2 cap, isMultiple_iff.2 gross, Bool.true_and, Bool.true_and, not_lt_iff gross cap] at below
    exact ⟨cap, below⟩
  · have rungs := ladder_of_violations m.loss.drawdownLadder 0 .zero .one (by simpa using some) rfl rfl ladder
    simpa using rungs

end MandateCore
