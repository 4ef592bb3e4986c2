import SignalEngine.RebalancerCore.GuardShorts

/-! # Spellings of one symbol

Two spellings differ in ASCII case and in blanks at the ends. Every lookup of the
guard reads them alike but one: the held position is looked up by the symbol as it
is written.
-/

open BrokerAdapters Outcome Text Report

namespace RebalancerCore

/-- Two spellings of one symbol. -/
def Spelling (s t : String) : Prop := eqIgnoreAsciiCase (trimmed s) (trimmed t) = true

instance (s t : String) : Decidable (Spelling s t) := inferInstanceAs (Decidable (_ = true))

def Verdict.codes (v : Verdict) : List DenialCode := v.reasons.map Denial.code

/-- The same set of denial codes. -/
def Verdict.SameCodes (v w : Verdict) : Prop := ∀ code, code ∈ v.codes ↔ code ∈ w.codes

/-- The order with its symbol written in another way. -/
def ProposedOrder.spelled (order : ProposedOrder) (symbol : String) : ProposedOrder := { order with symbol }

@[simp] theorem ProposedOrder.spelled_symbol (order : ProposedOrder) (symbol : String) :
    (order.spelled symbol).symbol = symbol := rfl

@[simp] theorem ProposedOrder.spelled_quantity (order : ProposedOrder) (symbol : String) :
    (order.spelled symbol).quantity = order.quantity := rfl

@[simp] theorem ProposedOrder.spelled_estFee (order : ProposedOrder) (symbol : String) :
    (order.spelled symbol).estFee = order.estFee := rfl

theorem Spelling.trimmed_eq_empty {s t : String} (same : Spelling s t) :
    (trimmed s == "") = (trimmed t == "") := by
  have lower := eqIgnoreAsciiCase_iff.1 same
  have empty (u : String) : (trimmed u == "") = ((trimmed u).toList.map Char.toLower == []) := by
    rw [Bool.eq_iff_iff, beq_iff_eq, beq_iff_eq, List.map_eq_nil_iff]
    simp
  rw [empty s, empty t, lower]

namespace Guard

theorem sums_spelled {s t : String} (same : Spelling s t) (assetClass : String) :
    Sums.add s assetClass = Sums.add t assetClass := by
  funext sums p
  unfold Sums.add
  rw [eqIgnoreAsciiCase_congr same p.symbol]

theorem afterState_spelled {order : ProposedOrder} {symbol : String} (same : Spelling order.symbol symbol)
    (account : AccountView) (notional : Dec) (assetClass : String) :
    afterState account (order.spelled symbol) notional assetClass = afterState account order notional assetClass := by
  unfold afterState
  rw [sums_spelled same]
  rfl

/-- The account holds as much under the symbol of the order as under another one. -/
def SameHeld (account : AccountView) (order : ProposedOrder) (symbol : String) : Prop :=
  account.heldQuantity order.symbol = account.heldQuantity symbol

/-- The two checks deny for the same reasons, whatever they say about them. -/
abbrev AlikeCodes {α : Type} (x y : Check α) : Prop := x.Alike Denial.code y

variable {account : AccountView} {order : ProposedOrder} {symbol : String}

theorem checkPositionUnits_spelled (held : Dec) (rule : Option InstrumentVenueRule) :
    AlikeCodes (checkPositionUnits held (order.spelled symbol) rule) (checkPositionUnits held order rule) := by
  unfold checkPositionUnits
  split
  · exact alike_refl _
  · refine alike_bind (alike_refl _) fun change => ?_
    refine alike_bind (alike_refl _) fun left => ?_
    exact alike_bind (alike_refl _) fun units => alike_reportIf rfl

theorem checkFunding_spelled (held : SameHeld account order symbol) (context : Option SignedContext)
    (derivedMargin : Bool) (price reserve : Dec) (after : After) :
    checkFunding account (order.spelled symbol) context derivedMargin price reserve after =
      checkFunding account order context derivedMargin price reserve after := by
  have held' : account.heldQuantity symbol = account.heldQuantity order.symbol := held.symm
  unfold checkFunding increasingNotional
  simp only [ProposedOrder.spelled, held']
  rfl

theorem checkPrice_spelled [InstantText] (policy : Policy) :
    AlikeCodes (checkPrice policy account (order.spelled symbol)) (checkPrice policy account order) := by
  unfold checkPrice
  have price : (order.spelled symbol).price = order.price := rfl
  rw [price]
  cases order.price with
  | none => exact alike_bind (alike_report rfl) fun _ => alike_refl _
  | some p =>
      refine alike_ite (alike_bind (alike_report rfl) fun _ => alike_refl _) ?_
      refine alike_ite (alike_bind (alike_report rfl) fun _ => alike_refl _) ?_
      exact alike_ite (alike_bind (alike_report rfl) fun _ => alike_refl _) (alike_refl _)

variable [UnicodeCase]

theorem upperName_spelled {s t : String} (same : Spelling s t) : upperName s = upperName t :=
  toUppercase_of_eqIgnoreAsciiCase same

theorem ruleKey_spelled {s t : String} (same : Spelling s t) (venue : String) :
    InstrumentRules.ruleKey venue s = InstrumentRules.ruleKey venue t := by
  rw [InstrumentRules.ruleKey, InstrumentRules.ruleKey, upperName_spelled same]

theorem venueShortBlock_spelled {order : ProposedOrder} {symbol : String} (same : Spelling order.symbol symbol)
    (instruments : InstrumentRules) (rule : Option InstrumentVenueRule) :
    venueShortBlock instruments rule (order.spelled symbol) = venueShortBlock instruments rule order := by
  unfold venueShortBlock InstrumentRules.hasLocate
  simp only [ProposedOrder.spelled, ruleKey_spelled same, upperName_spelled same]
  rfl

theorem marginUse_spelled {account : AccountView} {order : ProposedOrder} {symbol : String}
    (same : Spelling order.symbol symbol) (held : SameHeld account order symbol) (price : Dec) :
    marginUse account (order.spelled symbol) price = marginUse account order price := by
  unfold marginUse
  have held' : account.heldQuantity symbol = account.heldQuantity order.symbol := held.symm
  simp only [afterState_spelled same]
  simp only [ProposedOrder.spelled, held']

theorem derivedMargin_spelled {account : AccountView} {order : ProposedOrder} {symbol : String}
    (same : Spelling order.symbol symbol) (held : SameHeld account order symbol) (context : Option SignedContext)
    (price : Option Dec) :
    derivedMargin account (order.spelled symbol) context price = derivedMargin account order context price := by
  unfold derivedMargin
  split
  · exact marginUse_spelled same held _
  · rfl

theorem checkUniverse_spelled (same : Spelling order.symbol symbol) (limits : Limits) :
    checkUniverse limits (order.spelled symbol) = checkUniverse limits order := by
  unfold checkUniverse
  simp only [ProposedOrder.spelled, upperName_spelled same]

theorem checkShorting_spelled (same : Spelling order.symbol symbol) (limits : Limits) (held : Dec)
    (context : Option SignedContext) (rule : Option InstrumentVenueRule) :
    AlikeCodes (checkShorting limits held (order.spelled symbol) context rule)
      (checkShorting limits held order context rule) := by
  unfold checkShorting
  simp only [venueShortBlock_spelled same]
  exact alike_reportIf rfl

theorem checkLeverage_spelled (same : Spelling order.symbol symbol) (limits : Limits)
    (context : Option SignedContext) (rule : Option InstrumentVenueRule) (base : Dec) (reducing : Bool)
    (price : Option Dec) :
    checkLeverage limits account (order.spelled symbol) context rule base reducing price =
      checkLeverage limits account order context rule base reducing price := by
  unfold checkLeverage
  simp only [afterState_spelled same]
  rfl

theorem checkExposure_spelled (limits : Limits) (held : Dec) (rule : Option InstrumentVenueRule)
    (base notional : Dec) (after : After) :
    AlikeCodes (checkExposure limits held (order.spelled symbol) rule base notional after)
      (checkExposure limits held order rule base notional after) := by
  unfold checkExposure
  refine alike_bind (alike_refl _) fun _ => ?_
  refine alike_bind (alike_bind (alike_refl _) fun cap => alike_reportIf rfl) fun _ => ?_
  exact alike_bind (checkPositionUnits_spelled held rule) fun _ => alike_refl _

theorem checkPriced_spelled (same : Spelling order.symbol symbol) (held : SameHeld account order symbol)
    (policy : Policy) (limits : Limits) (day : DayCounters) (context : Option SignedContext)
    (rule : Option InstrumentVenueRule) (base : Dec) (expired reducing derivedMargin : Bool) (price : Dec) :
    AlikeCodes
      (checkPriced policy limits account (order.spelled symbol) day context rule base expired reducing derivedMargin price)
      (checkPriced policy limits account order day context rule base expired reducing derivedMargin price) := by
  unfold checkPriced
  refine alike_bind (alike_refl _) fun notional => ?_
  rw [afterState_spelled same]
  refine alike_bind (alike_refl _) fun after => ?_
  have held' : account.heldQuantity (order.spelled symbol).symbol = account.heldQuantity order.symbol := held.symm
  rw [held']
  refine alike_bind (alike_skipIf (checkExposure_spelled limits _ rule base notional after)) fun _ => ?_
  refine alike_bind (alike_refl _) fun _ => ?_
  simp only [checkFunding_spelled held]
  exact alike_refl _

variable [InstantText]

theorem checkOrder_spelled (same : Spelling order.symbol symbol) (held : SameHeld account order symbol)
    (policy : Policy) (limits : Limits) (expired : Bool) (day : DayCounters) (context : Option SignedContext) :
    AlikeCodes (checkOrder policy limits expired account (order.spelled symbol) day context)
      (checkOrder policy limits expired account order day context) := by
  unfold checkOrder
  have held' : account.heldQuantity (order.spelled symbol).symbol = account.heldQuantity order.symbol := held.symm
  have rule (c : SignedContext) :
      c.instruments.rule (order.spelled symbol).venue (order.spelled symbol).symbol =
        c.instruments.rule order.venue order.symbol := by
    unfold InstrumentRules.rule
    simp only [ProposedOrder.spelled, ruleKey_spelled same]
  rw [held']
  simp only [rule, checkUniverse_spelled same, derivedMargin_spelled same held, checkLeverage_spelled same]
  refine alike_bind (alike_refl _) fun reducing => ?_
  refine alike_bind (alike_refl _) fun _ => ?_
  refine alike_bind (checkPrice_spelled policy) fun price => ?_
  refine alike_bind (alike_refl _) fun _ => ?_
  refine alike_bind (checkShorting_spelled same limits _ context _) fun _ => ?_
  refine alike_bind (alike_refl _) fun _ => ?_
  refine alike_bind (alike_refl _) fun onMargin => ?_
  refine alike_bind (alike_refl _) fun _ => ?_
  split
  · exact alike_refl _
  · exact checkPriced_spelled same held policy limits day context _ _ expired reducing onMargin _

theorem checkReadable_spelled (same : Spelling order.symbol symbol)
    (readable : 0 < account.equity.atto → trimmed order.symbol ≠ "" → SameHeld account order symbol)
    (policy : Policy) (limits : Limits) (expired : Bool) (day : DayCounters) (context : Option SignedContext) :
    AlikeCodes (checkReadable policy limits expired account (order.spelled symbol) day context)
      (checkReadable policy limits expired account order day context) := by
  unfold checkReadable
  simp only [ProposedOrder.spelled_quantity, ProposedOrder.spelled_estFee, ProposedOrder.spelled_symbol,
    ← same.trimmed_eq_empty]
  split
  · exact alike_refl _
  next valid =>
    split
    · exact alike_refl _
    next positive =>
      refine alike_ite (alike_refl _) (checkOrder_spelled same (readable ?_ ?_) policy limits expired day context)
      · simpa [Dec.isPositive_iff] using positive
      · intro none
        simp [none] at valid

theorem checkInner_spelled (same : Spelling order.symbol symbol)
    (readable : 0 < account.equity.atto → trimmed order.symbol ≠ "" → SameHeld account order symbol)
    (policy : Policy) (day : DayCounters) (context : Option SignedContext) :
    AlikeCodes (checkInner policy account (order.spelled symbol) day context)
      (checkInner policy account order day context) := by
  unfold checkInner
  split
  · exact alike_refl _
  · exact alike_refl _
  · exact alike_refl _
  · exact alike_refl _
  · exact checkReadable_spelled same readable policy _ false day context
  · exact checkReadable_spelled same readable policy _ true day context

end Guard

/-! ## Telling two spellings apart -/

/-- Limits that allow nothing, in a currency. -/
def noLimits (ccy : String) : Limits where
  ccy
  allocated := .cents 0
  minCashReserve := .cents 0
  instrumentAllow := ∅
  instrumentDeny := ∅
  venues := ∅
  assetClasses := ∅
  shorting := false
  derivatives := false
  leverageMaxGross := .cents 0
  maxPosition := .cents 0
  maxAssetClass := ∅
  maxGross := .cents 0
  maxNet := .cents 0
  maxOrderNotional := .cents 0
  maxOrdersPerDay := 0
  maxTurnoverPerDay := .cents 0
  classes_lower := noClasses_lower

def lapsedPolicy (account : AccountView) : Policy where
  bodyHash := ""
  envelope := some ⟨1, .active, account.now, account.now⟩
  maxPriceAgeSecs := ⟨0, by decide⟩
  body := .valid (noLimits (trimmed account.ccy))

/-- An order without a price. -/
def unpricedOrder (symbol : String) (side : Side) (quantity : Dec) : ProposedOrder where
  venue := ""
  assetClass := ""
  symbol
  side
  quantity
  price := none
  estFee := Dec.zero
  usesMargin := false
  isDerivative := false
  lossRungCover := false

namespace Guard

theorem checkState_lapsed (account : AccountView) (reducing : Bool) :
    ∃ denials, checkState account true reducing = ⟨.ok (), denials⟩ ∧
      (.mandateExpired ∈ denials.map Denial.code ↔ reducing = false) ∧
      .arithmeticOverflow ∉ denials.map Denial.code := by
  unfold checkState
  cases reducing <;> cases account.halted <;>
    exact ⟨_, rfl, by simp [denyIf, reportIf, report, pure], by simp [denyIf, reportIf, report, pure]⟩

section Lapsed

variable [UnicodeCase] [InstantText]

/-- A denial that says nothing about what is held. -/
def Unheld (d : Denial) : Prop := d.code ≠ .mandateExpired ∧ d.code ≠ .arithmeticOverflow

/-- All that follows the state of the mandate is denied whatever is held. -/
theorem checkOrder_lapsed {policy : Policy} {limits : Limits} {account : AccountView} {symbol : String} {side : Side}
    {quantity : Dec} {day : DayCounters} :
    ∃ rest : Bool → Check Unit, (∀ reducing, (rest reducing).Within Unheld) ∧
      checkOrder policy limits true account (unpricedOrder symbol side quantity) day none =
        (do
          let reducing ← isReducing (account.heldQuantity symbol) side quantity
          checkState account true reducing
          rest reducing) := by
  refine ⟨_, ?_, rfl⟩
  intro reducing
  have unpriced : (checkPrice policy account (unpricedOrder symbol side quantity)).Within Unheld :=
    within_bind (within_report ⟨nofun, nofun⟩) fun _ _ => within_pure _
  refine within_bind unpriced fun price read => ?_
  obtain rfl : price = none := (Except.ok.inj read).symm
  refine within_bind ?listed fun _ _ => ?_
  case listed =>
    refine within_bind ?instrument fun _ _ => ?_
    case instrument =>
      unfold checkInstrument
      split
      · exact within_report ⟨nofun, nofun⟩
      · exact within_reportIf ⟨nofun, nofun⟩
    refine within_bind (within_reportIf ⟨nofun, nofun⟩) fun _ _ => ?_
    exact within_reportIf ⟨nofun, nofun⟩
  refine within_bind (within_reportIf ⟨nofun, nofun⟩) fun _ _ => ?_
  refine within_bind (within_reportIf ⟨nofun, nofun⟩) fun _ _ => ?_
  refine within_bind ⟨⟨false, rfl⟩, by simp [liftM, monadLift, MonadLift.monadLift]⟩ fun _ _ => ?_
  refine within_bind (within_reportIf ⟨nofun, nofun⟩) fun _ _ => ?_
  exact within_pure _

theorem checkInner_lapsed {account : AccountView} {symbol : String} {side : Side} {quantity : Dec} {day : DayCounters}
    (equity : 0 < account.equity.atto) (named : trimmed symbol ≠ "") (positive : 0 < quantity.atto) :
    checkInner (lapsedPolicy account) account (unpricedOrder symbol side quantity) day none =
      checkOrder (lapsedPolicy account) (noLimits (trimmed account.ccy)) true account
        (unpricedOrder symbol side quantity) day none := by
  have standing : (lapsedPolicy account).standing account.now = .expired := by
    simp [Policy.standing, Policy.limits, lapsedPolicy]
  unfold checkInner
  rw [standing]
  simp only [lapsedPolicy]
  unfold checkReadable
  have valid : (!(unpricedOrder symbol side quantity).quantity.isPositive ||
      (unpricedOrder symbol side quantity).estFee.isNegative ||
      trimmed (unpricedOrder symbol side quantity).symbol == "") = false := by
    simp [unpricedOrder, Dec.isPositive_iff.2 positive, named, Dec.isNegative, Dec.zero]
  rw [valid]
  simp [Dec.isPositive_iff.2 equity, noLimits]

end Lapsed

end Guard

namespace PreTradeGuard

variable [UnicodeCase] [InstantText]

theorem check_lapsed {account : AccountView} {symbol : String} {side : Side} {quantity : Dec} {day : DayCounters}
    (equity : 0 < account.equity.atto) (named : trimmed symbol ≠ "") (positive : 0 < quantity.atto) :
    (∀ reducing, Guard.isReducing (account.heldQuantity symbol) side quantity = .ok reducing →
      (.mandateExpired ∈ (check (lapsedPolicy account) account (unpricedOrder symbol side quantity) day).codes ↔
        reducing = false) ∧
      .arithmeticOverflow ∉ (check (lapsedPolicy account) account (unpricedOrder symbol side quantity) day).codes) ∧
    ∀ e, Guard.isReducing (account.heldQuantity symbol) side quantity = .error e →
      .arithmeticOverflow ∈ (check (lapsedPolicy account) account (unpricedOrder symbol side quantity) day).codes := by
  have checked := @Guard.checkInner_lapsed _ _ account symbol side quantity day equity named positive
  obtain ⟨rest, within, ordered⟩ := @Guard.checkOrder_lapsed _ _ (lapsedPolicy account)
    (noLimits (trimmed account.ccy)) account symbol side quantity day
  simp only [check, run, checked, ordered]
  constructor
  · intro reducing computed
    rw [computed]
    obtain ⟨⟨a, ended⟩, holds⟩ := within reducing
    obtain ⟨first, state, expired, overflows⟩ := Guard.checkState_lapsed account reducing
    have later : .mandateExpired ∉ (rest reducing).findings.map Denial.code ∧
        .arithmeticOverflow ∉ (rest reducing).findings.map Denial.code := by
      constructor
      · rintro member
        obtain ⟨d, found, code⟩ := List.mem_map.1 member
        exact (holds d found).1 code
      · rintro member
        obtain ⟨d, found, code⟩ := List.mem_map.1 member
        exact (holds d found).2 code
    have steps : (liftM (Except.ok reducing : Except MathError Bool) >>= fun reducing => do
        Guard.checkState account true reducing
        rest reducing : Guard.Check Unit) = ⟨.ok (), first ++ (rest reducing).findings⟩ := by
      simp only [bind, liftM, monadLift, MonadLift.monadLift, state, ended, List.nil_append]
    rw [steps]
    simp only [Verdict.codes, List.map_append, List.mem_append, later.1, later.2, or_false]
    exact ⟨expired, overflows⟩
  · intro e computed
    rw [computed]
    simp [Verdict.codes, bind, liftM, monadLift, MonadLift.monadLift]

/-- The guard answers with the same codes under either spelling, whatever the order, the
    mandate, the day and the margin. -/
def SpellingFree (account : AccountView) (s t : String) : Prop :=
  ∀ (policy : Policy) (order : ProposedOrder) (day : DayCounters), order.symbol = s →
    (check policy account order day).SameCodes (check policy account (order.spelled t) day) ∧
      ∀ margin instruments, (checkSigned policy account order day margin instruments).SameCodes
        (checkSigned policy account (order.spelled t) day margin instruments)

theorem run_sameCodes {policy : Policy} {account : AccountView} {order : ProposedOrder} {symbol : String}
    {day : DayCounters} {context : Option SignedContext}
    (alike : Guard.AlikeCodes (Guard.checkInner policy account (order.spelled symbol) day context)
      (Guard.checkInner policy account order day context)) :
    (run policy account order day context).SameCodes (run policy account (order.spelled symbol) day context) := by
  obtain ⟨ended, same⟩ := alike
  have codes : (run policy account order day context).codes =
      (run policy account (order.spelled symbol) day context).codes := by
    simp only [run, Verdict.codes, ended]
    split
    · exact same.symm
    · rw [List.map_append, List.map_append, same]
  intro code
  rw [codes]

theorem spellingFree_of_held {account : AccountView} {s t : String} (same : Spelling s t)
    (readable : 0 < account.equity.atto → trimmed s ≠ "" → account.heldQuantity s = account.heldQuantity t) :
    SpellingFree account s t := by
  rintro policy order day rfl
  exact ⟨run_sameCodes (Guard.checkInner_spelled same readable policy day none), fun margin instruments =>
    run_sameCodes (Guard.checkInner_spelled same readable policy day (some ⟨margin, instruments⟩))⟩

theorem SpellingFree.isReducing {account : AccountView} {s t : String} (same : Spelling s t)
    (free : SpellingFree account s t) (equity : 0 < account.equity.atto) (named : trimmed s ≠ "") (side : Side)
    {quantity : Dec} (positive : 0 < quantity.atto) :
    (∃ reducing, Guard.isReducing (account.heldQuantity s) side quantity = .ok reducing ∧
        Guard.isReducing (account.heldQuantity t) side quantity = .ok reducing) ∨
      (∃ e, Guard.isReducing (account.heldQuantity s) side quantity = .error e) ∧
        ∃ e, Guard.isReducing (account.heldQuantity t) side quantity = .error e := by
  have named' : trimmed t ≠ "" := by
    have empty := same.trimmed_eq_empty
    rw [beq_eq_false_iff_ne.2 named] at empty
    exact beq_eq_false_iff_ne.1 empty.symm
  have agree : (check (lapsedPolicy account) account (unpricedOrder s side quantity) ⟨0, Dec.zero⟩).SameCodes
      (check (lapsedPolicy account) account (unpricedOrder t side quantity) ⟨0, Dec.zero⟩) :=
    (free (lapsedPolicy account) (unpricedOrder s side quantity) ⟨0, Dec.zero⟩ rfl).1
  obtain ⟨ok, error⟩ := @check_lapsed _ _ account s side quantity ⟨0, Dec.zero⟩ equity named positive
  obtain ⟨ok', error'⟩ := @check_lapsed _ _ account t side quantity ⟨0, Dec.zero⟩ equity named' positive
  cases left : Guard.isReducing (account.heldQuantity s) side quantity with
  | ok reducing =>
      cases right : Guard.isReducing (account.heldQuantity t) side quantity with
      | ok reducing' =>
          refine .inl ⟨reducing, rfl, ?_⟩
          have expired := agree .mandateExpired
          rw [(ok reducing left).1, (ok' reducing' right).1] at expired
          cases reducing <;> cases reducing' <;> simp at expired ⊢
      | error e => exact absurd ((agree .arithmeticOverflow).2 (error' e right)) (ok reducing left).2
  | error e =>
      cases right : Guard.isReducing (account.heldQuantity t) side quantity with
      | ok reducing' => exact absurd ((agree .arithmeticOverflow).1 (error e left)) (ok' reducing' right).2
      | error e' => exact .inr ⟨⟨e, rfl⟩, e', rfl⟩

end PreTradeGuard

/-! ## What the reductions show of the quantity held -/

namespace Guard

theorem isNegative_of_neg_error {d : Dec} {e : MathError} (h : DecMath.neg d = .error e) : d.isNegative = true := by
  by_contra nonneg
  have fits : MachineInt.Fits 128 (-d.units.val) := by
    have range := d.units.fits
    simp only [Dec.isNegative, decide_eq_true_eq, not_lt] at nonneg
    unfold MachineInt.Fits at *
    omega
  simp [DecMath.neg, MachineInt.SInt.checkedNeg, MachineInt.SInt.checked, fits, DecMath.orOverflow, bind,
    Except.bind] at h

/-- No order tells two quantities apart. -/
def Indistinct (held held' : Dec) : Prop :=
  ∀ side quantity, 0 < quantity.atto →
    (∃ reducing, isReducing held side quantity = .ok reducing ∧ isReducing held' side quantity = .ok reducing) ∨
      (∃ e, isReducing held side quantity = .error e) ∧ ∃ e, isReducing held' side quantity = .error e

theorem Indistinct.symm {held held' : Dec} (same : Indistinct held held') : Indistinct held' held := by
  intro side quantity positive
  rcases same side quantity positive with ⟨reducing, left, right⟩ | ⟨left, right⟩
  · exact .inl ⟨reducing, right, left⟩
  · exact .inr ⟨right, left⟩

theorem isReducing_sell (held quantity : Dec) :
    isReducing held .sell quantity = .ok (held.isPositive && decide (quantity ≤ held)) := rfl

theorem isReducing_buy (held quantity : Dec) :
    isReducing held .buy quantity =
      if held.isNegative = true then DecMath.neg held >>= fun short => .ok (decide (quantity ≤ short)) else .ok false :=
  rfl

theorem Indistinct.neg_error {held held' : Dec} (same : Indistinct held held') {e : MathError}
    (unbounded : DecMath.neg held = .error e) : ∃ e', DecMath.neg held' = .error e' := by
  have failed : isReducing held .buy Dec.one = .error e := by
    rw [isReducing_buy, isNegative_of_neg_error unbounded, unbounded]
    rfl
  rcases same .buy Dec.one (by decide) with ⟨reducing, left, -⟩ | ⟨-, e', right⟩
  · rw [failed] at left
    cases left
  · rw [isReducing_buy] at right
    split at right
    · cases negated : DecMath.neg held' with
      | error e' => exact ⟨e', rfl⟩
      | ok short =>
          rw [negated] at right
          cases right
    · cases right

theorem Indistinct.le {held held' : Dec} (same : Indistinct held held') {short : Dec}
    (negated : DecMath.neg held = .ok short) : held'.atto ≤ held.atto := by
  by_contra larger
  have less := not_le.1 larger
  rcases lt_or_ge 0 held'.atto with long | notLong
  · -- A sell of all that is held under the second spelling.
    rcases same .sell held' long with ⟨reducing, left, right⟩ | ⟨⟨e, left⟩, -⟩
    · rw [isReducing_sell] at left right
      have whole : reducing = true := by
        rw [← Except.ok.inj right, Dec.isPositive_iff.2 long]
        simp [Dec.le_iff]
      subst whole
      have both := Except.ok.inj left
      rw [Bool.and_eq_true, decide_eq_true_eq, Dec.le_iff] at both
      omega
    · cases left
  · -- A buy of all that is short under the first one.
    have negative : held.isNegative = true := Dec.isNegative_iff.2 (by omega)
    have size := DecMath.neg_ok negated
    rcases same .buy short (by omega) with ⟨reducing, left, right⟩ | ⟨⟨e, left⟩, -⟩
    · have whole : reducing = true := by
        rw [isReducing_buy, negative, negated] at left
        rw [← Except.ok.inj left]
        simp [Dec.le_iff]
      subst whole
      rcases isReducing_true right with ⟨sell, -⟩ | ⟨-, -, small⟩
      · cases sell
      · omega
    · rw [isReducing_buy, negative, negated] at left
      cases left

theorem Indistinct.same {held held' : Dec} (same : Indistinct held held') :
    held.atto = held'.atto ∨ (∃ e, DecMath.neg held = .error e) ∧ ∃ e, DecMath.neg held' = .error e := by
  cases left : DecMath.neg held with
  | error e => exact .inr ⟨⟨e, rfl⟩, same.neg_error left⟩
  | ok short =>
      cases right : DecMath.neg held' with
      | error e =>
          obtain ⟨e', failed⟩ := same.symm.neg_error right
          rw [left] at failed
          cases failed
      | ok short' =>
          left
          exact le_antisymm (same.symm.le right) (same.le left)

end Guard

namespace PreTradeGuard

variable [UnicodeCase] [InstantText]

/-- The codes do not depend on the spelling when the account is looked up to the same
    quantity under both; and they do depend on it when it is not, unless no verdict
    gets as far. -/
theorem codes_spelling (account : AccountView) {s t : String} (same : Spelling s t) :
    (account.equity.atto ≤ 0 ∨ trimmed s = "" ∨ account.heldQuantity s = account.heldQuantity t →
      SpellingFree account s t) ∧
    (SpellingFree account s t →
      account.equity.atto ≤ 0 ∨ trimmed s = "" ∨ (account.heldQuantity s).atto = (account.heldQuantity t).atto ∨
        (∃ e, DecMath.neg (account.heldQuantity s) = .error e) ∧
          ∃ e, DecMath.neg (account.heldQuantity t) = .error e) := by
  constructor
  · intro cases'
    refine spellingFree_of_held same fun equity named => ?_
    rcases cases' with poor | unnamed | held
    · omega
    · exact absurd unnamed named
    · exact held
  · intro free
    rcases le_or_gt account.equity.atto 0 with poor | equity
    · exact .inl poor
    · by_cases named : trimmed s = ""
      · exact .inr (.inl named)
      · have indistinct : Guard.Indistinct (account.heldQuantity s) (account.heldQuantity t) :=
          fun side _ positive => free.isReducing same equity named side positive
        exact .inr (.inr indistinct.same)

end PreTradeGuard

/-! ## A held share under another spelling -/

namespace Sell

attribute [local instance] asciiCase epochText

private def cents (n : Fin (10 ^ 9)) : Dec := (Amount.cents n).toDec

private def book : Policy where
  bodyHash := ""
  envelope := some ⟨1, .active, 0, 1⟩
  maxPriceAgeSecs := ⟨60, by decide⟩
  body := .valid { noLimits "USD" with
    allocated := .cents 120000
    instrumentAllow := .ofList ["AAPL"]
    venues := .ofList ["alpaca"]
    assetClasses := .ofList ["equity"]
    leverageMaxGross := .cents 100
    maxPosition := .cents 100
    maxGross := .cents 100
    maxNet := .cents 100
    maxOrderNotional := .cents 50000
    maxOrdersPerDay := 10
    maxTurnoverPerDay := .cents 100 }

private def holder : AccountView where
  accountId := "acct"
  ccy := "USD"
  equity := cents 120000
  cash := cents 100000
  positions := [⟨"AAPL", "alpaca", "equity", cents 100, cents 20000⟩]
  halted := false
  now := 0

private def sellOne : ProposedOrder where
  venue := "alpaca"
  assetClass := "equity"
  symbol := "AAPL"
  side := .sell
  quantity := cents 100
  price := some ⟨cents 20000, 0⟩
  estFee := Dec.zero
  usesMargin := false
  isDerivative := false
  lossRungCover := false

/-- A sell of the share held is allowed; with a blank before the symbol it is a forbidden short. -/
theorem blank_makes_short :
    Spelling "AAPL" " AAPL" ∧
      (PreTradeGuard.check book holder sellOne ⟨0, Dec.zero⟩).codes = [] ∧
      (PreTradeGuard.check book holder (sellOne.spelled " AAPL") ⟨0, Dec.zero⟩).codes = [.shortingForbidden] := by
  refine ⟨?_, ?_, ?_⟩ <;> decide +kernel

/-- In lower case the symbol is found as well. -/
theorem codes_spelling_lower_case : PreTradeGuard.SpellingFree holder "AAPL" "aapl" :=
  (PreTradeGuard.codes_spelling holder (by decide +kernel)).1 (.inr (.inr (by decide +kernel)))

end Sell

end RebalancerCore
