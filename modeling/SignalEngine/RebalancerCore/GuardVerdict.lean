import SignalEngine.RebalancerCore.Guard

/-! # What an allowed order has passed

The guard allows an order when its check is clean. `Passed` names every rule the
order went through, with the values the rules were evaluated on; the verdict is
`allow` exactly when such values exist.
-/

open BrokerAdapters Outcome Text Report

namespace RebalancerCore

namespace Guard

/-- A value within a limit that is a fraction of the capital base. -/
def Within (fraction base value : Dec) : Prop :=
  ∃ cap, DecMath.mul fraction base = .ok cap ∧ value ≤ cap

theorem denyIf_clean {found : Bool} {code : DenialCode} {message : String} {u : Unit} :
    (denyIf found code message).Clean u ↔ found = false := clean_reportIf

theorem not_lt_iff {a b : Dec} : decide (a < b) = false ↔ b ≤ a := by
  rw [decide_eq_false_iff_not, Dec.lt_iff, Dec.le_iff, not_lt]

theorem checkCap_clean {fraction base value : Dec} {code : DenialCode} {message : Dec → String}
    {u : Unit} :
    (checkCap fraction base value code message).Clean u ↔ Within fraction base value := by
  simp only [checkCap, clean_bind, clean_lift, denyIf_clean, not_lt_iff, Within]

theorem checkAssetClass_clean {limits : Limits} {assetClass : String} {base : Dec} {after : After}
    {u : Unit} : (checkAssetClass limits assetClass base after).Clean u ↔
      ∀ cap, limits.maxAssetClass[assetClass]? = some cap → Within cap base after.classGross := by
  unfold checkAssetClass
  cases limits.maxAssetClass[assetClass]? with
  | none => simp
  | some classCap => simp [checkCap_clean]

theorem checkNet_clean {limits : Limits} {base : Dec} {after : After} {u : Unit} :
    (checkNet limits base after).Clean u ↔
      ∃ net, DecMath.abs after.net = .ok net ∧ Within limits.maxNet base net := by
  simp only [checkNet, clean_bind, clean_lift, denyIf_clean, not_lt_iff, Within]
  constructor
  · rintro ⟨cap, product, net, size, le⟩
    exact ⟨net, size, cap, product, le⟩
  · rintro ⟨net, size, cap, product, le⟩
    exact ⟨cap, product, net, size, le⟩

section Rules

variable [UnicodeCase]

/-- The exposure limits of a non-reducing order. -/
structure ExposureWithin (limits : Limits) (held : Dec) (order : ProposedOrder)
    (rule : Option InstrumentVenueRule) (base notional : Dec) (after : After) : Prop where
  notional : notional ≤ limits.maxOrderNotional.toDec
  position : Within limits.maxPosition base after.positionValue
  units : (checkPositionUnits held order rule).Clean ()
  assetClass : ∀ cap, limits.maxAssetClass[lowerName order.assetClass]? = some cap →
    Within cap base after.classGross
  gross : Within limits.maxGross base after.gross
  net : ∃ net, DecMath.abs after.net = .ok net ∧ Within limits.maxNet base net

theorem checkExposure_clean {limits : Limits} {held : Dec} {order : ProposedOrder}
    {rule : Option InstrumentVenueRule} {base notional : Dec} {after : After} {u : Unit} :
    (checkExposure limits held order rule base notional after).Clean u ↔
      ExposureWithin limits held order rule base notional after := by
  simp only [checkExposure, clean_bind, exists_unit, denyIf_clean, not_lt_iff, checkCap_clean,
    checkAssetClass_clean, checkNet_clean]
  constructor
  · rintro ⟨notional, position, units, assetClass, gross, net⟩
    exact ⟨notional, position, units, assetClass, gross, net⟩
  · rintro ⟨notional, position, units, assetClass, gross, net⟩
    exact ⟨notional, position, units, assetClass, gross, net⟩

/-- The limits on the day's churn. -/
structure ChurnWithin (limits : Limits) (day : DayCounters) (base notional : Dec) : Prop where
  orders : day.ordersToday + 1 ≤ limits.maxOrdersPerDay
  turnover : ∃ turnover, DecMath.add day.turnoverToday notional = .ok turnover ∧
    Within limits.maxTurnoverPerDay base turnover

omit [UnicodeCase] in
theorem checkChurn_clean {limits : Limits} {day : DayCounters} {base notional : Dec} {u : Unit} :
    (checkChurn limits day base notional).Clean u ↔ ChurnWithin limits day base notional := by
  simp only [checkChurn, clean_bind, exists_unit, clean_lift, denyIf_clean, checkCap_clean,
    decide_eq_false_iff_not, not_lt]
  constructor
  · rintro ⟨orders, turnover⟩
    exact ⟨orders, turnover⟩
  · rintro ⟨orders, turnover⟩
    exact ⟨orders, turnover⟩

/-- What is left of the buying power, or of the cash, covers `reserve`. -/
def Funded (account : AccountView) (order : ProposedOrder) (context : Option SignedContext)
    (onMargin : Bool) (price reserve : Dec) (after : After) : Prop :=
  match context.map fun c => c.margin.buyingPowerLeft with
  | some (some buyingPower) =>
      ∃ increase rest left, increasingNotional account order price = .ok increase ∧
        DecMath.sub buyingPower increase = .ok rest ∧ DecMath.sub rest order.estFee = .ok left ∧
        reserve ≤ left
  | some none => (order.usesMargin || onMargin) = false ∧ reserve ≤ after.cash
  | none => reserve ≤ after.cash

omit [UnicodeCase] in
theorem checkFunding_clean {account : AccountView} {order : ProposedOrder}
    {context : Option SignedContext} {onMargin : Bool} {price reserve : Dec} {after : After}
    {u : Unit} : (checkFunding account order context onMargin price reserve after).Clean u ↔
      Funded account order context onMargin price reserve after := by
  unfold checkFunding Funded
  generalize context.map (fun c => c.margin.buyingPowerLeft) = funds
  match funds with
  | some (some buyingPower) =>
      simp only [clean_bind, clean_lift, denyIf_clean, not_lt_iff]
      constructor
      · rintro ⟨increase, i, rest, r, left, l, le⟩
        exact ⟨increase, rest, left, i, r, l, le⟩
      · rintro ⟨increase, rest, left, i, r, l, le⟩
        exact ⟨increase, i, rest, r, left, l, le⟩
  | some none =>
      cases margin : order.usesMargin || onMargin
      · simp [checkFunding.checkCash, denyIf_clean, Dec.lt_iff, Dec.le_iff]
      · simp [deny]
  | none => simp [checkFunding.checkCash, denyIf_clean, Dec.lt_iff, Dec.le_iff]

/-- The gross test of the signed path; the caller's flag on the long-only one. -/
def LeverageWithin (limits : Limits) (order : ProposedOrder) (context : Option SignedContext)
    (rule : Option InstrumentVenueRule) (base : Dec) (reducing : Bool) (after : After) : Prop :=
  match context with
  | some _ => reducing = false → Within (effectiveGrossCap limits rule) base after.gross
  | none => order.usesMargin = true → Dec.one < limits.leverageMaxGross.toDec

/-- Every rule an allowed order has passed, with the values they were evaluated on. -/
structure Passed [InstantText] (policy : Policy) (limits : Limits) (expired : Bool)
    (account : AccountView) (order : ProposedOrder) (day : DayCounters)
    (context : Option SignedContext) (reducing onMargin : Bool) (price notional : Dec)
    (after : After) : Prop where
  reducing_eq : isReducing (account.heldQuantity order.symbol) order.side order.quantity =
    .ok reducing
  state : reducing = false → account.halted = false ∧ expired = false
  price_eq : (checkPrice policy account order).Clean (some price)
  «universe» : (checkUniverse limits order).Clean ()
  shorting : (checkShorting limits (account.heldQuantity order.symbol) order context
    (context.bind fun c => c.instruments.rule order.venue order.symbol)).Clean ()
  derivatives : order.isDerivative = true → limits.derivatives = true
  margin_eq : derivedMargin account order context (some price) = .ok onMargin
  notional_eq : DecMath.mul order.quantity price = .ok notional
  after_eq : afterState account order notional (lowerName order.assetClass) = .ok after
  leverage : LeverageWithin limits order context
    (context.bind fun c => c.instruments.rule order.venue order.symbol)
    (policy.capitalBase account.equity account.ccy) reducing after
  exposure : reducing = false → ExposureWithin limits (account.heldQuantity order.symbol) order
    (context.bind fun c => c.instruments.rule order.venue order.symbol)
    (policy.capitalBase account.equity account.ccy) notional after
  churn : churnExempt account order expired reducing = false →
    ChurnWithin limits day (policy.capitalBase account.equity account.ccy) notional
  funding : reducing = false → ∃ reserve,
    policy.reserveAmount (policy.capitalBase account.equity account.ccy) = .ok reserve ∧
      Funded account order context onMargin price reserve after

variable [InstantText] {policy : Policy} {limits : Limits} {expired : Bool} {account : AccountView}
  {order : ProposedOrder} {day : DayCounters} {context : Option SignedContext}

omit [UnicodeCase] [InstantText] in
theorem checkState_clean {reducing : Bool} {u : Unit} :
    (checkState account expired reducing).Clean u ↔
      (reducing = false → account.halted = false ∧ expired = false) := by
  simp only [checkState, clean_bind, exists_unit, denyIf_clean]
  cases reducing <;> simp

omit [UnicodeCase] in
theorem checkPrice_clean {price : Option Dec} (clean : (checkPrice policy account order).Clean price) :
    ∃ p, order.price = some p ∧ price = some p.price := by
  unfold checkPrice at clean
  split at clean
  · simp [clean_bind, deny] at clean
  next p quoted =>
      simp only at clean
      split at clean
      · simp [clean_bind, deny] at clean
      split at clean
      · simp [clean_bind, deny] at clean
      split at clean
      · simp [clean_bind, deny] at clean
      exact ⟨p, quoted, (clean_pure.1 clean).symm⟩

omit [InstantText] in
theorem checkLeverage_clean {rule : Option InstrumentVenueRule} {base price notional : Dec}
    {reducing : Bool} {after : After} {u : Unit}
    (notional_eq : DecMath.mul order.quantity price = .ok notional)
    (after_eq : afterState account order notional (lowerName order.assetClass) = .ok after) :
    (checkLeverage limits account order context rule base reducing (some price)).Clean u ↔
      LeverageWithin limits order context rule base reducing after := by
  unfold checkLeverage LeverageWithin
  cases context with
  | none => simp [denyIf_clean, Dec.lt_iff, Dec.le_iff]
  | some c => simp [clean_bind, checkCap_clean, notional_eq, after_eq]

theorem checkOrder_clean {u : Unit} :
    (checkOrder policy limits expired account order day context).Clean u ↔
      ∃ reducing onMargin price notional after,
        Passed policy limits expired account order day context reducing onMargin price notional
          after := by
  simp only [checkOrder, checkPriced, clean_bind, exists_unit, clean_lift, checkState_clean,
    denyIf_clean]
  constructor
  · rintro ⟨reducing, reducing_eq, state, found, price_eq, rest⟩
    obtain ⟨quote, -, rfl⟩ := checkPrice_clean price_eq
    obtain ⟨«universe», shorting, derivatives, onMargin, margin_eq, leverage, priced⟩ := rest
    simp only [clean_bind, exists_unit, clean_lift, clean_skipIf, checkExposure_clean,
      checkChurn_clean, checkFunding_clean] at priced
    obtain ⟨notional, notional_eq, after, after_eq, exposure, churn, funding⟩ := priced
    refine ⟨reducing, onMargin, quote.price, notional, after, ?_⟩
    exact
      { reducing_eq, state, price_eq, «universe», shorting, margin_eq, notional_eq, after_eq,
        exposure, churn, funding
        derivatives := by simpa using derivatives
        leverage := (checkLeverage_clean notional_eq after_eq).1 leverage }
  · rintro ⟨reducing, onMargin, price, notional, after, passed⟩
    refine ⟨reducing, passed.reducing_eq, passed.state, some price, passed.price_eq,
      passed.universe, passed.shorting, by simpa using passed.derivatives, onMargin,
      passed.margin_eq, (checkLeverage_clean passed.notional_eq passed.after_eq).2 passed.leverage,
      ?_⟩
    simp only [clean_bind, exists_unit, clean_lift, clean_skipIf, checkExposure_clean,
      checkChurn_clean, checkFunding_clean]
    exact ⟨notional, passed.notional_eq, after, passed.after_eq, passed.exposure, passed.churn,
      passed.funding⟩

/-- An order the guard looks at: well formed, on a readable account in the
    mandate's currency. -/
structure Readable (limits : Limits) (account : AccountView) (order : ProposedOrder) : Prop where
  quantity : 0 < order.quantity.atto
  fee : 0 ≤ order.estFee.atto
  symbol : trimmed order.symbol ≠ ""
  equity : 0 < account.equity.atto
  currency : eqIgnoreAsciiCase (trimmed account.ccy) limits.ccy = true

theorem checkReadable_clean {u : Unit} :
    (checkReadable policy limits expired account order day context).Clean u ↔
      Readable limits account order ∧
        (checkOrder policy limits expired account order day context).Clean u := by
  unfold checkReadable
  split
  next malformed =>
      simp only [deny, not_clean_report, false_iff, not_and]
      intro readable
      simp [Dec.isPositive_iff.2 readable.quantity, readable.symbol,
        Bool.eq_false_iff.2 (mt Dec.isNegative_iff.1 (not_lt.2 readable.fee))] at malformed
  next formed =>
      simp only [Bool.or_eq_true, Bool.not_eq_true', not_or, Bool.not_eq_false, beq_iff_eq,
        Bool.not_eq_true] at formed
      obtain ⟨⟨quantity, fee⟩, symbol⟩ := formed
      split
      next broke =>
          simp only [deny, not_clean_report, false_iff, not_and]
          intro readable
          simp [Dec.isPositive_iff.2 readable.equity] at broke
      next equity =>
          simp only [Bool.not_eq_true', Bool.not_eq_false] at equity
          split
          next foreign =>
              simp only [deny, not_clean_report, false_iff, not_and]
              intro readable
              simp [readable.currency] at foreign
          next currency =>
              simp only [Bool.not_eq_true', Bool.not_eq_false] at currency
              have fee' : 0 ≤ order.estFee.atto := by
                rw [← not_lt, ← Dec.isNegative_iff, fee]
                simp
              have readable : Readable limits account order :=
                ⟨Dec.isPositive_iff.1 quantity, fee', symbol, Dec.isPositive_iff.1 equity, currency⟩
              simp [readable]

/-- The standing of a policy that can be used. -/
def standingOf (expired : Bool) : Standing := if expired then .expired else .active

theorem checkInner_clean {u : Unit} :
    (checkInner policy account order day context).Clean u ↔
      ∃ limits expired, policy.body = .valid limits ∧
        policy.standing account.now = standingOf expired ∧
        (checkReadable policy limits expired account order day context).Clean u := by
  unfold checkInner
  cases standing : policy.standing account.now <;> cases body : policy.body <;>
    simp [deny, standingOf]

/-- The verdict is `allow` exactly when the order has passed every rule. -/
theorem run_allow_iff : (PreTradeGuard.run policy account order day context).allow = true ↔
    ∃ limits expired, policy.body = .valid limits ∧
      policy.standing account.now = standingOf expired ∧ Readable limits account order ∧
      ∃ reducing onMargin price notional after,
        Passed policy limits expired account order day context reducing onMargin price notional
          after := by
  have clean : (PreTradeGuard.run policy account order day context).allow = true ↔
      (checkInner policy account order day context).Clean () := by
    unfold PreTradeGuard.run Clean
    generalize checkInner policy account order day context = report
    cases report with
    | mk result findings => cases result <;> simp
  rw [clean, checkInner_clean]
  simp only [checkReadable_clean, checkOrder_clean]

end Rules

end Guard

end RebalancerCore
