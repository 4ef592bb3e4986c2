import SignalEngine.RebalancerCore.Venue
import SignalEngine.Lib.Report

/-! # Pre-trade guard

A pure function from a policy, an account, a proposed order and the day's
counters to a verdict. All denials that apply are reported, in a fixed order;
arithmetic that overflows stops the check and denies as well.
-/

open BrokerAdapters Outcome Text

namespace RebalancerCore

inductive DenialCode where
  | mandateInvalid
  | mandateNotActive
  | mandateExpired
  | accountHalted
  | orderInvalid
  | equityInvalid
  | currencyMismatch
  | priceMissing
  | priceStale
  | instrumentDenied
  | instrumentNotAllowed
  | venueNotAllowed
  | assetClassNotAllowed
  | shortingForbidden
  | derivativesForbidden
  | leverageForbidden
  | maxOrderNotional
  | maxPosition
  | maxAssetClass
  | maxGross
  | maxNet
  | maxOrdersPerDay
  | maxTurnoverPerDay
  | cashReserve
  | arithmeticOverflow
  deriving Repr, DecidableEq

def DenialCode.asStr : DenialCode → String
  | mandateInvalid => "MANDATE_INVALID"
  | mandateNotActive => "MANDATE_NOT_ACTIVE"
  | mandateExpired => "MANDATE_EXPIRED"
  | accountHalted => "ACCOUNT_HALTED"
  | orderInvalid => "ORDER_INVALID"
  | equityInvalid => "EQUITY_INVALID"
  | currencyMismatch => "CURRENCY_MISMATCH"
  | priceMissing => "PRICE_MISSING"
  | priceStale => "PRICE_STALE"
  | instrumentDenied => "INSTRUMENT_DENIED"
  | instrumentNotAllowed => "INSTRUMENT_NOT_ALLOWED"
  | venueNotAllowed => "VENUE_NOT_ALLOWED"
  | assetClassNotAllowed => "ASSET_CLASS_NOT_ALLOWED"
  | shortingForbidden => "SHORTING_FORBIDDEN"
  | derivativesForbidden => "DERIVATIVES_FORBIDDEN"
  | leverageForbidden => "LEVERAGE_FORBIDDEN"
  | maxOrderNotional => "MAX_ORDER_NOTIONAL"
  | maxPosition => "MAX_POSITION"
  | maxAssetClass => "MAX_ASSET_CLASS"
  | maxGross => "MAX_GROSS"
  | maxNet => "MAX_NET"
  | maxOrdersPerDay => "MAX_ORDERS_PER_DAY"
  | maxTurnoverPerDay => "MAX_TURNOVER_PER_DAY"
  | cashReserve => "CASH_RESERVE"
  | arithmeticOverflow => "ARITHMETIC_OVERFLOW"

structure Denial where
  code : DenialCode
  message : String
  deriving DecidableEq

structure Verdict where
  allow : Bool
  reasons : List Denial
  deriving DecidableEq

/-- One held position as the broker reports it; the quantity is signed. -/
structure Position where
  symbol : String
  venue : String
  assetClass : String
  quantity : Dec
  marketValue : Dec
  deriving DecidableEq

/-- The account as the broker reports it at one instant. -/
structure AccountView where
  accountId : String
  ccy : String
  equity : Dec
  cash : Dec
  positions : List Position
  halted : Bool
  now : Instant
  deriving DecidableEq

structure PricePoint where
  price : Dec
  asOf : Instant
  deriving DecidableEq

structure ProposedOrder where
  venue : String
  assetClass : String
  symbol : String
  side : Side
  quantity : Dec
  price : Option PricePoint
  estFee : Dec
  usesMargin : Bool
  isDerivative : Bool
  /-- A loss rung of the mandate requires this order. -/
  lossRungCover : Bool
  deriving DecidableEq

/-- What has already been done today. -/
structure DayCounters where
  ordersToday : Nat
  turnoverToday : Dec
  deriving DecidableEq

structure MarginContext where
  /-- What is left of the buying power before this order. -/
  buyingPowerLeft : Option Dec
  deriving DecidableEq

/-- Margin awareness and venue facts of a signed plan. -/
structure SignedContext where
  margin : MarginContext
  instruments : InstrumentRules

def MathError.display : MathError → String
  | .overflow => "decimal arithmetic overflow"
  | .badDivisor => "division by a non-positive number"
  | .badRatio value why => s!"ratio {value} cannot be converted: {why}"

def Dec.one : Dec := ⟨⟨1, Dec.fits_one⟩, 0, Dec.scale_zero⟩

namespace AccountView

def position (account : AccountView) (symbol : String) : Option Position :=
  account.positions.find? fun (p : Position) => eqIgnoreAsciiCase p.symbol symbol

def heldQuantity (account : AccountView) (symbol : String) : Dec :=
  match account.position symbol with
  | some p => p.quantity
  | none => Dec.zero

end AccountView

namespace Guard

/-- A check over the rules, with the denials found on the way. -/
abbrev Check := Report MathError Denial

def deny (code : DenialCode) (message : String) : Check Unit := Report.report ⟨code, message⟩

def denyIf (found : Bool) (code : DenialCode) (message : String) : Check Unit :=
  Report.reportIf found ⟨code, message⟩

/-- The exposure after the order. -/
structure After where
  positionValue : Dec
  gross : Dec
  net : Dec
  classGross : Dec
  cash : Dec
  deriving DecidableEq

/-- The running sums over the positions: the traded one apart from the others. -/
structure Sums where
  positionValue : Dec
  othersGross : Dec
  othersNet : Dec
  othersClassGross : Dec
  deriving DecidableEq

/-- The position counts towards its own asset class only. -/
def Sums.addClass (assetClass : String) (s : Sums) (p : Position) (size : Dec) :
    Except MathError Dec :=
  if eqIgnoreAsciiCase (trimmed p.assetClass) assetClass then DecMath.add s.othersClassGross size
  else .ok s.othersClassGross

def Sums.add (symbol assetClass : String) (s : Sums) (p : Position) : Except MathError Sums :=
  if eqIgnoreAsciiCase p.symbol (trimmed symbol) then do
    let positionValue ← DecMath.add s.positionValue p.marketValue
    .ok { s with positionValue }
  else do
    let a ← DecMath.abs p.marketValue
    let othersGross ← DecMath.add s.othersGross a
    let othersNet ← DecMath.add s.othersNet p.marketValue
    let othersClassGross ← s.addClass assetClass p a
    .ok { s with othersGross, othersNet, othersClassGross }

/-- Positive for a buy, negative for a sell. -/
def signed (side : Side) (d : Dec) : Except MathError Dec :=
  match side with
  | .buy => .ok d
  | .sell => DecMath.neg d

def afterState (account : AccountView) (order : ProposedOrder) (notional : Dec)
    (assetClass : String) : Except MathError After := do
  let change ← signed order.side notional
  let sums ← account.positions.foldlM (Sums.add order.symbol assetClass)
    ⟨change, Dec.zero, Dec.zero, Dec.zero⟩
  let positionValue ← DecMath.abs sums.positionValue
  let gross ← DecMath.add sums.othersGross positionValue
  let net ← DecMath.add sums.othersNet sums.positionValue
  let classGross ← DecMath.add sums.othersClassGross positionValue
  let paid ← DecMath.sub account.cash change
  let cash ← DecMath.sub paid order.estFee
  .ok ⟨positionValue, gross, net, classGross, cash⟩

/-- A sell up to the long held, or a buy up to the short held. -/
def isReducing (held : Dec) (side : Side) (quantity : Dec) : Except MathError Bool :=
  match side with
  | .sell => .ok (held.isPositive && decide (quantity ≤ held))
  | .buy =>
      if held.isNegative then do
        let short ← DecMath.neg held
        .ok (decide (quantity ≤ short))
      else .ok false

section Checks

variable [UnicodeCase] [InstantText]

omit [InstantText] in
/-- Would this order put the account on margin? Data about the order, not a
    permission test. -/
def marginUse (account : AccountView) (order : ProposedOrder) (price : Dec) :
    Except MathError Bool := do
  let held := account.heldQuantity order.symbol
  let change ← signed order.side order.quantity
  let reducing ← isReducing held order.side order.quantity
  if reducing then .ok false
  else do
    let notional ← DecMath.mul order.quantity price
    let after ← afterState account order notional (lowerName order.assetClass)
    let left ← DecMath.add held change
    .ok (left.isNegative || decide (account.equity < after.gross) || after.cash.isNegative)

/-- Why the venue facts do not let this short be opened, if they do not. -/
def venueShortBlock (instruments : InstrumentRules) (rule : Option InstrumentVenueRule)
    (order : ProposedOrder) : Option String :=
  match rule with
  | none =>
      some s!"no venue rule is known for {lowerName order.venue}/{upperName order.symbol}, so whether it can be shorted is unknown and the short is refused"
  | some rule =>
      match rule.short with
      | .allowed => none
      | .forbidden reason =>
          some s!"the venue does not allow shorting {upperName order.symbol}: {reason}"
      | .needsLocate =>
          if instruments.hasLocate order.venue order.symbol then none
          else some s!"shorting {upperName order.symbol} needs a borrow locate and none was supplied"

/-- The lowest of the mandate's two gross caps and the venue's leverage, as a
    multiple of the capital base. -/
def effectiveGrossCap (limits : Limits) (rule : Option InstrumentVenueRule) : Dec :=
  let cap := min limits.leverageMaxGross.toDec limits.maxGross.toDec
  match rule.bind InstrumentVenueRule.maxLeverage with
  | some venue => min cap venue
  | none => cap

/-- The part of the order that closes what is held on the other side. -/
def closingQuantity (held : Dec) (order : ProposedOrder) : Except MathError Dec :=
  match order.side with
  | .sell => .ok (if held.isPositive then min order.quantity held else Dec.zero)
  | .buy =>
      if held.isNegative then do
        let short ← DecMath.neg held
        .ok (min order.quantity short)
      else .ok Dec.zero

/-- The part of a non-reducing order that adds exposure. -/
def increasingNotional (account : AccountView) (order : ProposedOrder) (price : Dec) :
    Except MathError Dec := do
  let closing ← closingQuantity (account.heldQuantity order.symbol) order
  let opening ← DecMath.sub order.quantity closing
  DecMath.mul opening price

def maxFutureSkewSecs : Int := 5

/-- Seconds as milliseconds, saturating at the ends of 64 bits. -/
def saturatingMillis (secs : Int) : Int := max (-2 ^ 63) (min (2 ^ 63 - 1) (secs * 1000))

def nanosPerMilli : Int := 1000000

/-- The usable price, or a report why there is none. -/
def checkPrice (policy : Policy) (account : AccountView) (order : ProposedOrder) :
    Check (Option Dec) :=
  match order.price with
  | none => do
      deny .priceMissing s!"no price for {order.symbol}"
      pure none
  | some p =>
      let ageMs := (account.now - p.asOf).tdiv nanosPerMilli
      if !p.price.isPositive then do
        deny .priceMissing s!"price {p.price.display} for {order.symbol} is not positive"
        pure none
      else if ageMs < -saturatingMillis maxFutureSkewSecs then do
        deny .priceStale
          s!"price for {order.symbol} is stamped in the future ({InstantText.display p.asOf})"
        pure none
      else if ageMs > saturatingMillis policy.maxPriceAgeSecs.val then do
        deny .priceStale
          s!"price for {order.symbol} is {ageMs.tdiv 1000} s old; the limit is {policy.maxPriceAgeSecs.val} s"
        pure none
      else pure (some p.price)

/-- The deny list first; an instrument on neither list is not allowed. -/
def checkInstrument (limits : Limits) (symbol : String) : Check Unit :=
  if limits.instrumentDeny.contains symbol then
    deny .instrumentDenied s!"{symbol} is on the deny list"
  else
    denyIf (!limits.instrumentAllow.contains symbol) .instrumentNotAllowed
      s!"{symbol} is not on the allow list"

def checkUniverse (limits : Limits) (order : ProposedOrder) : Check Unit := do
  let venue := lowerName order.venue
  let assetClass := lowerName order.assetClass
  checkInstrument limits (upperName order.symbol)
  denyIf (!limits.venues.contains venue) .venueNotAllowed s!"venue {venue} is not allowed"
  denyIf (!limits.assetClasses.contains assetClass) .assetClassNotAllowed
    s!"asset class {assetClass} is not allowed"

def checkState (account : AccountView) (expired reducing : Bool) : Check Unit := do
  denyIf (account.halted && !reducing) .accountHalted
    "the account is halted: only reducing orders are allowed"
  denyIf (expired && !reducing) .mandateExpired
    "the mandate is past its review date: only reducing orders are allowed"

/-- Shorting is decided by the mandate and, on the signed path, by the venue facts. -/
def checkShorting (limits : Limits) (held : Dec) (order : ProposedOrder)
    (context : Option SignedContext) (rule : Option InstrumentVenueRule) : Check Unit :=
  let heldLong := if held.isPositive then held else Dec.zero
  let opensShort := decide (order.side = .sell) && decide (heldLong < order.quantity)
  let mandateBlocks := opensShort && !limits.shorting
  let venueBlocks :=
    match context with
    | some c => if opensShort then venueShortBlock c.instruments rule order else none
    | none => none
  let mandateWhy :=
    if mandateBlocks then
      [s!"selling {order.quantity.display} {order.symbol} would exceed the {heldLong.display} held and shorting is off"]
    else []
  denyIf (mandateBlocks || venueBlocks.isSome) .shortingForbidden
    ("; ".intercalate (mandateWhy ++ venueBlocks.toList))

/-- With a margin context, margin use is derived from the account itself. -/
def derivedMargin (account : AccountView) (order : ProposedOrder) (context : Option SignedContext)
    (price : Option Dec) : Except MathError Bool :=
  match context, price with
  | some _, some p => marginUse account order p
  | _, _ => .ok false

/-- A limit times the capital base, and a value that must not exceed it. -/
def checkCap (fraction base value : Dec) (code : DenialCode) (message : Dec → String) :
    Check Unit := do
  let cap ← DecMath.mul fraction base
  denyIf (decide (cap < value)) code (message cap)

def checkLeverage (limits : Limits) (account : AccountView) (order : ProposedOrder)
    (context : Option SignedContext) (rule : Option InstrumentVenueRule) (base : Dec)
    (reducing : Bool) (price : Option Dec) : Check Unit :=
  match context, price with
  -- Signed path: a gross test against the effective cap.
  | some _, some p =>
      Report.skipIf reducing do
        let notional ← DecMath.mul order.quantity p
        let after ← afterState account order notional (lowerName order.assetClass)
        let mult := effectiveGrossCap limits rule
        let venue := ((rule.bind InstrumentVenueRule.maxLeverage).map Dec.display).getD "none given"
        checkCap mult base after.gross .leverageForbidden fun cap =>
          s!"gross exposure would be {after.gross.display} after the order; the effective gross cap is {cap.display} ({mult.display}x the capital base: the lowest of mandate leverage {limits.leverageMaxGross.toDec.display}, mandate/deployment max gross {limits.maxGross.toDec.display}, venue max leverage {venue})"
  -- Long-only path: the caller's flag.
  | none, _ =>
      denyIf (order.usesMargin && decide (limits.leverageMaxGross.toDec ≤ Dec.one))
        .leverageForbidden "the order uses margin and the mandate allows no leverage"
  | some _, none => pure ()

/-- The venue's own limit on the size of a position. -/
def checkPositionUnits (held : Dec) (order : ProposedOrder) (rule : Option InstrumentVenueRule) :
    Check Unit :=
  match rule.bind InstrumentVenueRule.maxPositionUnits with
  | none => pure ()
  | some maxUnits => do
      let change ← signed order.side order.quantity
      let left ← DecMath.add held change
      let units ← DecMath.abs left
      denyIf (decide (maxUnits < units)) .maxPosition
        s!"{order.symbol} would be {units.display} units after the order; the venue's maximum position size is {maxUnits.display}"

def checkAssetClass (limits : Limits) (assetClass : String) (base : Dec) (after : After) :
    Check Unit :=
  match limits.maxAssetClass[assetClass]? with
  | none => pure ()
  | some classCap =>
      checkCap classCap base after.classGross .maxAssetClass fun cap =>
        s!"asset class {assetClass} would be {after.classGross.display} after the order; the cap is {cap.display}"

def checkNet (limits : Limits) (base : Dec) (after : After) : Check Unit := do
  let cap ← DecMath.mul limits.maxNet base
  let net ← DecMath.abs after.net
  denyIf (decide (cap < net)) .maxNet
    s!"net exposure would be {after.net.display}; the cap is {cap.display}"

/-- The exposure limits, which a reducing order is exempt from. -/
def checkExposure (limits : Limits) (held : Dec) (order : ProposedOrder)
    (rule : Option InstrumentVenueRule) (base notional : Dec) (after : After) : Check Unit := do
  denyIf (decide (limits.maxOrderNotional.toDec < notional)) .maxOrderNotional
    s!"order notional {notional.display} is above the limit {limits.maxOrderNotional.toDec.display}"
  checkCap limits.maxPosition base after.positionValue .maxPosition fun cap =>
    s!"{order.symbol} would be {after.positionValue.display} after the order; the cap is {cap.display}"
  checkPositionUnits held order rule
  checkAssetClass limits (lowerName order.assetClass) base after
  checkCap limits.maxGross base after.gross .maxGross fun cap =>
    s!"gross exposure would be {after.gross.display}; the cap is {cap.display}"
  checkNet limits base after

/-- The limits on the day's orders and turnover. -/
def checkChurn (limits : Limits) (day : DayCounters) (base notional : Dec) : Check Unit := do
  denyIf (decide (limits.maxOrdersPerDay < day.ordersToday + 1)) .maxOrdersPerDay
    s!"{day.ordersToday} orders already placed today; the limit is {limits.maxOrdersPerDay}"
  let turnover ← DecMath.add day.turnoverToday notional
  checkCap limits.maxTurnoverPerDay base turnover .maxTurnoverPerDay fun cap =>
    s!"today's turnover would be {turnover.display}; the limit is {cap.display}"

/-- The reserve is measured against buying power where the caller gave one, and
    against cash otherwise. -/
def checkFunding (account : AccountView) (order : ProposedOrder) (context : Option SignedContext)
    (derivedMargin : Bool) (price reserve : Dec) (after : After) : Check Unit :=
  match context.map fun c => c.margin.buyingPowerLeft with
  | some (some buyingPower) => do
      let increase ← increasingNotional account order price
      let rest ← DecMath.sub buyingPower increase
      let left ← DecMath.sub rest order.estFee
      denyIf (decide (left < reserve)) .cashReserve
        s!"buying power would be {left.display} after the order (increasing {increase.display}, fee {order.estFee.display}); the required reserve is {reserve.display}"
  | some none =>
      if order.usesMargin || derivedMargin then
        deny .cashReserve
          "the order needs margin and no buying power figure was supplied to check it against"
      else checkCash reserve
  | none => checkCash reserve
where
  checkCash (reserve : Dec) : Check Unit :=
    denyIf (decide (after.cash < reserve)) .cashReserve
      s!"cash would be {after.cash.display} after the order; the required reserve is {reserve.display}"

/-- Orders that skip the limits on the day's churn: reductions of a halted or
    expired account, and covers a loss rung requires. -/
def churnExempt (account : AccountView) (order : ProposedOrder) (expired reducing : Bool) : Bool :=
  ((account.halted || expired) && reducing) ||
    (order.lossRungCover && decide (order.side = .buy) && reducing)

/-- The limits that need a price. -/
def checkPriced (policy : Policy) (limits : Limits) (account : AccountView) (order : ProposedOrder)
    (day : DayCounters) (context : Option SignedContext) (rule : Option InstrumentVenueRule)
    (base : Dec) (expired reducing derivedMargin : Bool) (price : Dec) : Check Unit := do
  let notional ← DecMath.mul order.quantity price
  let after ← afterState account order notional (lowerName order.assetClass)
  Report.skipIf reducing
    (checkExposure limits (account.heldQuantity order.symbol) order rule base notional after)
  Report.skipIf (churnExempt account order expired reducing) (checkChurn limits day base notional)
  Report.skipIf reducing do
    let reserve ← policy.reserveAmount base
    checkFunding account order context derivedMargin price reserve after

/-- The rules for a well-formed order on a readable account. -/
def checkOrder (policy : Policy) (limits : Limits) (expired : Bool) (account : AccountView)
    (order : ProposedOrder) (day : DayCounters) (context : Option SignedContext) : Check Unit := do
  let held := account.heldQuantity order.symbol
  let reducing ← isReducing held order.side order.quantity
  checkState account expired reducing
  let price ← checkPrice policy account order
  checkUniverse limits order
  let base := policy.capitalBase account.equity account.ccy
  let rule := context.bind fun c => c.instruments.rule order.venue order.symbol
  checkShorting limits held order context rule
  denyIf (order.isDerivative && !limits.derivatives) .derivativesForbidden
    "derivatives are not allowed by the mandate"
  let onMargin ← derivedMargin account order context price
  checkLeverage limits account order context rule base reducing price
  match price with
  | none => pure ()
  | some price =>
      checkPriced policy limits account order day context rule base expired reducing onMargin price

/-- The order itself, then the account, then the rules. -/
def checkReadable (policy : Policy) (limits : Limits) (expired : Bool) (account : AccountView)
    (order : ProposedOrder) (day : DayCounters) (context : Option SignedContext) : Check Unit :=
  if !order.quantity.isPositive || order.estFee.isNegative || trimmed order.symbol == "" then
    deny .orderInvalid "quantity must be positive, fee non-negative and symbol non-empty"
  else if !account.equity.isPositive then
    deny .equityInvalid s!"account equity {account.equity.display} is not positive"
  else if !eqIgnoreAsciiCase (trimmed account.ccy) limits.ccy then
    deny .currencyMismatch
      s!"account currency {account.ccy} differs from the mandate currency {limits.ccy}"
  else checkOrder policy limits expired account order day context

def checkInner (policy : Policy) (account : AccountView) (order : ProposedOrder)
    (day : DayCounters) (context : Option SignedContext) : Check Unit :=
  match policy.standing account.now, policy.body with
  | .invalid, .invalid reasons =>
      let why := "; ".intercalate reasons
      deny .mandateInvalid s!"the mandate could not be compiled: {why}"
  | .invalid, .valid _ => deny .mandateInvalid "the mandate could not be compiled: "
  | .notActive why, _ => deny .mandateNotActive why
  | _, .invalid _ => deny .mandateInvalid "no compiled limits"
  | .active, .valid limits => checkReadable policy limits false account order day context
  | .expired, .valid limits => checkReadable policy limits true account order day context

end Checks

end Guard

namespace PreTradeGuard

variable [UnicodeCase] [InstantText]

def run (policy : Policy) (account : AccountView) (order : ProposedOrder) (day : DayCounters)
    (context : Option SignedContext) : Verdict :=
  let report := Guard.checkInner policy account order day context
  let reasons :=
    match report.result with
    | .ok () => report.findings
    | .error e => report.findings ++ [⟨.arithmeticOverflow, e.display⟩]
  ⟨reasons.isEmpty, reasons⟩

/-- Check one proposed order of a long-only plan. -/
def check (policy : Policy) (account : AccountView) (order : ProposedOrder) (day : DayCounters) :
    Verdict :=
  run policy account order day none

/-- Check one order of a signed plan, with the venue's facts. -/
def checkSigned (policy : Policy) (account : AccountView) (order : ProposedOrder)
    (day : DayCounters) (margin : MarginContext) (instruments : InstrumentRules) : Verdict :=
  run policy account order day (some ⟨margin, instruments⟩)

/-- The same with no venue facts. -/
def checkMargin (policy : Policy) (account : AccountView) (order : ProposedOrder)
    (day : DayCounters) (margin : MarginContext) : Verdict :=
  checkSigned policy account order day margin .empty

end PreTradeGuard

end RebalancerCore
