import SignalEngine.Lib.FloatLike
import SignalEngine.Lib.Registry
import Mathlib.Algebra.Order.Ring.Rat
import Mathlib.Algebra.Order.Group.Unbundled.Abs

/-! # Risk controls

The kill switch, the position limits and the circuit breaker that an order passes
before it is sent, and what a fill does to them. Amounts are exact.
-/

namespace ExecutionHandler

/-! ## The kill switch -/

inductive KillReason where
  | manual
  | maxDrawdown
  | dailyLossLimit
  | rateLimit
  | positionLimit
  | systemError
  | exchangeError
  | reconciliation
  deriving DecidableEq

structure KillSwitch where
  triggered : Bool
  triggerReason : KillReason
  deriving DecidableEq

def KillSwitch.trigger (k : KillSwitch) (reason : KillReason) : KillSwitch :=
  if k.triggered then k else ⟨true, reason⟩

/-! ## Position limits -/

structure PositionLimits where
  maxPositionSize : ℚ
  maxPositionValue : ℚ
  maxPortfolioValue : ℚ
  maxOpenPositions : Nat
  maxOrderSize : ℚ
  maxOrderValue : ℚ

/-- Symbol and exchange. -/
abbrev PositionKey := String × String

instance (priority := high) positionKey_lawful : LawfulBEq PositionKey := inferInstance

abbrev PositionMap := Registry PositionKey (ℚ × ℚ)

abbrev PairLinkMap := Registry PositionKey PositionKey

/-- `f64::EPSILON` -/
def epsilon : ℚ := 1 / 2 ^ 52

inductive PositionLimitError where
  | killSwitchActive
  | orderSizeTooLarge (requested limit : ℚ)
  | orderValueTooLarge (requested limit : ℚ)
  | positionSizeTooLarge (symbol : String) (current requestedChange limit : ℚ)
  | positionValueTooLarge (symbol : String) (projectedValue limit : ℚ)
  | portfolioValueTooLarge (projectedValue limit : ℚ)
  | tooManyPositions (current limit : Nat)
  deriving DecidableEq

structure PositionLimitChecker where
  limits : PositionLimits
  positions : PositionMap
  pairLinks : PairLinkMap

section Exposure

variable {F : Type} [FloatLike F]

def signedNotional (qty value : F) : F := if 0 < qty then value else if qty < 0 then -value else 0

/-- The legs of a pair are netted, every other position counts in full. The map
    is walked in the order its hashes give, and its amounts are added as floats. -/
def nettedPortfolioExposure (order : List PositionKey) (positions : Registry PositionKey (F × F))
    (pairLinks : PairLinkMap) : F :=
  let visit (seen : List PositionKey × F) (key : PositionKey) : List PositionKey × F :=
    if key ∈ seen.1 then seen
    else
      match positions.get key with
      | none => seen
      | some (qty, value) =>
          match (pairLinks.get key).bind fun sibling => (positions.get sibling).map (sibling, ·) with
          | some (sibling, sibQty, sibValue) =>
              (sibling :: key :: seen.1,
                seen.2 + FloatLike.abs (signedNotional qty value + signedNotional sibQty sibValue))
          | none => (key :: seen.1, seen.2 + value)
  (order.foldl visit ([], 0)).2

end Exposure

structure RiskOrder where
  key : PositionKey
  quantity : ℚ
  price : ℚ
  isBuy : Bool

/-- The change of the position when all of it is filled. -/
def RiskOrder.signed (o : RiskOrder) (quantity : ℚ) : ℚ := if o.isBuy then quantity else -quantity

namespace PositionLimitChecker

def quantityOf (c : PositionLimitChecker) (key : PositionKey) : ℚ := ((c.positions.get key).getD (0, 0)).1

def openCount (c : PositionLimitChecker) : Nat := c.positions.count fun p => epsilon < |p.1|

/-- The order opens a position where there is none. -/
def wouldOpenNew (c : PositionLimitChecker) (o : RiskOrder) : Bool :=
  |c.quantityOf o.key| < epsilon && epsilon < |c.quantityOf o.key + o.signed o.quantity|

def checkOrder (c : PositionLimitChecker) (k : KillSwitch) (order : List PositionKey) (o : RiskOrder) :
    Except PositionLimitError Unit := do
  if k.triggered then throw .killSwitchActive
  let orderValue := |o.quantity| * o.price
  if |o.quantity| > c.limits.maxOrderSize then throw (.orderSizeTooLarge |o.quantity| c.limits.maxOrderSize)
  if orderValue > c.limits.maxOrderValue then throw (.orderValueTooLarge orderValue c.limits.maxOrderValue)
  let current := c.quantityOf o.key
  let newQty := current + o.signed o.quantity
  let newValue := |newQty| * o.price
  if |newQty| > c.limits.maxPositionSize then
    throw (.positionSizeTooLarge o.key.1 current (o.signed o.quantity) c.limits.maxPositionSize)
  if newValue > c.limits.maxPositionValue then
    throw (.positionValueTooLarge o.key.1 newValue c.limits.maxPositionValue)
  let totalValue := nettedPortfolioExposure order (c.positions.insert o.key (newQty, newValue)) c.pairLinks
  if totalValue > c.limits.maxPortfolioValue then
    throw (.portfolioValueTooLarge totalValue c.limits.maxPortfolioValue)
  if c.wouldOpenNew o && c.openCount ≥ c.limits.maxOpenPositions then
    throw (.tooManyPositions c.openCount c.limits.maxOpenPositions)

/-- Update the position after a fill; what is left below `epsilon` is dropped. -/
def updatePosition (c : PositionLimitChecker) (key : PositionKey) (quantity price : ℚ) : PositionLimitChecker :=
  let newQty := c.quantityOf key + quantity
  { c with
    positions :=
      if |newQty| < epsilon then c.positions.erase key
      else c.positions.insert key (newQty, |newQty| * price) }

end PositionLimitChecker

/-! ## The circuit breaker -/

structure CircuitBreakerConfig where
  maxDrawdownPct : ℚ
  maxDailyLoss : ℚ
  maxOrdersPerSecond : UInt32
  maxOrdersPerMinute : UInt32
  maxConsecutiveFailures : UInt32
  failurePauseSeconds : UInt64

inductive CircuitBreakerTrip where
  | none
  | maxDrawdown
  | dailyLossLimit
  | rateLimitSecond
  | rateLimitMinute
  | consecutiveFailures
  deriving DecidableEq

/-- Money is in cents, times are in nanoseconds. -/
structure CircuitBreaker where
  config : CircuitBreakerConfig
  highWaterMark : Int
  currentEquity : Int
  dailyPnl : Int
  dayStartEquity : Int
  ordersLastSecond : UInt64
  ordersLastMinute : UInt64
  secondWindowStart : UInt64
  minuteWindowStart : UInt64
  consecutiveFailures : UInt64
  pausedUntil : UInt64
  tripped : Option CircuitBreakerTrip

/-- `(x * 100.0) as i64`: cut off after the cents, kept within the type. -/
def toCents (x : ℚ) : Int :=
  let cents := x * 100
  let whole := if 0 ≤ cents then cents.floor else cents.ceil
  max (-2 ^ 63) (min whole (2 ^ 63 - 1))

namespace CircuitBreaker

def trip (b : CircuitBreaker) (reason : CircuitBreakerTrip) : CircuitBreaker := { b with tripped := some reason }

def checkAllowed (b : CircuitBreaker) (k : KillSwitch) (now : UInt64) : Except CircuitBreakerTrip Unit := do
  if k.triggered then throw .maxDrawdown
  match b.tripped with
  | some reason => throw reason
  | none => if now < b.pausedUntil then throw .consecutiveFailures

def recordOrderAttempt (b : CircuitBreaker) (now : UInt64) : CircuitBreaker × Except CircuitBreakerTrip Unit :=
  let newSecond := now - b.secondWindowStart ≥ 1000000000
  let b :=
    if newSecond then { b with ordersLastSecond := 1, secondWindowStart := now }
    else { b with ordersLastSecond := b.ordersLastSecond + 1 }
  if ¬ newSecond ∧ b.ordersLastSecond > b.config.maxOrdersPerSecond.toUInt64 then
    (b.trip .rateLimitSecond, .error .rateLimitSecond)
  else
    let newMinute := now - b.minuteWindowStart ≥ 60000000000
    let b :=
      if newMinute then { b with ordersLastMinute := 1, minuteWindowStart := now }
      else { b with ordersLastMinute := b.ordersLastMinute + 1 }
    if ¬ newMinute ∧ b.ordersLastMinute > b.config.maxOrdersPerMinute.toUInt64 then
      (b.trip .rateLimitMinute, .error .rateLimitMinute)
    else (b, .ok ())

def recordSuccess (b : CircuitBreaker) : CircuitBreaker := { b with consecutiveFailures := 0 }

def recordFailure (b : CircuitBreaker) (now : UInt64) : CircuitBreaker :=
  let failures := b.consecutiveFailures + 1
  { b with
    consecutiveFailures := failures
    pausedUntil :=
      if failures ≥ b.config.maxConsecutiveFailures.toUInt64 then now + b.config.failurePauseSeconds * 1000000000
      else b.pausedUntil }

/-- The new equity against the high water mark and against the start of the day. -/
def updateEquity (b : CircuitBreaker) (k : KillSwitch) (newEquity : ℚ) : CircuitBreaker × KillSwitch :=
  let equity := toCents newEquity
  let b := { b with currentEquity := equity, highWaterMark := max b.highWaterMark equity }
  let drawdown := ((b.highWaterMark - equity : Int) : ℚ) / b.highWaterMark
  let (b, k) :=
    if 0 < b.highWaterMark ∧ b.config.maxDrawdownPct ≤ drawdown then (b.trip .maxDrawdown, k.trigger .maxDrawdown)
    else (b, k)
  let b := { b with dailyPnl := equity - b.dayStartEquity }
  if b.dailyPnl < -toCents b.config.maxDailyLoss then (b.trip .dailyLossLimit, k.trigger .dailyLossLimit)
  else (b, k)

end CircuitBreaker

/-! ## The risk manager -/

structure RiskManager where
  positionLimits : PositionLimitChecker
  circuitBreaker : CircuitBreaker

inductive RiskCheckError where
  | killSwitch (reason : KillReason)
  | circuitBreaker (trip : CircuitBreakerTrip)
  | positionLimit (error : PositionLimitError)
  deriving DecidableEq

/-- The calls of `pre_trade_check`, in their order. -/
inductive CheckStage where
  | killSwitch
  | breaker
  | attempt
  | limits
  deriving DecidableEq

/-- The calls of `post_trade_update`, in their order. -/
inductive UpdateStage where
  | position
  | outcome
  | equity
  deriving DecidableEq

def CheckStage.next : CheckStage → Option CheckStage
  | killSwitch => some breaker
  | breaker => some attempt
  | attempt => some limits
  | limits => none

/-- One call of the check: what it leaves behind and what it answers. -/
def CheckStage.run (stage : CheckStage) (m : RiskManager) (k : KillSwitch) (o : RiskOrder) (now : UInt64)
    (order : List PositionKey) : RiskManager × Except RiskCheckError Unit :=
  match stage with
  | .killSwitch => (m, if k.triggered then .error (.killSwitch k.triggerReason) else .ok ())
  | .breaker => (m, (m.circuitBreaker.checkAllowed k now).mapError .circuitBreaker)
  | .attempt =>
      let (b, answer) := m.circuitBreaker.recordOrderAttempt now
      ({ m with circuitBreaker := b }, answer.mapError .circuitBreaker)
  | .limits => (m, (m.positionLimits.checkOrder k order o).mapError .positionLimit)

structure FillReport where
  key : PositionKey
  fillQuantity : ℚ
  fillPrice : ℚ
  newEquity : ℚ
  success : Bool

def UpdateStage.next : UpdateStage → Option UpdateStage
  | position => some outcome
  | outcome => some equity
  | equity => none

def UpdateStage.run (stage : UpdateStage) (m : RiskManager) (k : KillSwitch) (u : FillReport) (now : UInt64) :
    RiskManager × KillSwitch :=
  match stage with
  | .position => ({ m with positionLimits := m.positionLimits.updatePosition u.key u.fillQuantity u.fillPrice }, k)
  | .outcome =>
      let b := m.circuitBreaker
      ({ m with circuitBreaker := if u.success then b.recordSuccess else b.recordFailure now }, k)
  | .equity =>
      let (b, k) := m.circuitBreaker.updateEquity k u.newEquity
      ({ m with circuitBreaker := b }, k)

/-! ## Order flows

A flow checks its order, sends it and passes its fills on. Between any two calls of
one flow the others may run.
-/

inductive Flow where
  | checking (o : RiskOrder) (stage : CheckStage)
  /-- Sent; `left` can still be filled. -/
  | working (o : RiskOrder) (left : ℚ)
  | updating (u : FillReport) (stage : UpdateStage)
  | ended

structure Desk where
  killSwitch : KillSwitch
  manager : RiskManager
  flows : List Flow

inductive DeskEvent where
  | submit (o : RiskOrder)
  /-- The next call of a flow. -/
  | resume (i : Nat) (now : UInt64) (order : List PositionKey)
  | fill (i : Nat) (quantity newEquity : ℚ) (success : Bool)
  /-- The order gets no more fills. -/
  | finish (i : Nat)

namespace Desk

def resumeCheck (d : Desk) (i : Nat) (o : RiskOrder) (stage : CheckStage) (now : UInt64)
    (order : List PositionKey) : Desk :=
  let (manager, answer) := stage.run d.manager d.killSwitch o now order
  let after :=
    match answer with
    | .error _ => Flow.ended
    | .ok () =>
        match stage.next with
        | some next => .checking o next
        | none => .working o o.quantity
  { d with manager, flows := d.flows.set i after }

def resumeUpdate (d : Desk) (i : Nat) (u : FillReport) (stage : UpdateStage) (now : UInt64) : Desk :=
  let (manager, killSwitch) := stage.run d.manager d.killSwitch u now
  let after := (stage.next.map (Flow.updating u)).getD .ended
  { manager, killSwitch, flows := d.flows.set i after }

def step (d : Desk) : DeskEvent → Desk
  | .submit o => if 0 < o.quantity then { d with flows := d.flows ++ [.checking o .killSwitch] } else d
  | .resume i now order =>
      match d.flows[i]? with
      | some (.checking o stage) => d.resumeCheck i o stage now order
      | some (.updating u stage) => d.resumeUpdate i u stage now
      | _ => d
  | .fill i quantity newEquity success =>
      match d.flows[i]? with
      | some (.working o left) =>
          if 0 < quantity ∧ quantity ≤ left then
            { d with
              flows := d.flows.set i (.working o (left - quantity)) ++
                [.updating ⟨o.key, o.signed quantity, o.price, newEquity, success⟩ .position] }
          else d
      | _ => d
  | .finish i =>
      match d.flows[i]? with
      | some (.working _ _) => { d with flows := d.flows.set i .ended }
      | _ => d

end Desk

end ExecutionHandler
