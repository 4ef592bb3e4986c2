import SignalEngine.RebalancerRun.Broker
import SignalEngine.RebalancerRisk.Overlay

/-! # Reconciliation

Does the account the broker reports match what we expect? The facts are handed
in; any unexplained finding means halt and alert.
-/

open BrokerAdapters Text

namespace RebalancerRun

open RebalancerCore (Instant MathError)
open RebalancerCore.DecMath (abs add mul sub)
open RebalancerRisk (mathErrorText nanosPerSecond)

inductive ReconCode where
  | foreignOrder
  | positionDrift
  | balanceDrift
  | orderMissing
  | duplicateFill
  | staleView
  | equityMismatch
  | unvaluedHolding
  | negativeCash
  | noBaseline
  | ownOpenOrder
  deriving DecidableEq

def ReconCode.asStr : ReconCode → String
  | foreignOrder => "RECON_FOREIGN_ORDER"
  | positionDrift => "RECON_POSITION_DRIFT"
  | balanceDrift => "RECON_BALANCE_DRIFT"
  | orderMissing => "RECON_ORDER_MISSING"
  | duplicateFill => "RECON_DUPLICATE_FILL"
  | staleView => "RECON_STALE_VIEW"
  | equityMismatch => "RECON_EQUITY_MISMATCH"
  | unvaluedHolding => "RECON_UNVALUED_HOLDING"
  | negativeCash => "RECON_NEGATIVE_CASH"
  | noBaseline => "RECON_NO_BASELINE"
  | ownOpenOrder => "RECON_OWN_OPEN_ORDER"

inductive Severity where
  | info
  | halt
  deriving DecidableEq

structure ReconFinding where
  code : ReconCode
  severity : Severity
  symbol : Option String
  message : String
  deriving DecidableEq

inductive ReconVerdict where
  | ok
  | haltAndAlert
  deriving DecidableEq

def ReconVerdict.asStr : ReconVerdict → String
  | ok => "OK"
  | haltAndAlert => "HALT_AND_ALERT"

def reconVerdictOf (findings : List ReconFinding) : ReconVerdict :=
  if findings.any fun (f : ReconFinding) => f.severity == .halt then .haltAndAlert else .ok

structure ReconReport where
  at' : Instant
  findings : List ReconFinding
  verdict : ReconVerdict
  deriving DecidableEq

namespace ReconReport

def codes (r : ReconReport) : List String := r.findings.map fun (f : ReconFinding) => f.code.asStr

def haltFindings (r : ReconReport) : List ReconFinding :=
  r.findings.filter fun (f : ReconFinding) => f.severity == .halt

/-- One line per halting finding, for the halt record and the alert. -/
def haltSummary (r : ReconReport) : String :=
  " | ".intercalate (r.haltFindings.map fun (f : ReconFinding) => s!"{f.code.asStr}: {f.message}")

end ReconReport

structure ReconTolerances where
  /-- Floor of the drift threshold, in the account currency. -/
  valueAbs : Dec
  /-- Drift threshold as a fraction of the equity. -/
  equityPct : Dec
  derivedEquityPct : Dec
  maxViewAgeSecs : Int
  maxFutureSkewSecs : Int
  deriving DecidableEq

namespace ReconTolerances

/-- The defaults: 1 unit of the currency, 0.1% and 1% of equity. -/
def default : ReconTolerances where
  valueAbs := ⟨⟨1, Dec.fits_one⟩, 0, Dec.scale_zero⟩
  equityPct := ⟨⟨1, Dec.fits_one⟩, 3, Dec.scale_three⟩
  derivedEquityPct := ⟨⟨1, Dec.fits_one⟩, 2, Dec.scale_two⟩
  maxViewAgeSecs := 120
  maxFutureSkewSecs := 5

def threshold (tol : ReconTolerances) (equity pct : Dec) : Dec :=
  match mul pct equity with
  | .ok p => if tol.valueAbs < p then p else tol.valueAbs
  | .error _ => tol.valueAbs

end ReconTolerances

/-- What the account should look like, with the marks known when it was taken. -/
structure ReconBaseline where
  cash : Dec
  /-- By upper-case symbol. -/
  holdings : Std.ExtTreeMap String Dec
  marks : Std.ExtTreeMap String Dec

/-- One order we placed, or tried to, and all the broker told us about it. -/
structure ExpectedOrder where
  tag : String
  symbol : String
  side : Side
  plannedQuantity : Dec
  brokerOrderId : Option String
  reports : List OrderReport
  anomalies : List String
  /-- The order was really sent. -/
  expectExists : Bool
  deriving DecidableEq

/-- The first report of each broker id not seen before. -/
def unseenReports (seen : Std.ExtTreeSet String) : List OrderReport → List OrderReport
  | [] => []
  | r :: rs =>
      if seen.contains r.brokerOrderId then unseenReports seen rs
      else r :: unseenReports (seen.insert r.brokerOrderId) rs

def uniqueReports (o : ExpectedOrder) : List OrderReport := unseenReports ∅ o.reports

/-- Quantities by upper-case symbol; a later holding of a symbol replaces an earlier one. -/
def holdingsBySymbol [UnicodeCase] (holdings : List Holding) : Std.ExtTreeMap String Dec :=
  holdings.foldl (fun m (h : Holding) => m.insert (toUppercase h.symbol) h.quantity) ∅

def marksBySymbol [UnicodeCase] (holdings : List Holding) : Std.ExtTreeMap String Dec :=
  holdings.foldl (fun m (h : Holding) =>
    match h.mark with
    | some mark => m.insert (toUppercase h.symbol) mark
    | none => m) ∅

namespace ReconBaseline

section Casing

variable [UnicodeCase]

def fromSnapshot (s : BrokerSnapshot) : ReconBaseline :=
  ⟨s.cash, holdingsBySymbol s.holdings, marksBySymbol s.holdings⟩

def costOf (r : OrderReport) : Option Dec :=
  match r.cost, r.avgPrice with
  | some c, _ => some c
  | none, some p => (mul r.executedQuantity p).toOption
  | none, none => none

/-- The effect of one fill: a buy adds the executed quantity and spends `cost + fee`,
    a sell removes it and receives `cost - fee`. -/
def afterFill (b : ReconBaseline) (symbol : String) (side : Side) (r : OrderReport) :
    Option ReconBaseline := do
  let cost ← costOf r
  let fee := r.fee.getD Dec.zero
  let sym := toUppercase symbol
  let q := b.holdings[sym]?.getD Dec.zero
  match side with
  | .buy => do
      let held ← (add q r.executedQuantity).toOption
      let spent ← (add cost fee).toOption
      let cash ← (sub b.cash spent).toOption
      pure { b with cash, holdings := b.holdings.insert sym held }
  | .sell => do
      let held ← (sub q r.executedQuantity).toOption
      let received ← (sub cost fee).toOption
      let cash ← (add b.cash received).toOption
      pure { b with cash, holdings := b.holdings.insert sym held }

/-- The ids applied so far, and the baseline they led to. -/
abbrev Applied := Std.ExtTreeSet String × ReconBaseline

def applyReport (o : ExpectedOrder) (a : Applied) (r : OrderReport) : Option Applied :=
  if a.1.contains r.brokerOrderId then some a
  else if !r.executedQuantity.isPositive then some (a.1.insert r.brokerOrderId, a.2)
  else (a.2.afterFill o.symbol o.side r).map fun next => (a.1.insert r.brokerOrderId, next)

/-- This baseline plus the fills the orders report, each broker id once; `none` when
    the arithmetic overflows or a fill has neither cost nor price. -/
def afterOrders (b : ReconBaseline) (orders : List ExpectedOrder) : Option ReconBaseline :=
  (orders.foldlM (fun a o => (uniqueReports o).foldlM (applyReport o) a) (∅, b)).map Prod.snd

end Casing

end ReconBaseline

structure ReconInput where
  view : BrokerSnapshot
  now : Instant
  knownOrderIds : Std.ExtTreeSet String
  baseline : Option ReconBaseline
  orders : List ExpectedOrder
  tolerances : ReconTolerances

/-! ## Checks -/

def haltFinding (code : ReconCode) (symbol : Option String) (message : String) : ReconFinding :=
  ⟨code, .halt, symbol, message⟩

def infoFinding (code : ReconCode) (symbol : Option String) (message : String) : ReconFinding :=
  ⟨code, .info, symbol, message⟩

def staleFindings (v : BrokerSnapshot) (now : Instant) (tol : ReconTolerances) : List ReconFinding :=
  let age := now - v.takenAt
  if tol.maxViewAgeSecs * nanosPerSecond < age then
    [haltFinding .staleView none
      s!"the account view is {age.tdiv nanosPerSecond} s old (limit {tol.maxViewAgeSecs} s)"]
  else if age < -tol.maxFutureSkewSecs * nanosPerSecond then
    [haltFinding .staleView none
      s!"the account view is stamped {-age.tdiv nanosPerSecond} s in the future"]
  else []

def debugTag [DebugText] : Option String → String
  | some tag => s!"Some({DebugText.quoted tag})"
  | none => "None"

def openOrderFinding [DebugText] (known : Std.ExtTreeSet String) (o : OrderReport) : ReconFinding :=
  if isOwnOrder o known then
    infoFinding .ownOpenOrder (some o.symbol)
      s!"our order {o.brokerOrderId} is still open ({o.status.debug})"
  else
    haltFinding .foreignOrder (some o.symbol)
      s!"open order {o.brokerOrderId} on {o.symbol} carries no tag of ours (tag {debugTag o.tag}): someone else is trading this account"

def unvaluedFinding (u : UnvaluedHolding) : ReconFinding :=
  haltFinding .unvaluedHolding (some u.asset)
    s!"{u.quantity.display} {u.asset} cannot be valued: {u.reason}"

def cashFindings (v : BrokerSnapshot) : List ReconFinding :=
  if v.cash.isNegative then
    [haltFinding .negativeCash none s!"cash is {v.cash.display}: margin or an unexplained debit"]
  else []

def gapOf (a b : Dec) : Except MathError Dec := sub a b >>= abs

def equityFindings (v : BrokerSnapshot) (tol : ReconTolerances) : List ReconFinding :=
  match gapOf v.equity v.derivedEquity with
  | .ok gap =>
      let limit := tol.threshold v.equity tol.derivedEquityPct
      if limit < gap then
        [haltFinding .equityMismatch none
          s!"broker equity {v.equity.display} differs from cash plus holdings {v.derivedEquity.display} by {gap.display} (limit {limit.display})"]
      else []
  | .error e => [haltFinding .equityMismatch none s!"equity cross-check failed: {mathErrorText e}"]

def balanceFindings (v : BrokerSnapshot) (b : ReconBaseline) (limit : Dec) : List ReconFinding :=
  match gapOf v.cash b.cash with
  | .ok d =>
      if limit < d then
        [haltFinding .balanceDrift none
          s!"cash is {v.cash.display} but {b.cash.display} was expected: unexplained difference {d.display} (limit {limit.display})"]
      else []
  | .error e => [haltFinding .balanceDrift none s!"cash comparison failed: {mathErrorText e}"]

/-- A quantity off by `delta`, judged by its value. -/
def deltaFindings (sym : String) (actual expected delta limit : Dec) (mark : Option Dec) :
    List ReconFinding :=
  if delta.isZero then []
  else
    match mark with
    | some m =>
        match mul delta m with
        | .ok value =>
            if limit < value then
              [haltFinding .positionDrift (some sym)
                s!"{sym}: holding {actual.display}, expected {expected.display}: unexplained {delta.display} worth {value.display} (limit {limit.display})"]
            else []
        | .error e =>
            [haltFinding .positionDrift (some sym) s!"valuation failed: {mathErrorText e}"]
    | none =>
        [haltFinding .positionDrift (some sym)
          s!"{sym}: holding {actual.display}, expected {expected.display} and no price to judge the difference"]

def positionFindings (v : BrokerSnapshot) (b : ReconBaseline) (limit : Dec) (sym : String) :
    List ReconFinding :=
  let actual := v.quantityOf sym
  let expected := b.holdings[sym]?.getD Dec.zero
  match gapOf actual expected with
  | .error e => [haltFinding .positionDrift (some sym) s!"quantity comparison failed: {mathErrorText e}"]
  | .ok delta =>
      deltaFindings sym actual expected delta limit
        (((v.holding sym).bind Holding.mark).or b.marks[sym]?)

section Casing

variable [UnicodeCase]

def driftSymbols (v : BrokerSnapshot) (b : ReconBaseline) : Std.ExtTreeSet String :=
  (v.holdings.map fun (h : Holding) => toUppercase h.symbol).foldl (fun s sym => s.insert sym)
    (Std.ExtTreeSet.ofList b.holdings.keys)

def driftFindings (v : BrokerSnapshot) (b : ReconBaseline) (tol : ReconTolerances) :
    List ReconFinding :=
  let limit := tol.threshold v.equity tol.equityPct
  balanceFindings v b limit ++ (driftSymbols v b).toList.flatMap (positionFindings v b limit)

end Casing

/-- The executed quantity of the reports; a sum that overflows is left as it was. -/
def executedTotal (reports : List OrderReport) : Dec :=
  reports.foldl (fun total (r : OrderReport) =>
    match add total r.executedQuantity with
    | .ok sum => sum
    | .error _ => total) Dec.zero

def missingFindings (o : ExpectedOrder) : List ReconFinding :=
  match o.brokerOrderId with
  | some id =>
      [haltFinding .orderMissing (some o.symbol)
        s!"order {id} ({o.tag}) was accepted but the broker no longer knows it"]
  | none =>
      if o.anomalies.isEmpty then
        [infoFinding .orderMissing (some o.symbol)
          s!"{o.tag}: placement outcome was unknown and no such order exists at the broker (not placed)"]
      else []

def overfillFindings (o : ExpectedOrder) (r : OrderReport) : List ReconFinding :=
  if r.quantity < r.executedQuantity then
    [haltFinding .duplicateFill (some o.symbol)
      s!"order {r.brokerOrderId} executed {r.executedQuantity.display} of {r.quantity.display}"]
  else []

def totalFindings (o : ExpectedOrder) (reports : List OrderReport) : List ReconFinding :=
  let filled := (reports.filter fun (r : OrderReport) => r.executedQuantity.isPositive).length
  let executed := executedTotal reports
  if 1 < filled then
    [haltFinding .duplicateFill (some o.symbol)
      s!"{filled} orders carrying {o.tag} executed (double placement)"]
  else if o.plannedQuantity < executed then
    [haltFinding .duplicateFill (some o.symbol)
      s!"{o.tag} executed {executed.display}, more than the {o.plannedQuantity.display} planned"]
  else []

def orderFindings (o : ExpectedOrder) : List ReconFinding :=
  if !o.expectExists then []
  else
    o.anomalies.map (fun a => haltFinding .duplicateFill (some o.symbol) s!"{o.tag}: {a}") ++
      if (uniqueReports o).isEmpty then missingFindings o
      else (uniqueReports o).flatMap (overfillFindings o) ++ totalFindings o (uniqueReports o)

def baselineFindings [UnicodeCase] (input : ReconInput) : List ReconFinding :=
  match input.baseline with
  | none => [infoFinding .noBaseline none "no baseline: drift cannot be judged on the first run"]
  | some b => driftFindings input.view b input.tolerances

def checkFindings [UnicodeCase] [DebugText] (input : ReconInput) : List ReconFinding :=
  staleFindings input.view input.now input.tolerances ++
    input.view.openOrders.map (openOrderFinding input.knownOrderIds) ++
    input.view.unvalued.map unvaluedFinding ++ cashFindings input.view ++
    equityFindings input.view input.tolerances ++ baselineFindings input ++
    input.orders.flatMap orderFindings

/-- Arithmetic that fails is a halting finding of its own. -/
def reconcile [UnicodeCase] [DebugText] (input : ReconInput) : ReconReport :=
  ⟨input.now, checkFindings input, reconVerdictOf (checkFindings input)⟩

end RebalancerRun
