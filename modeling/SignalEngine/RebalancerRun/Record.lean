import SignalEngine.RebalancerRun.Recon
import SignalEngine.RebalancerRun.Flatten

/-! # The run record

What a run writes once, under its key, and the vocabulary around it.
-/

open BrokerAdapters Text

namespace RebalancerRun

open RebalancerCore (Instant InstantText Denial PlannedOrder SkippedTrade InstrumentLine)
open RebalancerRisk (AccountStatus NaiveDate RiskDecision Transition)

inductive ExecutionMode where
  | assisted
  | paper
  | live
  deriving DecidableEq

def ExecutionMode.asStr : ExecutionMode → String
  | assisted => "assisted"
  | paper => "paper"
  | live => "live"

/-- The unique identity of a run. -/
structure RunKey where
  accountId : String
  scheduledFor : Instant
  /-- The configured sleeve ids, sorted and joined with `+`. -/
  sleeveSet : String
  deriving DecidableEq

namespace RunKey

def new (accountId : String) (scheduledFor : Instant) (sleeveIds : List String) : RunKey :=
  ⟨accountId, scheduledFor, "+".intercalate (Std.ExtTreeSet.ofList sleeveIds).toList⟩

def canonical [InstantText] (key : RunKey) : String :=
  s!"{key.accountId}|{InstantText.rfc3339 key.scheduledFor}|{key.sleeveSet}"

end RunKey

inductive OutcomeKind where
  | completed
  | refused
  | failedClosed
  | halted
  deriving DecidableEq

structure RunOutcome where
  kind : OutcomeKind
  code : String
  message : String
  deriving DecidableEq

inductive AlertSeverity where
  | info
  | warning
  | critical
  deriving DecidableEq

inductive AlertCode where
  | halt
  | flattenIncomplete
  | runFailed
  | stillHalted
  | mandateUnusable
  | decisionNotActed
  | dataGateShadowRefuse
  deriving DecidableEq

def AlertCode.asStr : AlertCode → String
  | halt => "ALERT_HALT"
  | flattenIncomplete => "ALERT_FLATTEN_INCOMPLETE"
  | runFailed => "ALERT_RUN_FAILED"
  | stillHalted => "ALERT_STILL_HALTED"
  | mandateUnusable => "ALERT_MANDATE_UNUSABLE"
  | decisionNotActed => "ALERT_DECISION_NOT_ACTED"
  | dataGateShadowRefuse => "ALERT_DATA_GATE_SHADOW_REFUSE"

structure Alert where
  code : AlertCode
  severity : AlertSeverity
  accountId : String
  runKey : String
  message : String
  /-- Alerts with the same key describe the same condition. -/
  dedupeKey : String
  at' : Instant
  deriving DecidableEq

/-- What a reading of the account contributes to the record. -/
structure SnapshotSummary where
  takenAt : Instant
  equity : Dec
  cash : Dec
  derivedEquity : Dec
  /-- By upper-case symbol. -/
  holdings : Std.ExtTreeMap String Dec
  marks : Std.ExtTreeMap String Dec
  openOrderIds : List String

def SnapshotSummary.baseline (s : SnapshotSummary) : ReconBaseline := ⟨s.cash, s.holdings, s.marks⟩

def summarize [UnicodeCase] (s : BrokerSnapshot) : SnapshotSummary where
  takenAt := s.takenAt
  equity := s.equity
  cash := s.cash
  derivedEquity := s.derivedEquity
  holdings := holdingsBySymbol s.holdings
  marks := marksBySymbol s.holdings
  openOrderIds := s.openOrders.map OrderReport.brokerOrderId

inductive SleeveKind where
  | etfTrend
  | cryptoTrend
  | etfMomentum
  deriving DecidableEq

inductive Cadence where
  /-- Planned on every run. -/
  | daily
  /-- Planned only when the decision is newer than the last one acted on. -/
  | onDecision
  deriving DecidableEq

def SleeveKind.cadence : SleeveKind → Cadence
  | cryptoTrend => .daily
  | etfTrend | etfMomentum => .onDecision

structure TargetSummary where
  sleeve : String
  decisionDate : NaiveDate
  dataFingerprint : String
  weights : List (String × Dec)
  deriving DecidableEq

/-- What one run learned about one configured sleeve. -/
structure SleeveDecision where
  sleeve : String
  kind : SleeveKind
  cadence : Cadence
  decisionDate : NaiveDate
  newestBarDate : NaiveDate
  lagSessions : Nat
  lastActedDecision : Option NaiveDate
  pending : Bool
  /-- Planned only because nothing had ever been acted on. -/
  entry : Bool
  planned : Bool
  acted : Bool
  deriving DecidableEq

structure DeniedSummary where
  order : PlannedOrder
  /-- The guard's denial codes, in the guard's order. -/
  codes : List String
  reasons : List Denial
  deriving DecidableEq

structure PlanSummary where
  inputsDigest : String
  equity : Dec
  capitalBase : Dec
  riskScale : Dec
  orders : List PlannedOrder
  denied : List DeniedSummary
  skipped : List SkippedTrade
  lines : List InstrumentLine
  deriving DecidableEq

inductive Phase where
  | sells
  | buys
  /-- Validate-only submissions. -/
  | rehearsal
  deriving DecidableEq

inductive PlacedOutcome where
  | filled
  | partiallyFilled
  /-- Accepted, and ended with nothing executed. -/
  | nothingExecuted
  | validated
  | rejected
  | notSent
  /-- The tag already existed at the broker. -/
  | adoptedExisting
  /-- The outcome was unknown and a look-up by tag found nothing. -/
  | unknownNotFound
  /-- Still live after polling and a cancel. -/
  | unsettled
  deriving DecidableEq

def PlacedOutcome.debug : PlacedOutcome → String
  | filled => "Filled"
  | partiallyFilled => "PartiallyFilled"
  | nothingExecuted => "NothingExecuted"
  | validated => "Validated"
  | rejected => "Rejected"
  | notSent => "NotSent"
  | adoptedExisting => "AdoptedExisting"
  | unknownNotFound => "UnknownNotFound"
  | unsettled => "Unsettled"

structure PlacedOrder where
  phase : Phase
  tag : String
  symbol : String
  side : Side
  plannedQuantity : Dec
  price : Dec
  outcome : PlacedOutcome
  brokerOrderId : Option String
  status : Option OrderStatus
  executedQuantity : Dec
  reports : List OrderReport
  anomalies : List String
  detail : String
  deriving DecidableEq

/-- Marks the detail of an order that was not sent because the market was closed. -/
def marketClosedMarker : String := "MARKET_CLOSED"

namespace PlacedOrder

def carried (p : PlacedOrder) : Bool :=
  match p.outcome with
  | .filled | .partiallyFilled | .validated => true
  | .adoptedExisting => p.executedQuantity.isPositive
  | .unknownNotFound => p.reports.any fun (r : OrderReport) => r.executedQuantity.isPositive
  | .nothingExecuted | .rejected | .notSent | .unsettled => false

def refusedMarketClosed (p : PlacedOrder) : Bool :=
  p.outcome == .notSent && containsChars marketClosedMarker.toList p.detail.toList

end PlacedOrder

structure StepNote where
  step : String
  at' : Instant
  note : String
  deriving DecidableEq

structure StageRecon where
  stage : String
  report : ReconReport
  deriving DecidableEq

structure RunRecord where
  key : RunKey
  mode : ExecutionMode
  /-- Which attempt of the key wrote the record. -/
  attempt : Nat
  tradingDay : NaiveDate
  scheduledFor : Instant
  startedAt : Instant
  finishedAt : Instant
  outcome : RunOutcome
  mandateHash : String
  mandateVersion : Option Nat
  mandateStanding : String
  dataFingerprints : List (String × String)
  preSnapshot : Option SnapshotSummary
  postSnapshot : Option SnapshotSummary
  recon : List StageRecon
  stateBefore : Option AccountStatus
  stateAfter : Option AccountStatus
  transitions : List Transition
  risk : Option RiskDecision
  decisions : List SleeveDecision
  targets : List TargetSummary
  plan : Option PlanSummary
  /-- The second plan of a live run, made after the sells settled. -/
  replan : Option PlanSummary
  tickets : List PlannedOrder
  placed : List PlacedOrder
  cleanup : List CancelRecord
  flatten : Option FlattenReport
  alerts : List Alert
  alertDeliveryFailures : List String
  steps : List StepNote

end RebalancerRun
