import SignalEngine.RebalancerRun.RunStore
import SignalEngine.BrokerAdapters.DecimalText

/-! # Rows of the run tables

What the Postgres run store keeps of a run: the columns of a run, the JSON of its
snapshots and of its placed orders, and how a row is read back as a record. The
narrative fields of a record are not read back.
-/

open BrokerAdapters Text Outcome

namespace RebalancerStore

open RebalancerCore (Instant InstantText)
open RebalancerRisk (NaiveDate nanosPerSecond)
open RebalancerRun

/-! ## Columns -/

/-- The day the database counts microseconds from, 2000-01-01. -/
def pgEpoch : Instant := 946684800 * nanosPerSecond

/-- An instant as a `timestamptz` column keeps it: whole microseconds. -/
def stored (t : Instant) : Instant := pgEpoch + 1000 * (t - pgEpoch).tdiv 1000

def storedKey (key : RunKey) : RunKey := { key with scheduledFor := stored key.scheduledFor }

/-- Instants in RFC 3339, printed and read back. -/
class InstantReader extends InstantText where
  parseRfc3339 : String → Except String Instant
  parse_rfc3339 : ∀ t, parseRfc3339 (rfc3339 t) = .ok t

inductive RowStatus where
  | inProgress
  | done
  deriving DecidableEq

inductive Value where
  | null
  | number (n : Nat)
  | string (s : String)
  | array (items : List Value)
  | object (fields : List (String × Value))

namespace Value

/-- `v[key]`, which is null where there is no such field. -/
def field : Value → String → Value
  | object fields, key => (fields.lookup key).getD null
  | _, _ => null

def asStr : Value → Option String
  | string s => some s
  | _ => none

theorem asStr_string (s : String) : (string s).asStr = some s := rfl

def asU64 : Value → Option Nat
  | number n => if n < 2 ^ 64 then some n else none
  | _ => none

def asArray : Value → Option (List Value)
  | array items => some items
  | _ => none

def asObject : Value → Option (List (String × Value))
  | object fields => some fields
  | _ => none

end Value

def orError {α : Type} (what : String) : Option α → Except String α
  | some a => .ok a
  | none => .error what

/-! ## Texts of the small enumerations -/

section Texts

variable [DebugText]

def modeFromStr (s : String) : Except String ExecutionMode :=
  match s with
  | "assisted" => .ok .assisted
  | "paper" => .ok .paper
  | "live" => .ok .live
  | other => .error s!"unknown execution mode {DebugText.quoted other}"

def outcomeToStr : OutcomeKind → String
  | .completed => "COMPLETED"
  | .refused => "REFUSED"
  | .failedClosed => "FAILED_CLOSED"
  | .halted => "HALTED"

def outcomeFromStr (s : String) : Except String OutcomeKind :=
  match s with
  | "COMPLETED" => .ok .completed
  | "REFUSED" => .ok .refused
  | "FAILED_CLOSED" => .ok .failedClosed
  | "HALTED" => .ok .halted
  | other => .error s!"unknown outcome kind {DebugText.quoted other}"

def phaseToStr : Phase → String
  | .sells => "sells"
  | .buys => "buys"
  | .rehearsal => "rehearsal"

def phaseFromStr (s : String) : Except String Phase :=
  match s with
  | "sells" => .ok .sells
  | "buys" => .ok .buys
  | "rehearsal" => .ok .rehearsal
  | other => .error s!"unknown phase {DebugText.quoted other}"

def placedOutcomeToStr : PlacedOutcome → String
  | .filled => "filled"
  | .partiallyFilled => "partially_filled"
  | .nothingExecuted => "nothing_executed"
  | .validated => "validated"
  | .rejected => "rejected"
  | .notSent => "not_sent"
  | .adoptedExisting => "adopted_existing"
  | .unknownNotFound => "unknown_not_found"
  | .unsettled => "unsettled"

def placedOutcomeFromStr (s : String) : Except String PlacedOutcome :=
  match s with
  | "filled" => .ok .filled
  | "partially_filled" => .ok .partiallyFilled
  | "nothing_executed" => .ok .nothingExecuted
  | "validated" => .ok .validated
  | "rejected" => .ok .rejected
  | "not_sent" => .ok .notSent
  | "adopted_existing" => .ok .adoptedExisting
  | "unknown_not_found" => .ok .unknownNotFound
  | "unsettled" => .ok .unsettled
  | other => .error s!"unknown placed outcome {DebugText.quoted other}"

def sideFromStr (s : String) : Except String Side :=
  match s with
  | "buy" => .ok .buy
  | "sell" => .ok .sell
  | other => .error s!"unknown side {DebugText.quoted other}"

end Texts

/-! ## JSON columns -/

section Json

variable [DebugText]

def decFromJson (v : Value) : Except String Dec := do
  let text ← orError "expected string decimal" v.asStr
  match Dec.parse text with
  | .ok d => return d
  | .error e => throw e.display

def decToJson (d : Dec) : Value := .string d.display

def optDecToJson (d : Option Dec) : Value := (d.map decToJson).getD .null

def decMapToJson (m : Std.ExtTreeMap String Dec) : Value :=
  .object (m.toList.map fun (k, d) => (k, decToJson d))

def decMapFromJson (v : Value) (key : String) : Except String (Std.ExtTreeMap String Dec) := do
  let fields ← orError s!"expected object at {key}" (v.field key).asObject
  let entries ← fields.mapM fun (k, value) => do
    let d ← decFromJson value
    return (k, d)
  return Std.ExtTreeMap.ofList entries

/-- The venue's average fill price and fee, from the latest report that executed
    something. -/
def fillOf (p : PlacedOrder) : Option Dec × Option Dec :=
  match p.reports.reverse.find? fun (r : OrderReport) => r.executedQuantity.isPositive && r.avgPrice.isSome with
  | some r => (r.avgPrice, r.fee)
  | none => (none, none)

def placedToJson (p : PlacedOrder) : Value :=
  let (avgFillPrice, fee) := fillOf p
  .object [
    ("phase", .string (phaseToStr p.phase)),
    ("tag", .string p.tag),
    ("symbol", .string p.symbol),
    ("side", .string p.side.asStr),
    ("planned_quantity", decToJson p.plannedQuantity),
    ("price", decToJson p.price),
    ("outcome", .string (placedOutcomeToStr p.outcome)),
    ("broker_order_id", (p.brokerOrderId.map Value.string).getD .null),
    ("executed_quantity", decToJson p.executedQuantity),
    ("avg_fill_price", optDecToJson avgFillPrice),
    ("fee", optDecToJson fee)]

def placedFromJson (v : Value) : Except String PlacedOrder := do
  let phase ← phaseFromStr (← orError "placed.phase missing" (v.field "phase").asStr)
  let side ← sideFromStr (← orError "placed.side missing" (v.field "side").asStr)
  let plannedQuantity ← decFromJson (v.field "planned_quantity")
  let price ← decFromJson (v.field "price")
  let outcome ← placedOutcomeFromStr (← orError "placed.outcome missing" (v.field "outcome").asStr)
  let executedQuantity ← decFromJson (v.field "executed_quantity")
  return {
    phase
    tag := (v.field "tag").asStr.getD ""
    symbol := (v.field "symbol").asStr.getD ""
    side
    plannedQuantity
    price
    outcome
    brokerOrderId := (v.field "broker_order_id").asStr
    status := none
    executedQuantity
    reports := []
    anomalies := []
    detail := "" }

def placedVecToJson (placed : List PlacedOrder) : Value := .array (placed.map placedToJson)

def placedVecFromJson (v : Value) : Except String (List PlacedOrder) := do
  let items ← orError "expected placed array" v.asArray
  items.mapM placedFromJson

variable [InstantReader]

def dtFromJson (v : Value) : Except String Instant := do
  let s ← orError "expected a string timestamp" v.asStr
  match InstantReader.parseRfc3339 s with
  | .ok t => return t
  | .error e => throw s!"bad timestamp {DebugText.quoted s}: {e}"

def snapshotToJson (s : SnapshotSummary) : Value :=
  .object [
    ("taken_at", .string (InstantText.rfc3339 s.takenAt)),
    ("equity", decToJson s.equity),
    ("cash", decToJson s.cash),
    ("derived_equity", decToJson s.derivedEquity),
    ("holdings", decMapToJson s.holdings),
    ("marks", decMapToJson s.marks),
    ("open_order_ids", .array (s.openOrderIds.map Value.string))]

def snapshotFromJson (v : Value) : Except String SnapshotSummary := do
  let takenAt ← dtFromJson (v.field "taken_at")
  let equity ← decFromJson (v.field "equity")
  let cash ← decFromJson (v.field "cash")
  let derivedEquity ← decFromJson (v.field "derived_equity")
  let holdings ← decMapFromJson v "holdings"
  let marks ← decMapFromJson v "marks"
  let ids ← orError "expected open_order_ids array" (v.field "open_order_ids").asArray
  return ⟨takenAt, equity, cash, derivedEquity, holdings, marks, ids.map fun id => id.asStr.getD ""⟩

end Json

/-! ## Reading back -/

def Readable (d : Dec) : Prop := d.units.val ≠ -2 ^ 127

instance (d : Dec) : Decidable (Readable d) := inferInstanceAs (Decidable (_ ≠ _))

structure ReadableSnapshot (s : SnapshotSummary) : Prop where
  equity : Readable s.equity
  cash : Readable s.cash
  derivedEquity : Readable s.derivedEquity
  holdings : ∀ entry ∈ s.holdings.toList, Readable entry.2
  marks : ∀ entry ∈ s.marks.toList, Readable entry.2

structure ReadablePlaced (p : PlacedOrder) : Prop where
  plannedQuantity : Readable p.plannedQuantity
  price : Readable p.price
  executedQuantity : Readable p.executedQuantity

def persistedPlaced (p : PlacedOrder) : PlacedOrder :=
  { p with status := none, reports := [], anomalies := [], detail := "" }

/-- What the store keeps of a record, with the instants of its columns. -/
def persisted (r : RunRecord) : RunRecord :=
  { r with
    key := storedKey r.key
    scheduledFor := stored r.scheduledFor
    startedAt := stored r.startedAt
    finishedAt := stored r.finishedAt
    dataFingerprints := []
    recon := []
    stateBefore := none
    stateAfter := none
    transitions := []
    risk := none
    decisions := []
    targets := []
    plan := none
    replan := none
    tickets := []
    placed := r.placed.map persistedPlaced
    cleanup := []
    flatten := none
    alerts := []
    alertDeliveryFailures := []
    steps := [] }

structure RunRow where
  key : RunKey
  status : RowStatus
  /-- A 32-bit column. -/
  attempt : Int
  tradingDay : NaiveDate
  mode : String
  startedAt : Instant
  leaseUntil : Instant
  finishedAt : Option Instant
  outcomeKind : Option String
  outcomeCode : Option String
  outcomeMessage : Option String
  mandateHash : Option String
  mandateVersion : Option Int
  mandateStanding : Option String
  preSnapshot : Option Value
  postSnapshot : Option Value
  placed : Value

section Rows

variable [DebugText] [InstantReader]

def rowToRecord (r : RunRow) : Except String RunRecord := do
  let mode ← modeFromStr r.mode
  let kind ← r.outcomeKind.mapM outcomeFromStr
  let preSnapshot ← r.preSnapshot.mapM snapshotFromJson
  let postSnapshot ← r.postSnapshot.mapM snapshotFromJson
  let placed ← placedVecFromJson r.placed
  return {
    key := r.key
    mode
    attempt := (max r.attempt 0).toNat
    tradingDay := r.tradingDay
    scheduledFor := r.key.scheduledFor
    startedAt := r.startedAt
    finishedAt := r.finishedAt.getD r.startedAt
    outcome := ⟨kind.getD .failedClosed, r.outcomeCode.getD "", r.outcomeMessage.getD ""⟩
    mandateHash := r.mandateHash.getD ""
    mandateVersion := r.mandateVersion.map fun v => (v % 2 ^ 32).toNat
    mandateStanding := r.mandateStanding.getD ""
    dataFingerprints := []
    preSnapshot
    postSnapshot
    recon := []
    stateBefore := none
    stateAfter := none
    transitions := []
    risk := none
    decisions := []
    targets := []
    plan := none
    replan := none
    tickets := []
    placed
    cleanup := []
    flatten := none
    alerts := []
    alertDeliveryFailures := []
    steps := [] }

/-- The terminal columns, written when the run is finished. -/
def RunRow.finished (row : RunRow) (record : RunRecord) : RunRow :=
  { row with
    status := .done
    mode := record.mode.asStr
    finishedAt := some (stored record.finishedAt)
    outcomeKind := some (outcomeToStr record.outcome.kind)
    outcomeCode := some record.outcome.code
    outcomeMessage := some record.outcome.message
    mandateHash := some record.mandateHash
    mandateVersion := record.mandateVersion.map fun (v : Nat) => (v : Int).bmod (2 ^ 32)
    mandateStanding := some record.mandateStanding
    preSnapshot := record.preSnapshot.map snapshotToJson
    postSnapshot := record.postSnapshot.map snapshotToJson
    placed := placedVecToJson record.placed }

end Rows

/-- A record whose columns read back: its decimals do, and its 32-bit numbers are such. -/
structure Storable (r : RunRecord) : Prop where
  scheduled : r.scheduledFor = r.key.scheduledFor
  mandateVersion : ∀ v, r.mandateVersion = some v → v < 2 ^ 32
  preSnapshot : ∀ s, r.preSnapshot = some s → ReadableSnapshot s
  postSnapshot : ∀ s, r.postSnapshot = some s → ReadableSnapshot s
  placed : ∀ p ∈ r.placed, ReadablePlaced p

section RoundTrip

variable [DebugText]

variable [InstantReader]

end RoundTrip

end RebalancerStore
