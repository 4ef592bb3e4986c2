import SignalEngine.RebalancerStore.RunRows
import SignalEngine.Lib.Linearize

/-! # The Postgres run store

Three tables, one statement for every query of the store, and each call of the
store as the statements it makes. The rows of a query without an order come in
any order; `finish` writes its row and its ledger rows in one transaction.
-/

open BrokerAdapters Text Outcome

namespace RebalancerStore

open RebalancerCore (Instant InstantText DayCounters)
open RebalancerRisk (NaiveDate nanosPerSecond)
open RebalancerRun Interaction

/-! ## Tables -/

abbrev Tenant := BitVec 128

/-- The tenant of an account that is not registered. -/
def unknownTenant : Tenant := 0

structure JournalRow where
  tenant : Tenant
  key : RunKey
  tag : String
  brokerOrderId : Option String
  /-- The text of a numeric column without a scale. -/
  notional : String
  deriving DecidableEq

/-- An `acted` row of `rebalancer_decision_ledger`; without a reset all rows are
    of one epoch. -/
structure LedgerRow where
  tenant : Tenant
  accountId : String
  sleeveId : String
  decisionDate : NaiveDate
  deriving DecidableEq

structure Tables where
  runs : List RunRow
  journal : List JournalRow
  /-- `none` when the table was not created. -/
  ledger : Option (List LedgerRow)

inductive FinishError where
  | alreadyFinished
  | ledgerMissing
  | ledgerForeignTenant
  deriving DecidableEq

/-- `MAX(decision_date)` of an account and a sleeve. -/
def newestActed (rows : List LedgerRow) (accountId sleeveId : String) : Option NaiveDate :=
  ((rows.filter fun (r : LedgerRow) => r.accountId == accountId && r.sleeveId == sleeveId).map
    LedgerRow.decisionDate).max?

def hasForeignRows (rows : List LedgerRow) (tenant : Tenant) (accountId : String) : Bool :=
  rows.any fun (r : LedgerRow) => r.accountId == accountId && r.tenant != tenant

/-- One acted decision: a row only for a date newer than every earlier one. -/
def appendOne (tenant : Tenant) (accountId : String) (rows : List LedgerRow) (d : SleeveDecision) :
    Except FinishError (List LedgerRow) :=
  if hasForeignRows rows tenant accountId then .error .ledgerForeignTenant
  else
    match newestActed rows accountId d.sleeve with
    | some acted =>
        if d.decisionDate ≤ acted then .ok rows
        else .ok (rows ++ [⟨tenant, accountId, d.sleeve, d.decisionDate⟩])
    | none => .ok (rows ++ [⟨tenant, accountId, d.sleeve, d.decisionDate⟩])

def appendActed (ledger : Option (List LedgerRow)) (tenant : Tenant) (accountId : String)
    (acted : List SleeveDecision) : Except FinishError (Option (List LedgerRow)) :=
  if acted.isEmpty then .ok ledger
  else
    match ledger with
    | none => .error .ledgerMissing
    | some rows => some <$> acted.foldlM (appendOne tenant accountId) rows

def actedRows (record : RunRecord) : List SleeveDecision :=
  (record.decisions.filter SleeveDecision.acted).mergeSort fun a b => decide (a.sleeve ≤ b.sleeve)

namespace Tables

variable [DebugText] [InstantReader]

def row (w : Tables) (key : RunKey) : Option RunRow := w.runs.find? fun r => r.key == storedKey key

/-- `INSERT … ON CONFLICT DO NOTHING` of a first attempt. -/
def insertRun (w : Tables) (key : RunKey) (tradingDay : NaiveDate) (startedAt leaseUntil : Instant) :
    Nat × Tables :=
  if (w.row key).isSome then (0, w)
  else
    let fresh : RunRow := {
      key := storedKey key
      status := .inProgress
      attempt := 1
      tradingDay
      mode := "assisted"
      startedAt := stored startedAt
      leaseUntil := stored leaseUntil
      finishedAt := none
      outcomeKind := none
      outcomeCode := none
      outcomeMessage := none
      mandateHash := none
      mandateVersion := none
      mandateStanding := none
      preSnapshot := none
      postSnapshot := none
      placed := .array [] }
    (1, { w with runs := w.runs ++ [fresh] })

/-- A row put in the place of the one with its key. -/
def replace (runs : List RunRow) (new : RunRow) : List RunRow :=
  runs.map fun r => if r.key = new.key then new else r

/-- The next attempt, if the row is in progress and still has the lease that was read. -/
def resumeRun (w : Tables) (attempt : Int) (tradingDay : NaiveDate) (startedAt leaseUntil : Instant)
    (key : RunKey) (prevLease : Instant) : Nat × Tables :=
  match w.row key with
  | some r =>
      if r.status = .inProgress ∧ r.leaseUntil = stored prevLease then
        (1, { w with runs := replace w.runs { r with
          attempt, tradingDay, startedAt := stored startedAt, leaseUntil := stored leaseUntil } })
      else (0, w)
  | none => (0, w)

/-- `INSERT … ON CONFLICT DO UPDATE` of a journal entry. The only thing in its way
    is the foreign key: the run must have a row. -/
def upsertJournal (w : Tables) (tenant : Tenant) (key : RunKey) (entry : JournalEntry) : Bool × Tables :=
  if (w.row key).isSome then
    let new : JournalRow :=
      ⟨tenant, storedKey key, entry.tag, entry.brokerOrderId, entry.notional.display⟩
    let same (j : JournalRow) : Bool := j.tenant == tenant && j.key == storedKey key && j.tag == entry.tag
    (true, { w with journal :=
      if w.journal.any same then w.journal.map fun j => if same j then new else j
      else w.journal ++ [new] })
  else (false, w)

/-- The journal joined with the runs that are in progress. -/
def journaled (w : Tables) (accountId : String) (running : RunRow → Bool) : List JournalRow :=
  w.journal.filter fun j => j.key.accountId == accountId &&
    w.runs.any fun r => r.key == j.key && r.status == .inProgress && running r

/-- The transaction of `finish`: all of it or nothing. -/
def finishRun (w : Tables) (tenant : Tenant) (record : RunRecord) : Except FinishError Unit × Tables :=
  match w.row record.key with
  | some r =>
      if r.status = .inProgress then
        match appendActed w.ledger tenant record.key.accountId (actedRows record) with
        | .ok ledger => (.ok (), { w with runs := replace w.runs (r.finished record), ledger })
        | .error e => (.error e, w)
      else (.error .alreadyFinished, w)
  | none => (.error .alreadyFinished, w)

/-- The finished runs of an account that have a snapshot. -/
def withSnapshot (w : Tables) (accountId : String) : List RunRow :=
  w.runs.filter fun r => r.key.accountId == accountId && r.status == .done &&
    (r.postSnapshot.isSome || r.preSnapshot.isSome)

/-- `ORDER BY finished_at DESC`, where a null comes first. -/
def sortsBefore (a b : RunRow) : Bool :=
  match a.finishedAt, b.finishedAt with
  | none, some _ => true
  | some x, some y => y < x
  | _, none => false

/-- `LIMIT 1`: a row that no other one comes before. -/
def IsNewestSnapshot (w : Tables) (accountId : String) : Option Value → Prop
  | none => w.withSnapshot accountId = []
  | some v => ∃ r ∈ w.withSnapshot accountId, (∀ other ∈ w.withSnapshot accountId, sortsBefore other r = false) ∧
      r.postSnapshot.or r.preSnapshot = some v

/-- The placed orders of the live runs finished on a day. -/
def placedOn (w : Tables) (accountId : String) (day : NaiveDate) : List Value :=
  (w.runs.filter fun r => r.key.accountId == accountId && r.tradingDay == day && r.status == .done &&
    r.mode == "live").map RunRow.placed

end Tables

/-! ## Statements -/

inductive Sql where
  | insertRun (key : RunKey) (tradingDay : NaiveDate) (startedAt leaseUntil : Instant)
  | selectRun (key : RunKey)
  | resumeRun (attempt : Int) (tradingDay : NaiveDate) (startedAt leaseUntil : Instant) (key : RunKey)
      (prevLease : Instant)
  | upsertJournal (tenant : Tenant) (key : RunKey) (entry : JournalEntry)
  | selectInFlight (accountId : String)
  | finishRun (tenant : Tenant) (record : RunRecord)
  | selectSnapshot (accountId : String)
  | selectPlaced (accountId : String) (day : NaiveDate)
  | selectNotionals (accountId : String) (day : NaiveDate)
  | ledgerPresent
  | foreignRows (tenant : Tenant) (accountId : String)
  | newestActed (accountId sleeveId : String)

/-- What a statement returns: the number of rows it changed, or the rows it read. -/
def Sql.Ans : Sql → Type
  | insertRun .. | resumeRun .. => Nat
  | selectRun _ => Option RunRow
  | upsertJournal .. => Bool
  | selectInFlight _ => List JournalRow
  | finishRun .. => Except FinishError Unit
  | selectSnapshot _ => Option Value
  | selectPlaced .. => List Value
  | selectNotionals .. => List String
  | ledgerPresent | foreignRows .. => Bool
  | newestActed .. => Option NaiveDate

/-- A statement on the tables, as one atomic operation. -/
def Tables.effect [DebugText] [InstantReader] (w : Tables) : (s : Sql) → s.Ans → Tables → Prop
  | .insertRun key tradingDay startedAt leaseUntil, n, w' =>
      (n, w') = w.insertRun key tradingDay startedAt leaseUntil
  | .selectRun key, found, w' => found = w.row key ∧ w' = w
  | .resumeRun attempt tradingDay startedAt leaseUntil key prevLease, n, w' =>
      (n, w') = w.resumeRun attempt tradingDay startedAt leaseUntil key prevLease
  | .upsertJournal tenant key entry, accepted, w' => (accepted, w') = w.upsertJournal tenant key entry
  | .selectInFlight accountId, rows, w' => rows.Perm (w.journaled accountId fun _ => true) ∧ w' = w
  | .finishRun tenant record, outcome, w' => (outcome, w') = w.finishRun tenant record
  | .selectSnapshot accountId, found, w' => w.IsNewestSnapshot accountId found ∧ w' = w
  | .selectPlaced accountId day, rows, w' => rows.Perm (w.placedOn accountId day) ∧ w' = w
  | .selectNotionals accountId day, texts, w' =>
      texts.Perm ((w.journaled accountId fun r => r.tradingDay == day).map JournalRow.notional) ∧ w' = w
  | .ledgerPresent, present, w' => present = w.ledger.isSome ∧ w' = w
  | .foreignRows tenant accountId, found, w' =>
      found = hasForeignRows (w.ledger.getD []) tenant accountId ∧ w' = w
  | .newestActed accountId sleeveId, date, w' =>
      date = RebalancerStore.newestActed (w.ledger.getD []) accountId sleeveId ∧ w' = w

/-! ## Calls -/

inductive StoreCall where
  | begin (key : RunKey) (tradingDay : NaiveDate) (startedAt : Instant) (leaseSecs : Int)
  | journalOrder (key : RunKey) (entry : JournalEntry)
  | inFlight (accountId : String)
  | finish (record : RunRecord)
  | lastSnapshot (accountId : String)
  | dayCounters (accountId : String) (day : NaiveDate)
  | get (key : RunKey)
  | lastActedDecision (accountId sleeveId : String)

def StoreCall.Result : StoreCall → Type
  | begin .. => Begin
  | journalOrder .. | finish _ => Unit
  | inFlight _ => List JournalEntry
  | lastSnapshot _ => Option SnapshotSummary
  | dayCounters .. => DayCounters
  | get _ => Option RunRecord
  | lastActedDecision .. => Option NaiveDate

abbrev StoreCall.Answer (c : StoreCall) : Type := Except RunStoreError c.Result

/-- A call of the store, as the statements it makes. -/
abbrev Statements (α : Type) := Prog Sql Sql.Ans (Except RunStoreError α)

def unavailable {α : Type} : Except String α → Except RunStoreError α
  | .ok a => .ok a
  | .error e => .error (.unavailable e)

def ledgerTable : String := "rebalancer_decision_ledger"

def ledgerMigration : String := "2026-09-27-000000_create_rebalancer_pilot_ledger"

def missingMessage (accountId sleeveId : String) : String :=
  s!"the decision ledger table {ledgerTable} does not exist (account {accountId}, sleeve {sleeveId}); " ++
    s!"apply the databaseschema-internal migration {ledgerMigration}; " ++
    "the ETF sleeve cannot be planned until then"

def foreignTenantMessage (accountId sleeveId : String) : String :=
  s!"the decision ledger already holds rows of account {accountId} (sleeve {sleeveId}) under a different " ++
    "tenant than the one resolved for this run; refusing to read or write it (tenant scoping)"

namespace PgRunStore

variable [DebugText] [InstantReader] (tenants : String → Tenant)

def alreadyDone (r : RunRow) : Except RunStoreError Begin :=
  unavailable (Begin.alreadyDone <$> rowToRecord r)

/-- The read of a `begin` that lost the row to another one. -/
def beginLost (key : RunKey) : Statements Begin :=
  .call (.selectRun key) fun
    | none => .done (.error (.unavailable "row vanished during resume race"))
    | some (now : RunRow) =>
        if now.status = .done then .done (alreadyDone now) else .done (.ok (.busy now.startedAt))

/-- The lease that was read has run out: take the row, unless someone else did. -/
def beginResume (key : RunKey) (tradingDay : NaiveDate) (startedAt : Instant) (leaseSecs : Int)
    (existing : RunRow) : Statements Begin :=
  let nextAttempt := (existing.attempt + 1).bmod (2 ^ 32)
  .call (.resumeRun nextAttempt tradingDay startedAt (startedAt + leaseSecs * nanosPerSecond) key
      existing.leaseUntil) fun (updated : Nat) =>
    if updated = 1 then .done (.ok (.started (max nextAttempt 1).toNat)) else beginLost key

def beginRead (key : RunKey) (tradingDay : NaiveDate) (startedAt : Instant) (leaseSecs : Int) :
    Statements Begin :=
  .call (.selectRun key) fun
    | none => .done (.error (.unavailable "row vanished between insert and read"))
    | some (existing : RunRow) =>
        if existing.status = .done then .done (alreadyDone existing)
        else if startedAt < existing.leaseUntil then .done (.ok (.busy existing.startedAt))
        else beginResume key tradingDay startedAt leaseSecs existing

def begin (key : RunKey) (tradingDay : NaiveDate) (startedAt : Instant) (leaseSecs : Int) :
    Statements Begin :=
  .call (.insertRun key tradingDay startedAt (startedAt + leaseSecs * nanosPerSecond)) fun (inserted : Nat) =>
    if inserted = 1 then .done (.ok (.started 1)) else beginRead key tradingDay startedAt leaseSecs

/-- A foreign key that is not met is read as a run that was not started. -/
def journalOrder (key : RunKey) (entry : JournalEntry) : Statements Unit :=
  .call (.upsertJournal (tenants key.accountId) key entry) fun (accepted : Bool) =>
    .done (if accepted then .ok () else .error (.notStarted key.canonical))

def journalRowToEntry (r : JournalRow) : Except String JournalEntry :=
  match Dec.parse r.notional with
  | .ok notional => .ok ⟨r.tag, r.brokerOrderId, notional⟩
  | .error e => .error e.display

def inFlight (accountId : String) : Statements (List JournalEntry) :=
  .call (.selectInFlight accountId) fun (rows : List JournalRow) =>
    .done (unavailable (rows.mapM journalRowToEntry))

def finishWrite (record : RunRecord) : Statements Unit :=
  let accountId := record.key.accountId
  let sleeves := "+".intercalate ((actedRows record).map SleeveDecision.sleeve)
  if !(actedRows record).isEmpty && tenants accountId == unknownTenant then
    .done (.error (.decisionLedgerUnavailable
      s!"no tenant is registered for account {accountId}; refusing to write its decision ledger"))
  else
    .call (.finishRun (tenants accountId) record) fun (outcome : Except FinishError Unit) =>
      .done (match outcome with
        | .ok () => .ok ()
        | .error .alreadyFinished => .error (.alreadyFinished record.key.canonical)
        | .error .ledgerMissing => .error (.decisionLedgerUnavailable (missingMessage accountId sleeves))
        | .error .ledgerForeignTenant =>
            .error (.decisionLedgerUnavailable (foreignTenantMessage accountId sleeves)))

def finish (record : RunRecord) : Statements Unit :=
  .call (.selectRun record.key) fun
    | none => .done (.error (.notStarted record.key.canonical))
    | some (existing : RunRow) =>
        if existing.status = .done then .done (.error (.alreadyFinished record.key.canonical))
        else finishWrite tenants record

def lastSnapshot (accountId : String) : Statements (Option SnapshotSummary) :=
  .call (.selectSnapshot accountId) fun (found : Option Value) =>
    .done (unavailable (found.mapM snapshotFromJson))

/-- The journal half of the counters, on top of the finished runs. -/
def countNotionals (accountId : String) (day : NaiveDate) (done : DayCounters) : Statements DayCounters :=
  .call (.selectNotionals accountId day) fun (texts : List String) =>
    .done (unavailable (texts.foldlM (fun c text =>
      match Dec.parse text with
      | .ok n => .ok ⟨RunStore.countOne c.ordersToday, RunStore.addTurnover c.turnoverToday n⟩
      | .error e => .error e.display) done))

def countDone (rows : List Value) : Except String DayCounters :=
  rows.foldlM (fun c v => do
    let placed ← placedVecFromJson v
    return (placed.filter RunStore.isTrade).foldl RunStore.countPlaced c) ⟨0, Dec.zero⟩

def dayCounters (accountId : String) (day : NaiveDate) : Statements DayCounters :=
  .call (.selectPlaced accountId day) fun (rows : List Value) =>
    match countDone rows with
    | .error e => .done (.error (.unavailable e))
    | .ok done => countNotionals accountId day done

def get (key : RunKey) : Statements (Option RunRecord) :=
  .call (.selectRun key) fun
    | none => .done (.ok none)
    | some (r : RunRow) =>
        if r.status = .done then .done (unavailable (some <$> rowToRecord r)) else .done (.ok none)

def readActed (accountId sleeveId : String) : Statements (Option NaiveDate) :=
  .call (.newestActed accountId sleeveId) fun (date : Option NaiveDate) => .done (.ok date)

def checkTenant (accountId sleeveId : String) : Statements (Option NaiveDate) :=
  .call (.foreignRows (tenants accountId) accountId) fun (found : Bool) =>
    if found then
      .done (.error (.decisionLedgerUnavailable (foreignTenantMessage accountId sleeveId)))
    else readActed accountId sleeveId

def lastActedDecision (accountId sleeveId : String) : Statements (Option NaiveDate) :=
  if tenants accountId = unknownTenant then
    .done (.error (.decisionLedgerUnavailable
      (s!"no tenant is registered for account {accountId} (sleeve {sleeveId}); " ++
        "the decision ledger is tenant-scoped, so it cannot be read")))
  else
    .call .ledgerPresent fun (present : Bool) =>
      if present then checkTenant tenants accountId sleeveId
      else .done (.error (.decisionLedgerUnavailable (missingMessage accountId sleeveId)))

def body : (c : StoreCall) → Prog Sql Sql.Ans c.Answer
  | .begin key tradingDay startedAt leaseSecs => begin key tradingDay startedAt leaseSecs
  | .journalOrder key entry => journalOrder tenants key entry
  | .inFlight accountId => inFlight accountId
  | .finish record => finish tenants record
  | .lastSnapshot accountId => lastSnapshot accountId
  | .dayCounters accountId day => dayCounters accountId day
  | .get key => get key
  | .lastActedDecision accountId sleeveId => lastActedDecision tenants accountId sleeveId

def service : Linearize.Service Sql Sql.Ans Tables StoreCall.Answer := ⟨Tables.effect, body tenants⟩

end PgRunStore

end RebalancerStore
