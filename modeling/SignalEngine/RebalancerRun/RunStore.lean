import SignalEngine.RebalancerRun.Record
import Mathlib.Order.Bounds.Basic

/-! # The run store

Run records under a unique key, with a lease while a run is in progress and a
journal of its orders. Calls of any number of attempts reach the store one at a
time, so a history is a list of calls.
-/

open BrokerAdapters

namespace RebalancerRun

open RebalancerCore (Instant InstantText DayCounters)
open RebalancerRisk (NaiveDate nanosPerSecond)

inductive RunStoreError where
  | unavailable (what : String)
  | alreadyFinished (key : String)
  | notStarted (key : String)
  | decisionLedgerUnavailable (what : String)
  deriving DecidableEq

def RunStoreError.display : RunStoreError → String
  | unavailable what => s!"RUNSTORE_UNAVAILABLE: {what}"
  | alreadyFinished key =>
      s!"RUNSTORE_ALREADY_FINISHED: the record for {key} was already written and is immutable"
  | notStarted key => s!"RUNSTORE_NOT_STARTED: no run in progress for {key}"
  | decisionLedgerUnavailable what => s!"RUNSTORE_DECISION_LEDGER_UNAVAILABLE: {what}"

inductive Begin where
  | started (attempt : Nat)
  | alreadyDone (record : RunRecord)
  | busy (startedAt : Instant)

structure JournalEntry where
  tag : String
  /-- `none` while only the intent to place the order is recorded. -/
  brokerOrderId : Option String
  notional : Dec
  deriving DecidableEq

structure Progress where
  /-- A 32-bit counter. -/
  attempt : Nat
  tradingDay : NaiveDate
  startedAt : Instant
  leaseUntil : Instant
  journal : List JournalEntry
  deriving DecidableEq

inductive Entry where
  | inProgress (p : Progress)
  | done (record : RunRecord)

def Entry.journal : Entry → List JournalEntry
  | inProgress p => p.journal
  | done _ => []

def Entry.orderIds : Entry → List String
  | inProgress p => p.journal.filterMap JournalEntry.brokerOrderId
  | done r => r.placed.filterMap PlacedOrder.brokerOrderId

structure RunStore where
  /-- Only looked up and replaced, never walked through. -/
  entries : RunKey → Option Entry
  /-- The keys, in the order they were begun. -/
  order : List RunKey
  /-- The next calls that fail. -/
  failNext : Nat
  /-- The newest decision acted on, by account and sleeve. -/
  acted : String → String → Option NaiveDate

/-- An entry with the same tag is replaced in its place. -/
def journalWith (entry : JournalEntry) : List JournalEntry → List JournalEntry
  | [] => [entry]
  | j :: js => if j.tag = entry.tag then entry :: js else j :: journalWith entry js

/-- The slot of a decision after one more record: it never moves back. -/
def advanceTo (date : NaiveDate) : Option NaiveDate → NaiveDate
  | none => date
  | some current => if current < date then date else current

/-- One acted decision of a record, entered into the ledger. -/
def enterActed (account : String) (acted : String → String → Option NaiveDate) (d : SleeveDecision) :
    String → String → Option NaiveDate :=
  fun a s => if a = account ∧ s = d.sleeve then some (advanceTo d.decisionDate (acted a s)) else acted a s

namespace RunStore

def new : RunStore := ⟨fun _ => none, [], 0, fun _ _ => none⟩

def failNextCalls (store : RunStore) (n : Nat) : RunStore := { store with failNext := n }

def check {α : Type} (store : RunStore) (answer : RunStore → RunStore × Except RunStoreError α) :
    RunStore × Except RunStoreError α :=
  if 0 < store.failNext then
    ({ store with failNext := store.failNext - 1 }, .error (.unavailable "injected failure"))
  else answer store

def put (store : RunStore) (key : RunKey) (entry : Entry) : RunStore :=
  { store with entries := Function.update store.entries key (some entry) }

/-- A first attempt, or the next one once the lease of the last has run out. -/
def beginWith (key : RunKey) (tradingDay : NaiveDate) (startedAt : Instant) (leaseSecs : Int)
    (store : RunStore) : RunStore × Except RunStoreError Begin :=
  let leaseUntil := startedAt + leaseSecs * nanosPerSecond
  match store.entries key with
  | none =>
      ({ store.put key (.inProgress ⟨1, tradingDay, startedAt, leaseUntil, []⟩) with
          order := store.order ++ [key] },
        .ok (.started 1))
  | some (.done record) => (store, .ok (.alreadyDone record))
  | some (.inProgress p) =>
      if startedAt < p.leaseUntil then (store, .ok (.busy p.startedAt))
      else
        let attempt := (p.attempt + 1) % 2 ^ 32
        (store.put key (.inProgress ⟨attempt, tradingDay, startedAt, leaseUntil, p.journal⟩),
          .ok (.started attempt))

def begin (store : RunStore) (key : RunKey) (tradingDay : NaiveDate) (startedAt : Instant)
    (leaseSecs : Int) : RunStore × Except RunStoreError Begin :=
  store.check (beginWith key tradingDay startedAt leaseSecs)

def journalOrder [InstantText] (store : RunStore) (key : RunKey) (entry : JournalEntry) :
    RunStore × Except RunStoreError Unit :=
  store.check fun store =>
    match store.entries key with
    | some (.inProgress p) =>
        (store.put key (.inProgress { p with journal := journalWith entry p.journal }), .ok ())
    | _ => (store, .error (.notStarted key.canonical))

def finish [InstantText] (store : RunStore) (record : RunRecord) :
    RunStore × Except RunStoreError Unit :=
  store.check fun store =>
    match store.entries record.key with
    | some (.inProgress _) =>
        ({ store.put record.key (.done record) with
            acted := (record.decisions.filter SleeveDecision.acted).foldl
              (enterActed record.key.accountId) store.acted },
          .ok ())
    | some (.done _) => (store, .error (.alreadyFinished record.key.canonical))
    | none => (store, .error (.notStarted record.key.canonical))

/-- The entries of an account, in the order they were begun. -/
def entriesOf (store : RunStore) (accountId : String) : List Entry :=
  (store.order.filter fun (key : RunKey) => key.accountId == accountId).filterMap store.entries

def read {α : Type} (store : RunStore) (answer : RunStore → α) : RunStore × Except RunStoreError α :=
  store.check fun store => (store, .ok (answer store))

/-- Journal entries of runs still in progress, or abandoned. -/
def inFlightOf (store : RunStore) (accountId : String) : List JournalEntry :=
  (store.entriesOf accountId).flatMap Entry.journal

def inFlight (store : RunStore) (accountId : String) :
    RunStore × Except RunStoreError (List JournalEntry) :=
  store.read (inFlightOf · accountId)

/-- The newest reading seen so far, by when its record was finished. -/
def newerSnapshot (best : Option (Instant × SnapshotSummary)) : Entry → Option (Instant × SnapshotSummary)
  | .inProgress _ => best
  | .done r =>
      match r.postSnapshot.or r.preSnapshot with
      | none => best
      | some s =>
          if best.all fun b => b.1 ≤ r.finishedAt then some (r.finishedAt, s) else best

def lastSnapshotOf (store : RunStore) (accountId : String) : Option SnapshotSummary :=
  ((store.entriesOf accountId).foldl newerSnapshot none).map Prod.snd

def lastSnapshot (store : RunStore) (accountId : String) :
    RunStore × Except RunStoreError (Option SnapshotSummary) :=
  store.read (lastSnapshotOf · accountId)

def knownOrderIds (store : RunStore) (accountId : String) :
    RunStore × Except RunStoreError (Std.ExtTreeSet String) :=
  store.read fun store => Std.ExtTreeSet.ofList ((store.entriesOf accountId).flatMap Entry.orderIds)

def countOne (orders : Nat) : Nat := min (orders + 1) (2 ^ 32 - 1)

def addTurnover (turnover value : Dec) : Dec := (turnover.checkedAdd value).getD turnover

def countPlaced (c : DayCounters) (p : PlacedOrder) : DayCounters :=
  if p.brokerOrderId.isSome && p.outcome != .adoptedExisting then
    ⟨countOne c.ordersToday,
      addTurnover c.turnoverToday ((p.executedQuantity.checkedMul p.price).getD Dec.zero)⟩
  else c

def countJournal (c : DayCounters) (j : JournalEntry) : DayCounters :=
  ⟨countOne c.ordersToday, addTurnover c.turnoverToday j.notional⟩

def isTrade (p : PlacedOrder) : Bool := p.phase == .sells || p.phase == .buys

def countEntry (day : NaiveDate) (c : DayCounters) : Entry → DayCounters
  | .done r =>
      if r.tradingDay = day ∧ r.mode = .live then (r.placed.filter isTrade).foldl countPlaced c else c
  | .inProgress p => if p.tradingDay = day then p.journal.foldl countJournal c else c

def dayCountersOf (store : RunStore) (accountId : String) (day : NaiveDate) : DayCounters :=
  (store.entriesOf accountId).foldl (countEntry day) ⟨0, Dec.zero⟩

def dayCounters (store : RunStore) (accountId : String) (day : NaiveDate) :
    RunStore × Except RunStoreError DayCounters :=
  store.read (dayCountersOf · accountId day)

def get (store : RunStore) (key : RunKey) : RunStore × Except RunStoreError (Option RunRecord) :=
  store.read fun store =>
    match store.entries key with
    | some (.done r) => some r
    | _ => none

def lastActedDecision (store : RunStore) (accountId sleeveId : String) :
    RunStore × Except RunStoreError (Option NaiveDate) :=
  store.read (RunStore.acted · accountId sleeveId)

end RunStore

end RebalancerRun
