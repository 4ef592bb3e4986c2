import SignalEngine.RebalancerRun.Pipeline
import SignalEngine.Lib.Leases

/-! # The driver loop

Which accounts are due, and running them one after the other, each under its lock. Any
number of processes do this at the same time, against one table of locks and its clock.
A process may die at any point; its lock then runs out on its own.
-/

open BrokerAdapters Text Interaction

namespace RebalancerRun

open RebalancerCore (Instant InstantText Sha256 MandateEnvelope MandateStatus VenueRuleBook)
open RebalancerRisk (NaiveDate nanosPerSecond nanosPerDay dateNaive)
open Leases

namespace Driver

/-! ## What is due -/

structure ActiveAccount where
  accountId : String
  tenantId : String
  mandate : Mandate
  envelope : MandateEnvelope
  planApproved : Bool
  sleeves : List SleeveSpec
  mode : ExecutionMode

/-- The hour and the minute of the daily slot of a sleeve kind. -/
def runSlotUtc : SleeveKind → Nat × Nat
  | .cryptoTrend => (0, 10)
  | .etfTrend | .etfMomentum => (15, 0)

def laterSlot (a b : Nat × Nat) : Nat × Nat := if a.1 < b.1 ∨ a.1 = b.1 ∧ a.2 ≤ b.2 then b else a

/-- One slot an account: the latest of its sleeves'. -/
def accountRunSlotUtc (sleeves : List SleeveSpec) : Option (Nat × Nat) :=
  match sleeves.map fun s => runSlotUtc s.kind with
  | [] => none
  | slot :: slots => some (slots.foldl laterSlot slot)

def runSlotOn (sleeves : List SleeveSpec) (date : NaiveDate) : Option Instant :=
  (accountRunSlotUtc sleeves).map fun slot =>
    date * nanosPerDay + ((slot.1 * 3600 + slot.2 * 60 : Nat) : Int) * nanosPerSecond

def sleeveDueOn (kind : SleeveKind) (_date : NaiveDate) : Bool :=
  match kind with
  | .cryptoTrend | .etfTrend | .etfMomentum => true

/-- The slot of the current day, once it has come. -/
def slotFor (sleeves : List SleeveSpec) (now : Instant) : Option Instant :=
  let today := dateNaive now
  match runSlotOn sleeves today with
  | none => none
  | some slot =>
      if now < slot then none
      else if !sleeves.any (fun s => sleeveDueOn s.kind today) then none
      else some slot

structure RunSpec where
  accountId : String
  tenantId : String
  scheduledFor : Instant
  tradingDay : NaiveDate
  mode : ExecutionMode
  sleeves : List SleeveSpec
  mandate : Mandate
  envelope : MandateEnvelope

def dueRun (now : Instant) (a : ActiveAccount) : Option RunSpec :=
  if a.envelope.status ≠ .active ∨ a.planApproved = false then none
  else (slotFor a.sleeves now).map fun scheduledFor => {
    accountId := a.accountId
    tenantId := a.tenantId
    scheduledFor
    tradingDay := dateNaive scheduledFor
    mode := a.mode
    sleeves := a.sleeves
    mandate := a.mandate
    envelope := a.envelope }

def findDueRuns (accounts : List ActiveAccount) (now : Instant) : List RunSpec := accounts.filterMap (dueRun now)

/-! ## The lock of an account -/

/-- `LEASE_SECS`, in the microseconds of the table. -/
def lease : Int := 3600 * 1000000

/-- `rebalancer_account_locks`: by account, the token of the holder and the end of its lease. -/
abbrev AccountLocks := Table String String

/-- The lock that is given back when it is dropped. -/
structure LockGuard where
  accountId : String
  token : String
  /-- When it was taken. -/
  since : Int

/-! ## A process -/

inductive DueRunError where
  | lockBusy
  | lockUnavailable (e : String)
  | noRuntime
  | panicked (message : String)

structure DueOutcome where
  spec : RunSpec
  result : Except DueRunError RunRecord

/-- What the driver looks up for an account: its venue, with the rules of its instruments. -/
structure AccountRuntime where
  venue : String
  venueRules : VenueRuleBook

def RunSpec.context (spec : RunSpec) (rt : AccountRuntime) (config : RunConfig) : RunContext where
  accountId := spec.accountId
  scheduledFor := spec.scheduledFor
  tradingDay := spec.tradingDay
  mode := spec.mode
  sleeves := spec.sleeves
  mandate := some spec.mandate
  envelope := some spec.envelope
  venue := rt.venue
  venueRules := rt.venueRules
  config

inductive Phase where
  /-- In front of its next candidate. -/
  | idle
  /-- Inside `run_once`, with the rest of it. -/
  | running (spec : RunSpec) (guard : LockGuard) (rest : Prog Asked Asked.Answer RunRecord)
  /-- In front of dropping the guard. -/
  | releasing (spec : RunSpec) (guard : LockGuard) (result : Except DueRunError RunRecord)

structure Process where
  given : List RunSpec
  due : List RunSpec
  phase : Phase
  out : List DueOutcome

def Phase.guard : Phase → Option LockGuard
  | .idle => none
  | .running _ guard _ | .releasing _ guard _ => some guard

def Phase.spec : Phase → Option RunSpec
  | .idle => none
  | .running spec _ _ | .releasing spec _ _ => some spec

/-- All processes, the table of locks and its clock, and the tokens drawn so far. -/
structure World where
  now : Int
  locks : AccountLocks
  drawn : Set String
  procs : Nat → Option Process

def World.empty (now : Int) : World := ⟨now, fun _ => none, ∅, fun _ => none⟩

def World.put (w : World) (i : Nat) (p : Process) : World := { w with procs := Function.update w.procs i (some p) }

/-- The next candidate is reported, and passed over. -/
def Process.skip (p : Process) (spec : RunSpec) (due : List RunSpec) (e : DueRunError) : Process :=
  { p with due, out := p.out ++ [⟨spec, .error e⟩] }

section Steps

variable [InstantText] [UnicodeCase] [DebugText] [DateText] [Sha256] [FloatFloor]

/-- Behind the lock: run the candidate, if there is anything to run it with. -/
def Process.enter (p : Process) (spec : RunSpec) (due : List RunSpec) (guard : LockGuard) (rt : Option AccountRuntime)
    (config : RunConfig) : Process :=
  match rt with
  | none => { p with due, phase := .releasing spec guard (.error .noRuntime) }
  | some rt => { p with due, phase := .running spec guard (runOnce (spec.context rt config)) }

/-- One step of one process, or of the clock. The answers to a run are left open. -/
inductive Step (runtimes : String → Option AccountRuntime) (config : RunConfig) : World → World → Prop where
  | clock {w : World} {now : Int} (later : w.now ≤ now) : Step runtimes config w { w with now }
  | start {w : World} {i : Nat} (accounts : List ActiveAccount) (at' : Instant) (free : w.procs i = none) :
      Step runtimes config w
        (w.put i ⟨findDueRuns accounts at', findDueRuns accounts at', .idle, []⟩)
  | locked {w : World} {i : Nat} {p : Process} {spec : RunSpec} {due : List RunSpec} {token : String}
      (here : w.procs i = some p) (idle : p.phase = .idle) (next : p.due = spec :: due) (fresh : token ∉ w.drawn)
      (acquired : (w.locks.acquire spec.accountId token w.now lease).1 = true) :
      Step runtimes config w
        (World.put { w with locks := (w.locks.acquire spec.accountId token w.now lease).2, drawn := insert token w.drawn } i
          (p.enter spec due ⟨spec.accountId, token, w.now⟩ (runtimes spec.accountId) config))
  | busy {w : World} {i : Nat} {p : Process} {spec : RunSpec} {due : List RunSpec} {token : String}
      (here : w.procs i = some p) (idle : p.phase = .idle) (next : p.due = spec :: due) (fresh : token ∉ w.drawn)
      (refused : (w.locks.acquire spec.accountId token w.now lease).1 = false) :
      Step runtimes config w (World.put { w with drawn := insert token w.drawn } i (p.skip spec due .lockBusy))
  /-- The statement failed, before or after it took effect. -/
  | unavailable {w : World} {i : Nat} {p : Process} {spec : RunSpec} {due : List RunSpec} {token : String}
      {locks : AccountLocks} (e : String) (here : w.procs i = some p) (idle : p.phase = .idle)
      (next : p.due = spec :: due) (fresh : token ∉ w.drawn)
      (effect : locks = w.locks ∨ locks = (w.locks.acquire spec.accountId token w.now lease).2) :
      Step runtimes config w
        (World.put { w with locks, drawn := insert token w.drawn } i (p.skip spec due (.lockUnavailable e)))
  | asked {w : World} {i : Nat} {p : Process} {spec : RunSpec} {guard : LockGuard} {op : Asked}
      {rest : op.Answer → Prog Asked Asked.Answer RunRecord} (answer : op.Answer) (here : w.procs i = some p)
      (inside : p.phase = .running spec guard (.call op rest)) :
      Step runtimes config w (w.put i { p with phase := .running spec guard (rest answer) })
  | returned {w : World} {i : Nat} {p : Process} {spec : RunSpec} {guard : LockGuard} {record : RunRecord}
      (here : w.procs i = some p) (inside : p.phase = .running spec guard (.done record)) :
      Step runtimes config w (w.put i { p with phase := .releasing spec guard (.ok record) })
  | panicked {w : World} {i : Nat} {p : Process} {spec : RunSpec} {guard : LockGuard}
      {rest : Prog Asked Asked.Answer RunRecord} (message : String) (here : w.procs i = some p)
      (inside : p.phase = .running spec guard rest) :
      Step runtimes config w (w.put i { p with phase := .releasing spec guard (.error (.panicked message)) })
  /-- The guard is dropped; whether its row goes with it is not looked at. -/
  | released {w : World} {i : Nat} {p : Process} {spec : RunSpec} {guard : LockGuard}
      {result : Except DueRunError RunRecord} {locks : AccountLocks} (here : w.procs i = some p)
      (leaving : p.phase = .releasing spec guard result)
      (effect : locks = w.locks ∨ locks = w.locks.release guard.accountId guard.token) :
      Step runtimes config w
        (World.put { w with locks } i { p with phase := .idle, out := p.out ++ [⟨spec, result⟩] })
  | died {w : World} {i : Nat} : Step runtimes config w { w with procs := Function.update w.procs i none }

end Steps

end Driver

end RebalancerRun
