import SignalEngine.RebalancerRun.RunStore
import SignalEngine.RebalancerRun.Decision
import SignalEngine.RebalancerRisk.Store

/-! # The run pipeline

`runOnce`: one scheduled run. Every collaborator (broker, clock, data, the two
stores, notifier, kill flag) answers calls; how they answer is left open. Each
call carries the run's own state at the moment it is made, so that a property
can speak about both.
-/

open BrokerAdapters Interaction Text

namespace RebalancerRun

open RebalancerCore (Instant InstantText Sha256 VenueRuleBook DayCounters DeploymentLimits
  MandateEnvelope OrderPlan PlanConfig PlannedOrder PlanError Policy PolicyBody PricePoint
  SizeRefusal SkipReason SkippedTrade SleeveTarget AccountView Position)
open RebalancerRisk (AccountState AccountStatus DayStartRule EquitySnapshot HaltReason NaiveDate
  RiskDecision RiskPolicy RiskPolicyError StoreError dateNaive stepWith)

/-! ## Context -/

inductive RunCode where
  | completed
  | killFlagSet
  | noActiveMandate
  | mandateNotActive
  | mandateInvalid
  | accountHalted
  | busy
  | storeUnavailable
  | killFlagUnreadable
  | riskPolicyInvalid
  | brokerUnreachable
  | stateStoreError
  | cleanupFailed
  | dataError
  | ruleError
  | planError
  | nothingPending
  | decisionLedgerUnavailable
  | decisionNotActed
  | venueNotPaper
  deriving DecidableEq

def RunCode.asStr : RunCode → String
  | completed => "RUN_COMPLETED"
  | killFlagSet => "RUN_KILL_FLAG_SET"
  | noActiveMandate => "RUN_NO_ACTIVE_MANDATE"
  | mandateNotActive => "RUN_MANDATE_NOT_ACTIVE"
  | mandateInvalid => "RUN_MANDATE_INVALID"
  | accountHalted => "RUN_ACCOUNT_HALTED"
  | busy => "RUN_BUSY"
  | storeUnavailable => "RUN_STORE_UNAVAILABLE"
  | killFlagUnreadable => "RUN_KILL_FLAG_UNREADABLE"
  | riskPolicyInvalid => "RUN_RISK_POLICY_INVALID"
  | brokerUnreachable => "RUN_BROKER_UNREACHABLE"
  | stateStoreError => "RUN_STATE_STORE_ERROR"
  | cleanupFailed => "RUN_CLEANUP_FAILED"
  | dataError => "RUN_DATA_ERROR"
  | ruleError => "RUN_RULE_ERROR"
  | planError => "RUN_PLAN_ERROR"
  | nothingPending => "RUN_NOTHING_PENDING"
  | decisionLedgerUnavailable => "RUN_DECISION_LEDGER_UNAVAILABLE"
  | decisionNotActed => "RUN_DECISION_NOT_ACTED"
  | venueNotPaper => "RUN_VENUE_NOT_PAPER"

inductive VenuePolicy where
  | unrestricted
  /-- Only a broker that reports a paper environment may be used. -/
  | paperOnly
  deriving DecidableEq

inductive VenueEnvironment where
  | paper
  | live
  | unspecified
  deriving DecidableEq

def VenueEnvironment.asStr : VenueEnvironment → String
  | paper => "paper"
  | live => "live"
  | unspecified => "unspecified"

structure RunConfig where
  minTradeAbs : Dec
  minTradePct : Dec
  feeRate : Dec
  tolerances : ReconTolerances
  recoveryFraction : Dec
  maxPriceAgeSecs : MachineInt.SInt 64
  leaseSecs : Int
  maxPolls : Nat
  pollSecs : Nat
  flattenMaxRounds : Nat
  deployment : Option DeploymentLimits
  venuePolicy : VenuePolicy
  dayStart : DayStartRule

/-- A mandate, as far as it is compiled: its limits and its risk policy for a
    recovery fraction. -/
structure Mandate where
  hash : String
  compiled : PolicyBody
  riskPolicy : (recoveryFraction : Dec) → Except RiskPolicyError RiskPolicy

structure RunContext where
  accountId : String
  scheduledFor : Instant
  tradingDay : NaiveDate
  mode : ExecutionMode
  sleeves : List SleeveSpec
  mandate : Option Mandate
  envelope : Option MandateEnvelope
  /-- The venue name of the broker. -/
  venue : String
  venueRules : VenueRuleBook
  config : RunConfig

namespace RunContext

/-- The key is over the configured sleeves, never over the pending ones. -/
def key (ctx : RunContext) : RunKey :=
  RunKey.new ctx.accountId ctx.scheduledFor (ctx.sleeves.map SleeveSpec.id)

end RunContext

structure Run where
  record : RunRecord
  state : AccountState
  snapshot : Option BrokerSnapshot
  policy : Option Policy
  riskPolicy : Option RiskPolicy
  knownIds : Std.ExtTreeSet String
  /-- What the account should look like before trading. -/
  preBaseline : Option ReconBaseline
  /-- Ids whose fills are already inside `preBaseline`. -/
  appliedIds : Std.ExtTreeSet String
  /-- The pending sleeves, with their index among the configured ones. -/
  pending : List (Nat × SleeveSpec × Evaluation)
  /-- Every order the plan called for was carried out. -/
  carried : Bool
  /-- New buys are paused, and why. -/
  buysPaused : Option String
  pausedTickets : List String

def Run.init (ctx : RunContext) (startedAt : Instant) : Run where
  record := {
    key := ctx.key
    mode := ctx.mode
    attempt := 1
    tradingDay := ctx.tradingDay
    scheduledFor := ctx.scheduledFor
    startedAt
    finishedAt := startedAt
    outcome := ⟨.completed, RunCode.completed.asStr, ""⟩
    mandateHash := ""
    mandateVersion := none
    mandateStanding := "none"
    dataFingerprints := []
    preSnapshot := none
    postSnapshot := none
    recon := []
    stateBefore := none
    stateAfter := none
    transitions := []
    risk := none
    decisions := []
    targets := []
    plan := none
    replan := none
    tickets := []
    placed := []
    cleanup := []
    flatten := none
    alerts := []
    alertDeliveryFailures := []
    steps := [] }
  state := AccountState.new ctx.accountId
  snapshot := none
  policy := none
  riskPolicy := none
  knownIds := ∅
  preBaseline := none
  appliedIds := ∅
  pending := []
  carried := false
  buysPaused := none
  pausedTickets := []

/-! ## Calls -/

inductive RunOp where
  | broker (op : BrokerOp)
  | environment
  | killFlag
  | notify (alert : Alert)
  | loadState (accountId : String)
  | saveState (expected : Nat) (next : AccountState)
  | begin (key : RunKey) (tradingDay : NaiveDate) (startedAt : Instant) (leaseSecs : Int)
  | journalOrder (key : RunKey) (entry : JournalEntry)
  | inFlight (accountId : String)
  | finish (record : RunRecord)
  | lastSnapshot (accountId : String)
  | knownOrderIds (accountId : String)
  | dayCounters (accountId : String) (day : NaiveDate)
  | lastActedDecision (accountId sleeve : String)
  | evaluate (sleeve : SleeveSpec) (asOf : NaiveDate)
  | prices (symbols : List String) (now : Instant)

abbrev RunOp.Answer : RunOp → Type
  | broker op => op.Answer
  | environment => VenueEnvironment
  | killFlag => Except String Bool
  | notify _ => Except String Unit
  | loadState _ => Except StoreError (Option AccountState)
  | saveState _ _ => Except StoreError AccountState
  | begin _ _ _ _ => Except RunStoreError Begin
  | journalOrder _ _ => Except RunStoreError Unit
  | inFlight _ => Except RunStoreError (List JournalEntry)
  | finish _ => Except RunStoreError Unit
  | lastSnapshot _ => Except RunStoreError (Option SnapshotSummary)
  | knownOrderIds _ => Except RunStoreError (Std.ExtTreeSet String)
  | dayCounters _ _ => Except RunStoreError DayCounters
  | lastActedDecision _ _ => Except RunStoreError (Option NaiveDate)
  | evaluate _ _ => Except EvalError Evaluation
  | prices _ _ => Except DataError (Std.ExtTreeMap String PricePoint)

/-- A call, with the state of the run that makes it. -/
structure Asked where
  run : Run
  op : RunOp

abbrev Asked.Answer (asked : Asked) : Type := asked.op.Answer

abbrev RunM := StateT Run (Prog Asked Asked.Answer)

/-- A step may end the run; the outcome is then already on the record. -/
abbrev StepM := OptionT RunM

def askFor (op : RunOp) : RunM op.Answer := fun run => .call ⟨run, op⟩ fun answer => .done (answer, run)

/-- A program that only calls the broker, made by the run. -/
def brokerProg {α : Type} (run : Run) : Prog BrokerOp BrokerOp.Answer α → Prog Asked Asked.Answer (α × Run)
  | .done value => .done (value, run)
  | .call op next => .call ⟨run, .broker op⟩ fun answer => brokerProg run (next answer)

def viaBroker {α : Type} (prog : Prog BrokerOp BrokerOp.Answer α) : RunM α := fun run => brokerProg run prog

def joinComma (parts : List String) : String := ",".intercalate parts

/-- Starts every text about a day without an anchor. -/
def dayStartMissingCode : String := "DAY_START_MISSING"

namespace Run

def now : RunM Instant := askFor (.broker .now)
def sleepSecs (secs : Nat) : RunM Unit := askFor (.broker (.sleepSecs secs))
def brokerSnapshot (now : Instant) : RunM (Except SnapshotError BrokerSnapshot) :=
  askFor (.broker (.snapshot now))
def place (req : OrderRequest) : RunM (Except BrokerError PlaceOutcome) := askFor (.broker (.place req))
def getOrder (id : String) : RunM (Except BrokerError OrderReport) := askFor (.broker (.getOrder id))
def findByTag (tag : String) : RunM (Except BrokerError (List OrderReport)) :=
  askFor (.broker (.findByTag tag))
def cancelAndSettle (id : String) : RunM (Except BrokerError (CancelOutcome × OrderReport)) :=
  askFor (.broker (.cancelAndSettle id))
def environment : RunM VenueEnvironment := askFor .environment
def killFlag : RunM (Except String Bool) := askFor .killFlag
def notify (alert : Alert) : RunM (Except String Unit) := askFor (.notify alert)
def loadState (accountId : String) : RunM (Except StoreError (Option AccountState)) :=
  askFor (.loadState accountId)
def storeState (expected : Nat) (next : AccountState) : RunM (Except StoreError AccountState) :=
  askFor (.saveState expected next)
def beginKey (key : RunKey) (day : NaiveDate) (startedAt : Instant) (leaseSecs : Int) :
    RunM (Except RunStoreError Begin) := askFor (.begin key day startedAt leaseSecs)
def journalOrder (key : RunKey) (entry : JournalEntry) : RunM (Except RunStoreError Unit) :=
  askFor (.journalOrder key entry)
def inFlight (accountId : String) : RunM (Except RunStoreError (List JournalEntry)) :=
  askFor (.inFlight accountId)
def finishRecord (record : RunRecord) : RunM (Except RunStoreError Unit) := askFor (.finish record)
def lastSnapshot (accountId : String) : RunM (Except RunStoreError (Option SnapshotSummary)) :=
  askFor (.lastSnapshot accountId)
def knownOrderIds (accountId : String) : RunM (Except RunStoreError (Std.ExtTreeSet String)) :=
  askFor (.knownOrderIds accountId)
def countersOf (accountId : String) (day : NaiveDate) : RunM (Except RunStoreError DayCounters) :=
  askFor (.dayCounters accountId day)
def lastActed (accountId sleeve : String) : RunM (Except RunStoreError (Option NaiveDate)) :=
  askFor (.lastActedDecision accountId sleeve)
def evaluate (sleeve : SleeveSpec) (asOf : NaiveDate) : RunM (Except EvalError Evaluation) :=
  askFor (.evaluate sleeve asOf)
def pricesOf (symbols : List String) (now : Instant) :
    RunM (Except DataError (Std.ExtTreeMap String PricePoint)) := askFor (.prices symbols now)

def modifyRec (f : RunRecord → RunRecord) : RunM Unit := modify fun run => { run with record := f run.record }

def note (step text : String) : RunM Unit := do
  let at' ← now
  modifyRec fun r => { r with steps := r.steps ++ [⟨step, at', text⟩] }

section Texts

variable [InstantText]

def alert (ctx : RunContext) (code : AlertCode) (severity : AlertSeverity) (message dedupe : String) :
    RunM Unit := do
  let at' ← now
  let a : Alert :=
    ⟨code, severity, ctx.accountId, ctx.key.canonical, message, s!"{ctx.accountId}:{dedupe}", at'⟩
  match ← notify a with
  | .ok () => modifyRec fun r => { r with alerts := r.alerts ++ [a] }
  | .error e =>
      modifyRec fun r => { r with
        alertDeliveryFailures := r.alertDeliveryFailures ++ [s!"{a.code.asStr}: {e}"]
        alerts := r.alerts ++ [a] }

def setOutcome (kind : OutcomeKind) (code message : String) : RunM Unit :=
  modifyRec fun r => { r with outcome := ⟨kind, code, message⟩ }

def endWith {α : Type} (last : RunM Unit) : StepM α := do
  last
  failure

/-- Nothing was or will be traded because something is in doubt. -/
def failClosed (ctx : RunContext) (code : RunCode) (message : String) : RunM Unit := do
  alert ctx .runFailed .critical s!"{code.asStr}: {message}; nothing was traded" s!"failed:{code.asStr}"
  setOutcome .failedClosed code.asStr message

def failRun {α : Type} (ctx : RunContext) (code : RunCode) (message : String) : StepM α :=
  endWith (failClosed ctx code message)

/-! ## Steps 1 to 3 -/

def stepVenuePolicy (ctx : RunContext) : StepM Unit := do
  match ctx.config.venuePolicy with
  | .unrestricted => pure ()
  | .paperOnly =>
      let env ← environment
      match env with
      | .paper => note "venue_policy" s!"paper-only: {ctx.venue} is a paper connection"
      | _ => endWith do
          note "venue_policy"
            s!"paper-only policy: the {ctx.venue} broker reports {env.asStr}: refused"
          failClosed ctx .venueNotPaper
            s!"the paper-only policy is in force and the {ctx.venue} broker connection is not a verified paper connection (it reports {env.asStr})"

def stepKillFlag (ctx : RunContext) : StepM Unit := do
  match ← killFlag with
  | .ok false => note "kill_flag" "not set"
  | .ok true => endWith do
      note "kill_flag" "SET"
      setOutcome .refused RunCode.killFlagSet.asStr "the kill flag is set: no run"
  | .error e => endWith do
      note "kill_flag" s!"unreadable: {e}"
      failClosed ctx .killFlagUnreadable s!"the kill flag could not be read: {e}"

/-- The compiled policy, with the envelope and the limits of the deployment. -/
def policyFor [UnicodeCase] (ctx : RunContext) (m : Mandate) : Policy :=
  let policy : Policy := ⟨m.hash, m.compiled, ctx.envelope, ctx.config.maxPriceAgeSecs⟩
  match ctx.config.deployment with
  | some d => policy.withDeployment d
  | none => policy

def mayRehearse (ctx : RunContext) : Bool :=
  ctx.mode != .live && ctx.envelope.any fun (e : MandateEnvelope) => e.status == .draft

def setStanding (standing text : String) : RunM Unit := do
  modifyRec fun r => { r with mandateStanding := standing }
  note "mandate" text

def stepMandate [UnicodeCase] (ctx : RunContext) : StepM Unit := do
  match ctx.mandate with
  | none => endWith do
      note "mandate" "no mandate"
      alert ctx .mandateUnusable .warning "the account has no mandate: no run" "mandate"
      setOutcome .refused RunCode.noActiveMandate.asStr "no active mandate: no order of any kind"
  | some m =>
      modifyRec fun r => { r with
        mandateHash := m.hash
        mandateVersion := ctx.envelope.map MandateEnvelope.version }
      let policy := policyFor ctx m
      let at' ← now
      let policy ← (match policy.standing at' with
        | .invalid => endWith do
            setStanding "invalid" "invalid"
            alert ctx .mandateUnusable .critical "the mandate is invalid: no run" "mandate"
            setOutcome .refused RunCode.mandateInvalid.asStr "the mandate did not validate"
        | .notActive why =>
            if mayRehearse ctx then do
              setStanding "draft (rehearsal)" "draft mandate, rehearsal only"
              -- Planned as if active.
              pure { policy with
                envelope := ctx.envelope.map fun (e : MandateEnvelope) => { e with status := .active } }
            else endWith do
              setStanding s!"not active: {why}" s!"not active: {why}"
              alert ctx .mandateUnusable .warning s!"the mandate is not active ({why}): no run" "mandate"
              setOutcome .refused RunCode.mandateNotActive.asStr why
        | .expired => do
            setStanding "expired" "expired: only reducing orders may pass the guard"
            pure policy
        | .active => do
            setStanding "active" "active"
            pure policy : StepM Policy)
      match m.riskPolicy ctx.config.recoveryFraction with
      | .error e =>
          failRun ctx .riskPolicyInvalid e
      | .ok r => modify fun run => { run with riskPolicy := some r, policy := some policy }

/-! ## Step 3b: which sleeves have a pending decision -/

section Decisions

variable [DateText]

def alertRefusal (ctx : RunContext) (s : SleeveSpec) (gate : DataGateReport) (r : GateReason) :
    RunM Unit := do
  let place := match r.symbol, r.date with
    | some sym, some d => s!"{sym}@{DateText.display d}"
    | some sym, none => sym
    | none, some d => s!"@{DateText.display d}"
    | none, none => "sleeve"
  alert ctx .dataGateShadowRefuse .warning
    s!"data gate (shadow) would have REFUSED sleeve {s.id} ({gate.primarySource} vs {gate.secondarySource}): {r.code} {place}: {r.detail}; the run proceeded on the primary panel"
    s!"data_gate_shadow_refuse:{s.id}:{place}"

/-- The gate's verdict is recorded; the run goes on as without a gate. -/
def recordGate (ctx : RunContext) (s : SleeveSpec) : Option DataGateReport → RunM Unit
  | none => pure ()
  | some gate => do
      note "decisions" s!"sleeve {s.id}: {gate.summary}"
      gate.refusals.forM (alertRefusal ctx s gate)

/-- The newest decision acted on; a daily sleeve does not ask. -/
def lastActedFor (ctx : RunContext) (s : SleeveSpec) : StepM (Option NaiveDate) := do
  match s.kind.cadence with
  | .daily => pure none
  | .onDecision =>
      match ← lastActed ctx.accountId s.id with
      | .ok date => pure date
      | .error (.decisionLedgerUnavailable what) => endWith do
          let e := (RunStoreError.decisionLedgerUnavailable what).display
          note "decisions" s!"no decision ledger for {s.id}: {e}"
          failClosed ctx .decisionLedgerUnavailable
            s!"sleeve {s.id}: {e}; it cannot be known whether this decision was already acted on, so nothing is planned"
      | .error e =>
          failRun ctx .storeUnavailable s!"the run store failed: {e.display}"

def evaluateSleeve (ctx : RunContext) (s : SleeveSpec) (asOf : NaiveDate) : StepM Evaluation := do
  match ← evaluate s asOf with
  | .ok eval => pure eval
  | .error (.data e) => endWith do
      note "decisions" s!"data error for {s.id}: {e.display}"
      failClosed ctx .dataError s!"sleeve {s.id}: {e.display}"
  | .error (.rule e) => endWith do
      note "decisions" s!"rule refused for {s.id}: {e}"
      failClosed ctx .ruleError s!"sleeve {s.id}: the reference rule refused: {e}"

/-- The decision is newer than the last one acted on. -/
def decisionIsNew (cadence : Cadence) (lastActed : Option NaiveDate) (date : NaiveDate) : Bool :=
  match cadence with
  | .daily => true
  | .onDecision => lastActed.all fun acted => acted < date

def trancheElapsed (cadence : Cadence) (eval : Evaluation) (s : SleeveSpec) : Bool :=
  cadence == .daily || s.trancheSessions ≤ eval.sessionsPastAction

def noteTranche (s : SleeveSpec) (eval : Evaluation) (waiting : Bool) : RunM Unit :=
  if waiting then
    note "decisions"
      s!"sleeve {s.id}: decision {DateText.display eval.decisionDate} is waiting for its tranche ({eval.sessionsPastAction} of {s.trancheSessions} session(s) past the published action session)"
  else pure ()

def decideSleeve (ctx : RunContext) (asOf : NaiveDate) (idx : Nat) (s : SleeveSpec) : StepM Unit := do
  let eval ← evaluateSleeve ctx s asOf
  modifyRec fun r => { r with dataFingerprints := r.dataFingerprints ++ [(s.id, eval.fingerprint)] }
  let cadence := s.kind.cadence
  let acted ← lastActedFor ctx s
  let isNew := decisionIsNew cadence acted eval.decisionDate
  let elapsed := trancheElapsed cadence eval s
  let pending := isNew && elapsed
  noteTranche s eval (isNew && !elapsed)
  recordGate ctx s eval.dataGate
  let decision : SleeveDecision := {
    sleeve := s.id
    kind := s.kind
    cadence
    decisionDate := eval.decisionDate
    newestBarDate := eval.newestBarDate
    lagSessions := eval.lagSessions
    lastActedDecision := acted
    pending
    entry := cadence == .onDecision && acted.isNone
    planned := false
    acted := false }
  modify fun run => { run with
    record := { run.record with decisions := run.record.decisions ++ [decision] }
    pending := if pending then run.pending ++ [(idx, s, eval)] else run.pending }

def decideSleeves (ctx : RunContext) (asOf : NaiveDate) : List (Nat × SleeveSpec) → StepM Unit
  | [] => pure ()
  | (idx, s) :: rest => do
      decideSleeve ctx asOf idx s
      decideSleeves ctx asOf rest

def numbered {α : Type} : Nat → List α → List (Nat × α)
  | _, [] => []
  | i, a :: as => (i, a) :: numbered (i + 1) as

/-- Nothing is pending: an account in good standing stops here, the broker unread. -/
def stopIfInGoodStanding (ctx : RunContext) (summary : String) : StepM Unit := do
  match ← loadState ctx.accountId with
  | .ok (some s) =>
      if s.status = .active ∨ s.status = .shrunk then do
        modify fun run => { run with
          record := { run.record with stateBefore := some s.status }
          state := s }
        nothingPending
      else carryOn
  | .ok none => do
      modify fun run => { run with record := { run.record with stateBefore := some run.state.status } }
      nothingPending
  | .error _ => carryOn
where
  nothingPending : StepM Unit := endWith do
    note "decisions" s!"{summary}; nothing pending: the broker is not read"
    setOutcome .completed RunCode.nothingPending.asStr
      "no sleeve has a pending decision: nothing planned, broker not read"
  -- Halted, flattening or unreadable: the normal steps handle it.
  carryOn : StepM Unit :=
    note "decisions"
      s!"{summary}; the account is not in good standing (or its state is unreadable): continuing through the normal steps"

def stepDecisions (ctx : RunContext) : StepM Unit := do
  decideSleeves ctx (dateNaive ctx.scheduledFor) (numbered 0 ctx.sleeves)
  let run ← get
  let ids := joinComma (run.pending.map fun p => p.2.1.id)
  let summary :=
    s!"{run.pending.length} of {ctx.sleeves.length} sleeve(s) pending: [{ids}]"
  if ctx.sleeves.isEmpty || !run.pending.isEmpty then note "decisions" summary
  else stopIfInGoodStanding ctx summary

end Decisions

/-! ## Steps 4 and 5: the account -/

section Account

variable [UnicodeCase] [DebugText]

def readSnapshot (ctx : RunContext) (step : String) : StepM BrokerSnapshot := do
  let at' ← now
  match ← brokerSnapshot at' with
  | .ok s => pure s
  | .error e => endWith do
      note step s!"broker read failed: {e.display}"
      failClosed ctx .brokerUnreachable s!"the broker account could not be read: {e.display}"

def loadedState (ctx : RunContext) : StepM AccountState := do
  match ← loadState ctx.accountId with
  | .ok (some s) => pure s
  | .ok none => pure (AccountState.new ctx.accountId)
  | .error e =>
      failRun ctx .stateStoreError s!"the account state could not be loaded: {e.display}"

def stepReadAccount (ctx : RunContext) : StepM Unit := do
  let snap ← readSnapshot ctx "read_account"
  modifyRec fun r => { r with preSnapshot := some (summarize snap) }
  note "read_account"
    s!"equity {snap.equity.display} cash {snap.cash.display} holdings {snap.holdings.length}"
  modify fun run => { run with snapshot := some snap }
  let state ← loadedState ctx
  modify fun run => { run with
    state
    record := { run.record with stateBefore := some state.status } }
  match ← knownOrderIds ctx.accountId with
  | .ok ids => modify fun run => { run with knownIds := ids }
  | .error e =>
      failRun ctx .storeUnavailable s!"the run store failed: {e.display}"

/-- The clean-up before a run is the first move of a flatten, with no universe. -/
def cleanupSpec (ctx : RunContext) (known : Std.ExtTreeSet String) : FlattenSpec :=
  { FlattenSpec.new "cleanup" "cleanup" ∅ ⟨∅, ⟨∅, ∅⟩⟩ known with
    maxPolls := ctx.config.maxPolls
    pollSecs := ctx.config.pollSecs }

def cancelStale (ctx : RunContext) (known : Std.ExtTreeSet String) : RunM Flattener := do
  let (_, f) ← viaBroker ((cancelOwnOpenOrders (cleanupSpec ctx known)).run Flattener.new)
  pure f

def stepCleanup (ctx : RunContext) : StepM Unit := do
  if ctx.mode ≠ .live then
    note "cleanup" "skipped: this mode sends no orders and cancels nothing"
  else
    let run ← get
    let hasOwn := run.snapshot.any fun (s : BrokerSnapshot) =>
      s.openOrders.any fun o => isOwnOrder o run.knownIds
    if !hasOwn then note "cleanup" "no stale orders of ours"
    else do
      let f ← cancelStale ctx run.knownIds
      modifyRec fun r => { r with cleanup := f.cancels }
      note "cleanup" s!"cancelled {f.cancels.length} stale order(s), {f.failures.length} failure(s)"
      if f.failures.any fun (x : FlattenFailure) => x.code.isBlocking || x.code == .readFailed then
        failRun ctx .cleanupFailed
          s!"our stale open orders could not be cancelled: {failureList f.failures}"
      else do
        let snap ← readSnapshot ctx "cleanup"
        modify fun run => { run with
          record := { run.record with preSnapshot := some (summarize snap) }
          snapshot := some snap }

end Account

/-! ## Step 6: reconcile before trading -/

section Recon

variable [UnicodeCase] [DebugText]

/-- Put a changed state into the store; an unchanged one is not written. -/
def saveState (ctx : RunContext) (next : AccountState) : StepM Unit := do
  let run ← get
  if next.same run.state then pure ()
  else
    match ← storeState run.state.version next with
    | .ok saved => modify fun run => { run with state := saved }
    | .error (.versionConflict expected actual) =>
        failRun ctx .stateStoreError
          s!"another run changed the account state: {(StoreError.versionConflict expected actual).display}"
    | .error e =>
        failRun ctx .stateStoreError s!"the account state could not be saved: {e.display}"

def pushTransition (t : Option RebalancerRisk.Transition) : RunM Unit :=
  modifyRec fun r => { r with transitions := r.transitions ++ t.toList }

/-- Halt without a flatten: what is true is not known. -/
def haltReconciliation {α : Type} (ctx : RunContext) (detail : String) : StepM α := do
  let at' ← now
  let run ← get
  let halted := run.state.haltNow .reconciliation detail at'
  pushTransition halted.2
  saveState ctx halted.1
  endWith do
    alert ctx .halt .critical s!"HALT_RECONCILIATION: {detail}" "halt"
    setOutcome .halted HaltReason.reconciliation.code detail

def insertAll (ids : Std.ExtTreeSet String) (new : List String) : Std.ExtTreeSet String :=
  new.foldl (fun s id => s.insert id) ids

/-- What an order of an earlier attempt should look like, from the reports under its tag. -/
def expectedOf (e : JournalEntry) (reports : List OrderReport) : ExpectedOrder where
  tag := e.tag
  symbol := (reports.head?.map OrderReport.symbol).getD ""
  side := ((reports.head?.bind OrderReport.side)).getD .buy
  plannedQuantity := (reports.head?.map OrderReport.quantity).getD Dec.zero
  brokerOrderId := e.brokerOrderId.or (reports.head?.map OrderReport.brokerOrderId)
  reports
  anomalies := []
  expectExists := true

/-- The orders of earlier attempts, read back from the broker by tag. -/
def lookUpEntries (ctx : RunContext) : List JournalEntry → StepM (List ExpectedOrder)
  | [] => pure []
  | e :: entries => do
      match ← findByTag e.tag with
      | .error err =>
          failRun ctx .brokerUnreachable
            s!"could not look up {e.tag} from an earlier attempt: {err.display}"
      | .ok reports =>
          modify fun run => { run with
            knownIds := insertAll run.knownIds
              (e.brokerOrderId.toList ++ reports.map OrderReport.brokerOrderId) }
          let rest ← lookUpEntries ctx entries
          pure (expectedOf e reports :: rest)

def inFlightOrders (ctx : RunContext) : StepM (List ExpectedOrder) := do
  match ← inFlight ctx.accountId with
  | .error e =>
      failRun ctx .storeUnavailable s!"the run store failed: {e.display}"
  | .ok entries => lookUpEntries ctx entries

def downgraded (f : ReconFinding) : ReconFinding :=
  match f.code with
  | .foreignOrder | .positionDrift | .balanceDrift => { f with severity := .info }
  | _ => f

/-- In assisted mode a person trades the account. -/
def downgradeForMode (ctx : RunContext) (report : ReconReport) : ReconReport :=
  if ctx.mode = .assisted then
    let findings := report.findings.map downgraded
    { report with findings, verdict := reconVerdictOf findings }
  else report

def lastBaseline (ctx : RunContext) : StepM (Option ReconBaseline) := do
  match ← lastSnapshot ctx.accountId with
  | .ok s => pure (s.map SnapshotSummary.baseline)
  | .error e =>
      failRun ctx .storeUnavailable s!"the run store failed: {e.display}"

/-- The baseline with the fills of earlier attempts, when there is one. -/
def appliedBaseline (ctx : RunContext) (baseline : Option ReconBaseline)
    (orders : List ExpectedOrder) : StepM (Option ReconBaseline) :=
  match baseline with
  | none => pure none
  | some b =>
      match b.afterOrders orders with
      | some next => pure (some next)
      | none => haltReconciliation ctx
          "the fills of an earlier attempt could not be applied to the baseline"

def held {α : Type} : Option α → StepM α
  | some a => pure a
  | none => failure

def pushRecon (stage : String) (report : ReconReport) : RunM Unit :=
  modifyRec fun r => { r with recon := r.recon ++ [⟨stage, report⟩] }

def stepReconPre (ctx : RunContext) : StepM Unit := do
  let last ← lastBaseline ctx
  let orders ← inFlightOrders ctx
  modify fun run => { run with
    appliedIds := insertAll run.appliedIds
      (orders.flatMap fun o => o.reports.map OrderReport.brokerOrderId) }
  let baseline ← appliedBaseline ctx last orders
  let run ← get
  let snap ← held run.snapshot
  let at' ← now
  let report := downgradeForMode ctx
    (reconcile ⟨snap, at', run.knownIds, baseline, orders, ctx.config.tolerances⟩)
  note "reconcile_pre" s!"{report.verdict.asStr}: {joinComma report.codes}"
  pushRecon "pre" report
  if report.verdict = .haltAndAlert then haltReconciliation ctx report.haltSummary
  else
    modify fun run => { run with
      preBaseline := some (baseline.getD (ReconBaseline.fromSnapshot snap)) }

end Recon

/-! ## Step 7: risk -/

section Risk

variable [UnicodeCase] [DebugText] [DateText] [Sha256]

/-- The broker's equity as the risk overlay takes it. -/
def equitySnapshot (s : BrokerSnapshot) : EquitySnapshot := ⟨s.equity, s.takenAt⟩

/-- The account starts the day without an anchor. -/
def dayStartMissing (s : AccountState) (day : NaiveDate) : Bool :=
  s.tradingDay == some day && s.dayStartEquity.isNone

def dayStartMissingMessage (day : NaiveDate) (maxLagSecs : Int) (firstAt : Option Instant) : String :=
  let first := match firstAt with
    | some t => s!" (the first reading of the day was at {InstantText.rfc3339 t})"
    | none => ""
  s!"{dayStartMissingCode}: no reading of {DateText.display day} was taken within {maxLagSecs}s of 00:00 UTC{first}, so the day has no 00:00 UTC value: the one-day loss limit cannot fire today and new buys are paused until the next anchored day; sells and the drawdown ladder still apply"

def flattenSpecFor (ctx : RunContext) (run : Run) (haltedAt : Instant) : FlattenSpec :=
  { FlattenSpec.new ctx.accountId (InstantText.compact haltedAt)
      (((run.policy.bind Policy.limits).map RebalancerCore.Limits.instrumentAllow).getD ∅)
      ctx.venueRules run.knownIds with
    maxRounds := ctx.config.flattenMaxRounds
    maxPolls := ctx.config.maxPolls
    pollSecs := ctx.config.pollSecs }

/-- Run the flatten of the halt in force, record it and move the state on. -/
def finishFlatten (ctx : RunContext) (why : String) : RunM Unit := do
  let run ← get
  match run.state.halt with
  | none => pure ()
  | some halt =>
      let report ← viaBroker (flatten (flattenSpecFor ctx run halt.at') ctx.venue)
      note "flatten" report.summary
      let ok := report.verdict != .haltAndAlert
      modify fun run => { run with
        knownIds := insertAll run.knownIds (report.orders.filterMap FlattenOrder.brokerOrderId)
        record := { run.record with flatten := some report } }
      let run ← get
      let moved := run.state.completeFlatten ok
      pushTransition moved.2
      match ← (saveState ctx moved.1).run with
      | none => pure ()
      | some () =>
          if ok then pure ()
          else
            alert ctx .flattenIncomplete .critical
              s!"halt ({why}): the flatten did not verify flat: {report.summary}" "flatten"

/-- A halted account is refused; a flattening one resumes its flatten and stops. -/
def stepHaltedCheck (ctx : RunContext) : StepM Unit := do
  let run ← get
  match run.state.status with
  | .halted => endWith do
      let why := match run.state.halt with
        | some h => h.reason.code ++ " at " ++ InstantText.display h.at'
        | none => "unknown"
      note "halted_check" s!"halted ({why})"
      alert ctx .stillHalted .warning
        s!"the account is halted ({why}); no run until a person resumes it" "halted"
      setOutcome .refused RunCode.accountHalted.asStr s!"the account is halted ({why})"
  | .flattening => endWith do
      note "halted_check" "flattening: resuming the flatten"
      if ctx.mode = .live then do
        finishFlatten ctx "a flatten was in progress"
        let run ← get
        let code := match run.state.halt with
          | some h => h.reason.code
          | none => HaltReason.manual.code
        setOutcome .halted code "the account is halting: flatten resumed"
      else do
        alert ctx .stillHalted .warning
          "the account is flattening and this run may not send orders" "halted"
        setOutcome .refused RunCode.accountHalted.asStr
          "the account is flattening; only a Live run can finish it"
  | .active | .shrunk => pure ()

/-- The run whose reading started the day outside the window is the one that alerts. -/
def alertAnchorGap (ctx : RunContext) (day : NaiveDate) (message : String) : Option Instant → RunM Unit
  | some _ => alert ctx .runFailed .warning message s!"day_start_missing:{DateText.display day}"
  | none => pure ()

/-- Without an anchor the buys of this run are paused. -/
def pauseBuys (ctx : RunContext) (snap : BrokerSnapshot) (priorDay : Option NaiveDate) : RunM Unit := do
  match ctx.config.dayStart with
  | .firstObservation => pure ()
  | .utcMidnight maxLagSecs =>
      let day := dateNaive snap.takenAt
      let run ← get
      if dayStartMissing run.state day then do
        let firstAt := if priorDay = some day then none else some snap.takenAt
        let message := dayStartMissingMessage day maxLagSecs firstAt
        note "risk" s!"{message}; new buys are paused in this run"
        alertAnchorGap ctx day message firstAt
        modify fun run => { run with buysPaused := some message }
      else pure ()

def stepRisk (ctx : RunContext) : StepM Unit := do
  let run ← get
  let snap ← held run.snapshot
  let riskPolicy ← held run.riskPolicy
  let priorDay := run.state.tradingDay
  let (next, decision, transition) :=
    stepWith run.state (equitySnapshot snap) ctx.tradingDay riskPolicy ctx.config.dayStart
  let codes := joinComma (decision.reasons.map fun (r : RebalancerRisk.RiskReason) => r.code.asStr)
  note "risk" s!"{codes} scale {decision.riskScale.display}"
  modifyRec fun r => { r with risk := some decision }
  pushTransition transition
  saveState ctx next
  if decision.action ≠ .haltFlatten then pauseBuys ctx snap priorDay
  else
    let reasons := " | ".intercalate (decision.reasons.map RebalancerRisk.reasonText)
    let reason := decision.haltReason.getD .equityInvalid
    alert ctx .halt .critical s!"{reason.code}: {reasons}" "halt"
    if ctx.mode = .live then endWith do
      finishFlatten ctx reasons
      setOutcome .halted reason.code reasons
    else do
      -- Nothing may be sent: halted at once, and a person is told to flatten by hand.
      let run ← get
      let halted := run.state.completeFlatten true
      pushTransition halted.2
      saveState ctx halted.1
      endWith do
        alert ctx .flattenIncomplete .critical
          s!"{ctx.mode.asStr} mode: no orders were sent, so nothing was flattened; flatten the account by hand"
          "flatten"
        setOutcome .halted reason.code reasons

end Risk

/-! ## Steps 8 and 9: targets and plan -/

section Plan

variable [UnicodeCase] [DebugText] [Sha256] [FloatFloor]

def markPlanned (idx : Nat) (decisions : List SleeveDecision) : List SleeveDecision :=
  decisions.modify idx fun (d : SleeveDecision) => { d with planned := true }

def targetsOf (ctx : RunContext) : List (Nat × SleeveSpec × Evaluation) → StepM (List SleeveTarget)
  | [] => pure []
  | (idx, s, eval) :: rest => do
      match eval.target s with
      | .error e =>
          failRun ctx .ruleError
            s!"sleeve {s.id}: weight conversion failed: {RebalancerRisk.mathErrorText e}"
      | .ok target =>
          modifyRec fun r => { r with
            targets := r.targets ++ [⟨s.id, eval.decisionDate, eval.fingerprint,
              target.weights.map fun w => (w.symbol, w.weight)⟩]
            decisions := markPlanned idx r.decisions }
          let targets ← targetsOf ctx rest
          pure (target :: targets)

def stepTargets (ctx : RunContext) : StepM (List SleeveTarget) := do
  let run ← get
  let targets ← targetsOf ctx run.pending
  note "targets" s!"{targets.length} of {ctx.sleeves.length} sleeve(s) planned"
  pure targets

def pricedSymbols (targets : List SleeveTarget) (snap : BrokerSnapshot) : List String :=
  (Std.ExtTreeSet.ofList ((targets.flatMap fun t => t.weights.map fun w => toUppercase w.symbol) ++
    snap.holdings.map fun (h : Holding) => toUppercase h.symbol)).toList

def pricesFor (ctx : RunContext) (targets : List SleeveTarget) (snap : BrokerSnapshot) :
    StepM (Std.ExtTreeMap String PricePoint) := do
  let at' ← now
  match ← pricesOf (pricedSymbols targets snap) at' with
  | .ok prices => pure prices
  | .error e =>
      failRun ctx .dataError s!"prices: {e.display}"

/-- The account as the planner and the guard see it. -/
def accountView (snap : BrokerSnapshot) (accountId : String) (halted : Bool) (now : Instant) :
    AccountView where
  accountId
  ccy := snap.ccy
  equity := snap.equity
  cash := snap.cash
  positions := snap.holdings.map fun (h : Holding) =>
    ⟨h.symbol, snap.venue, h.assetClass, h.quantity, h.marketValue⟩
  halted
  now

def planConfig (ctx : RunContext) (riskScale : Dec) (day : DayCounters) (creditSells : Bool) :
    PlanConfig where
  scheduledFor := ctx.scheduledFor
  riskScale
  minTradeAbs := ctx.config.minTradeAbs
  minTradePct := ctx.config.minTradePct
  feeRate := ctx.config.feeRate
  creditSellProceeds := creditSells
  day
  signedSleeves := ∅
  buyingPower := none

def planWith (ctx : RunContext) (targets : List SleeveTarget) (snap : BrokerSnapshot)
    (day : DayCounters) (creditSells : Bool) : StepM OrderPlan := do
  let prices ← pricesFor ctx targets snap
  let run ← get
  let policy ← held run.policy
  let at' ← now
  match RebalancerCore.plan targets (accountView snap ctx.accountId run.state.status.isHalt at') prices
      ctx.venueRules policy (planConfig ctx run.state.effectiveRiskScale day creditSells) with
  | .ok plan => pure plan
  | .error e =>
      failRun ctx .planError s!"planning failed: {e.display}"

def summarizePlan (plan : OrderPlan) : PlanSummary where
  inputsDigest := plan.inputsDigest
  equity := plan.equity
  capitalBase := plan.capitalBase
  riskScale := plan.riskScale
  orders := plan.orders
  denied := plan.denied.map fun d => ⟨d.order, d.reasons.map fun r => r.code.asStr, d.reasons⟩
  skipped := plan.skipped
  lines := plan.lines

def dayCounters (ctx : RunContext) : StepM DayCounters := do
  match ← countersOf ctx.accountId ctx.tradingDay with
  | .ok c => pure c
  | .error e =>
      failRun ctx .storeUnavailable s!"the run store failed: {e.display}"

def stepPlan (ctx : RunContext) (targets : List SleeveTarget) : StepM OrderPlan := do
  let run ← get
  let snap ← held run.snapshot
  let day ← dayCounters ctx
  let plan ← planWith ctx targets snap day true
  modifyRec fun r => { r with plan := some (summarizePlan plan) }
  note "plan"
    s!"{plan.orders.length} order(s), {plan.denied.length} denied, {plan.skipped.length} skipped, scale {plan.riskScale.display}"
  pure plan

end Plan

/-! ## Step 10: execute -/

section Execute

variable [UnicodeCase] [DebugText] [Sha256]

/-- A buy that the pause holds back; a buy that covers a short is never one. -/
def buyIsPaused (run : Run) (o : PlannedOrder) : Bool :=
  run.buysPaused.isSome && o.side == .buy &&
    !((run.snapshot.bind fun (s : BrokerSnapshot) => s.holding o.symbol).any fun (h : Holding) =>
      h.quantity.isNegative)

/-- The outcome of an order, from its last report. -/
def outcomeOf (r : OrderReport) : PlacedOutcome :=
  if r.status = .filled then .filled
  else if r.executedQuantity.isPositive && r.status.isTerminal then .partiallyFilled
  else if r.status.isTerminal then .nothingExecuted
  else .unsettled

def finalize (placed : PlacedOrder) (r : OrderReport) : PlacedOrder :=
  { placed with
    status := some r.status
    executedQuantity := r.executedQuantity
    outcome := if placed.outcome = .adoptedExisting then .adoptedExisting else outcomeOf r
    reports := placed.reports ++ [r] }

def unreadable (placed : PlacedOrder) (e : BrokerError) : PlacedOrder :=
  { placed with
    anomalies := placed.anomalies ++ [e.display]
    outcome := if isAnomaly e then .unsettled else placed.outcome }

/-- Read the order until it has ended, `left` times at most; `false` when it has not. -/
def pollPlaced (ctx : RunContext) (id : String) : (left : Nat) → PlacedOrder →
    RunM (PlacedOrder × Bool)
  | 0, placed => pure (placed, false)
  | left + 1, placed => do
      match ← getOrder id with
      | .error e => pure (unreadable placed e, true)
      | .ok r =>
          if r.status.isTerminal then pure (finalize placed r, true)
          else if left = 0 then pollPlaced ctx id left { placed with status := some r.status }
          else do
            sleepSecs ctx.config.pollSecs
            pollPlaced ctx id left { placed with status := some r.status }

/-- Poll an order to its end; cancel it if it will not end. -/
def settleInto (ctx : RunContext) (placed : PlacedOrder) (id : String) : RunM PlacedOrder := do
  modify fun run => { run with knownIds := run.knownIds.insert id }
  match ← pollPlaced ctx id ctx.config.maxPolls { placed with brokerOrderId := some id } with
  | (placed, true) => pure placed
  | (placed, false) =>
      match ← cancelAndSettle id with
      | .ok (_, r) => pure (finalize placed r)
      | .error e =>
          pure { placed with anomalies := placed.anomalies ++ [e.display], outcome := .unsettled }

def withAnomaly (placed : PlacedOrder) (found : Bool) (text : String) : PlacedOrder :=
  if found then { placed with anomalies := placed.anomalies ++ [text] } else placed

/-- From here the record describes the order that exists, not this attempt's plan for it. -/
def adopt (ctx : RunContext) (placed : PlacedOrder) (first : OrderReport) : RunM PlacedOrder := do
  let id := first.brokerOrderId
  let adopted := { placed with
    outcome := .adoptedExisting
    detail := s!"an order with this tag already existed at the broker ({id}, quantity {first.quantity.display}): adopted, not re-sent; this attempt planned {placed.plannedQuantity.display}"
    plannedQuantity := first.quantity }
  match ← journalOrder ctx.key ⟨placed.tag, some id, Dec.zero⟩ with
  | .ok () => settleInto ctx adopted id
  | .error e => settleInto ctx (withAnomaly adopted true s!"journal: {e.display}") id

def unsent (o : PlannedOrder) (phase : Phase) (detail : String) : PlacedOrder where
  phase
  tag := o.tag
  symbol := o.symbol
  side := o.side
  plannedQuantity := o.quantity
  price := o.price
  outcome := .notSent
  brokerOrderId := none
  status := none
  executedQuantity := Dec.zero
  reports := []
  anomalies := []
  detail

def requestFor (o : PlannedOrder) (rehearsal : Bool) : OrderRequest :=
  { OrderRequest.market o.tag o.symbol o.side o.quantity with
    referencePrice := some o.price
    validateOnly := rehearsal }

def accepted (ctx : RunContext) (o : PlannedOrder) (phase : Phase) (id : String) : RunM PlacedOrder := do
  if phase = .rehearsal then
    settleInto ctx (withAnomaly (unsent o phase "") true
      s!"PAPER_ORDER_EXISTS: a validate-only order came back as accepted ({id})") id
  else
    match ← journalOrder ctx.key ⟨o.tag, some id, o.notional⟩ with
    | .ok () => settleInto ctx (unsent o phase "") id
    | .error e => settleInto ctx (withAnomaly (unsent o phase "") true s!"journal: {e.display}") id

/-- Look the order up by its tag; it is never sent again in this run. -/
def lookUpUnknown (ctx : RunContext) (o : PlannedOrder) (phase : Phase) (reason : String) :
    RunM PlacedOrder := do
  match ← findByTag o.tag with
  | .ok (first :: _) => do
      let placed ← adopt ctx (withAnomaly (unsent o phase "") (phase = .rehearsal)
        "PAPER_ORDER_EXISTS: a validate-only request created an order") first
      pure { placed with detail := s!"outcome was unknown ({reason}); found by tag" }
  | .ok [] => pure { unsent o phase
      s!"outcome was unknown ({reason}) and no order carries the tag: treated as not placed, not retried"
      with outcome := .unknownNotFound }
  | .error e => pure { unsent o phase
      s!"outcome was unknown ({reason}) and the look-up failed ({e.display}): not retried"
      with outcome := .unknownNotFound }

def notSentDetail (e : BrokerError) : String :=
  match e with
  | .marketClosed _ _ => s!"not sent: {marketClosedMarker}: {e.display}"
  | _ => s!"not sent: {e.display}"

def sendOrder (ctx : RunContext) (o : PlannedOrder) (phase : Phase) : RunM PlacedOrder := do
  match ← place (requestFor o (phase = .rehearsal)) with
  | .ok (.accepted id _ _ _) => accepted ctx o phase id
  | .ok (.validatedOnly _ _ _) => pure { unsent o phase "" with outcome := .validated }
  | .ok (.rejected errors _) => pure { unsent o phase (joinCodes errors) with outcome := .rejected }
  | .ok (.unknownOutcome reason _) => lookUpUnknown ctx o phase reason
  | .error e => pure (unsent o phase (notSentDetail e))

/-- The intent is recorded before sending, so that a crash in between is recoverable. -/
def journalAndSend (ctx : RunContext) (o : PlannedOrder) (phase : Phase) : RunM PlacedOrder := do
  if phase = .rehearsal then sendOrder ctx o phase
  else
    match ← journalOrder ctx.key ⟨o.tag, none, o.notional⟩ with
    | .ok () => sendOrder ctx o phase
    | .error e => pure (unsent o phase s!"not sent: the intent could not be journaled ({e.display})")

/-- Never send an order whose tag already exists at the broker. -/
def executeOrder (ctx : RunContext) (o : PlannedOrder) (phase : Phase) : RunM PlacedOrder := do
  let run ← get
  if !run.state.status.mayAddRisk then
    pure (unsent o phase s!"refused: the account is {run.state.status.asStr}")
  else if buyIsPaused run o then
    pure (unsent o phase s!"not sent: {run.buysPaused.getD dayStartMissingCode}")
  else
    match ← findByTag o.tag with
    | .error e => pure (unsent o phase
        s!"not sent: the tag look-up failed ({e.display}), so it cannot be known whether the order exists")
    | .ok (first :: others) =>
        adopt ctx (withAnomaly (unsent o phase "") (phase = .rehearsal)
          s!"PAPER_ORDER_EXISTS: {others.length + 1} order(s) already carry this tag in a paper run") first
    | .ok [] => journalAndSend ctx o phase

def executeAll (ctx : RunContext) (phase : Phase) (orders : List PlannedOrder) : RunM Unit :=
  orders.forM fun o => do
    let p ← executeOrder ctx o phase
    modifyRec fun r => { r with placed := r.placed ++ [p] }

def ofSide (side : Side) (orders : List PlannedOrder) : List PlannedOrder :=
  orders.filter fun (o : PlannedOrder) => o.side == side

/-- Sells first; the buys are sized on what the account really holds afterwards. -/
def executeLive (ctx : RunContext) (targets : List SleeveTarget) (plan : OrderPlan) : StepM Unit := do
  executeAll ctx .sells (ofSide .sell plan.orders)
  if (ofSide .buy plan.orders).isEmpty then note "execute" "live: sells only"
  else do
    let snap ← readSnapshot ctx "execute"
    let day ← dayCounters ctx
    let replan ← planWith ctx targets snap day false
    modifyRec fun r => { r with replan := some (summarizePlan replan) }
    note "execute"
      s!"live: re-read cash {snap.cash.display}, {(ofSide .buy replan.orders).length} buy(s) after the sells"
    executeAll ctx .buys (ofSide .buy replan.orders)

def writeTickets (plan : OrderPlan) : RunM Unit := do
  let run ← get
  let tickets := plan.orders.filter fun (o : PlannedOrder) => !buyIsPaused run o
  let paused := plan.orders.filter fun (o : PlannedOrder) => buyIsPaused run o
  modify fun run => { run with
    record := { run.record with tickets }
    pausedTickets := match run.buysPaused with
      | some why => paused.map fun (o : PlannedOrder) => s!"buy {o.symbol} not ticketed: {why}"
      | none => run.pausedTickets }
  note "execute" s!"assisted: {tickets.length} ticket(s) written, nothing placed"

def stepExecute (ctx : RunContext) (targets : List SleeveTarget) (plan : OrderPlan) : StepM Unit :=
  match ctx.mode with
  | .assisted => writeTickets plan
  | .paper => do
      executeAll ctx .rehearsal plan.orders
      note "execute" s!"paper: {plan.orders.length} order(s) sent validate-only"
  | .live => executeLive ctx targets plan

end Execute

/-! ## Step 11: reconcile after trading -/

section ReconPost

variable [UnicodeCase] [DebugText]

/-- A last look-up for an order whose outcome was unknown. -/
def lookAgain (p : PlacedOrder) : RunM PlacedOrder := do
  if p.outcome ≠ .unknownNotFound then pure p
  else
    match ← findByTag p.tag with
    | .ok (first :: others) => pure { p with
        brokerOrderId := some first.brokerOrderId
        reports := first :: others
        detail := p.detail ++ " | the order appeared after the run's own look-up" }
    | _ => pure p

def lookAllAgain : List PlacedOrder → RunM (List PlacedOrder)
  | [] => pure []
  | p :: ps => do
      let p ← lookAgain p
      let ps ← lookAllAgain ps
      pure (p :: ps)

def wasSent (p : PlacedOrder) : Bool :=
  match p.outcome with
  | .notSent | .rejected | .validated => false
  | _ => true

def expectedFrom (live : Bool) (p : PlacedOrder) : ExpectedOrder where
  tag := p.tag
  symbol := p.symbol
  side := p.side
  plannedQuantity := p.plannedQuantity
  brokerOrderId := p.brokerOrderId
  reports := p.reports
  anomalies := p.anomalies
  expectExists := (live && wasSent p) || !p.anomalies.isEmpty

/-- The orders whose fills are not inside the baseline yet. -/
def unapplied (applied : Std.ExtTreeSet String) (expected : List ExpectedOrder) : List ExpectedOrder :=
  expected.filter fun (e : ExpectedOrder) =>
    e.expectExists && e.reports.all fun r => !applied.contains r.brokerOrderId

def rereadPost (ctx : RunContext) : StepM BrokerSnapshot := do
  let at' ← now
  match ← brokerSnapshot at' with
  | .ok s => pure s
  | .error e => do
      note "reconcile_post" s!"re-read failed: {e.display}"
      haltReconciliation ctx s!"the account could not be re-read after trading: {e.display}"

def expectedAfter (ctx : RunContext) (base : ReconBaseline) (orders : List ExpectedOrder) :
    StepM ReconBaseline :=
  if ctx.mode = .live then
    match base.afterOrders orders with
    | some b => pure b
    | none => haltReconciliation ctx "the fills of this run could not be applied to the baseline"
  else pure base

def reconcilePost (ctx : RunContext) (expected : List ExpectedOrder) : StepM Unit := do
  let snap ← rereadPost ctx
  modifyRec fun r => { r with postSnapshot := some (summarize snap) }
  let run ← get
  let base ← held run.preBaseline
  let after ← expectedAfter ctx base (unapplied run.appliedIds expected)
  let at' ← now
  let report := reconcile ⟨snap, at', run.knownIds, some after, expected, ctx.config.tolerances⟩
  note "reconcile_post" s!"{report.verdict.asStr}: {joinComma report.codes}"
  pushRecon "post" report
  if report.verdict = .haltAndAlert then haltReconciliation ctx report.haltSummary
  else modify fun run => { run with snapshot := some snap }

def stepReconPost (ctx : RunContext) : StepM Unit := do
  if ctx.mode = .assisted then note "reconcile_post" "skipped: nothing was placed"
  else
    let run ← get
    -- The orders are taken out of the record while they are looked up once more.
    modifyRec fun r => { r with placed := [] }
    let placed ← lookAllAgain run.record.placed
    modifyRec fun r => { r with placed }
    let unsettled := placed.filter fun (p : PlacedOrder) => p.outcome == .unsettled
    if !unsettled.isEmpty then do
      let tags := ", ".intercalate (unsettled.map PlacedOrder.tag)
      note "reconcile_post" s!"orders still live or unreadable after the run: {tags}"
      haltReconciliation ctx s!"orders still live or unreadable after the run: {tags}"
    else reconcilePost ctx (placed.map (expectedFrom (ctx.mode = .live)))

end ReconPost

/-! ## Step 12: did the run act on its decisions? -/

section Assess

variable [UnicodeCase] [DebugText]

def materialText : SkipReason → Option String
  | .belowMinTradeAbs _ _ | .belowMinTradePct _ _ | .cutBelowVenueMinimum | .noCashAvailable => none
  | .venueRefused .roundsToZero | .venueRefused (.belowMinQuantity _)
  | .venueRefused (.belowMinCost _) => none
  | .venueRefused (.unknownInstrument s) => some s!"VenueRefused(UnknownInstrument({DebugText.quoted s}))"
  | .venueRefused (.notTradable s) => some s!"VenueRefused(NotTradable({DebugText.quoted s}))"
  | .venueRefused (.other s) => some s!"VenueRefused(Other({DebugText.quoted s}))"
  | .noPrice => some "NoPrice"
  | .noVenueRules => some "NoVenueRules"
  | .shortPositionHeld => some "ShortPositionHeld"
  | .flipCloseLegNotPlaced => some "FlipCloseLegNotPlaced"

def isSell (plan : PlanSummary) (symbol : String) : Bool :=
  plan.lines.any fun (l : RebalancerCore.InstrumentLine) =>
    eqIgnoreAsciiCase l.symbol symbol && decide (l.targetNotional < l.currentNotional)

/-- A way the orders of the plan were not carried out; `true` when the market was closed. -/
abbrev Gap := String × Bool

def deniedGap (d : DeniedSummary) : Gap :=
  (s!"guard denied {d.order.side.asStr} {d.order.symbol} ({joinComma d.codes})", false)

def skipGap (s : SkippedTrade) : List Gap :=
  match materialText s.reason with
  | some text => [(s!"planner skipped {s.symbol} ({text})", false)]
  | none => []

def placedGap (p : PlacedOrder) : List Gap :=
  if p.carried then []
  else [(s!"{p.side.asStr} {p.symbol} {p.outcome.debug}: {p.detail}", p.refusedMarketClosed)]

/-- The gaps of the plans: sells from the first, buys from the second when there is one. -/
def planGaps (plan : PlanSummary) : Option PlanSummary → List Gap
  | none => plan.denied.map deniedGap ++ plan.skipped.flatMap skipGap
  | some replan =>
      ((plan.denied.filter fun (d : DeniedSummary) => d.order.side == .sell).map deniedGap ++
        (replan.denied.filter fun (d : DeniedSummary) => d.order.side == .buy).map deniedGap) ++
      ((plan.skipped.filter fun (s : SkippedTrade) => isSell plan s.symbol).flatMap skipGap ++
        (replan.skipped.filter fun (s : SkippedTrade) => !isSell plan s.symbol).flatMap skipGap)

def shortfalls (run : Run) : List Gap :=
  match run.record.plan with
  | none => []
  | some plan =>
      planGaps plan run.record.replan ++ run.pausedTickets.map (fun t => (t, false)) ++
        run.record.placed.flatMap placedGap

def stepAssess (ctx : RunContext) : RunM Unit := do
  let run ← get
  let gaps := shortfalls run
  if gaps.isEmpty then do
    modify fun run => { run with carried := true }
    setOutcome .completed RunCode.completed.asStr s!"{ctx.mode.asStr} run completed"
  else
    let list := " | ".intercalate (gaps.map Prod.fst)
    let partWay :=
      if run.record.placed.any PlacedOrder.carried then
        " (other orders of this run WERE carried out, so the account is part-way to its target)"
      else ""
    let message :=
      s!"{gaps.length} of the plan's orders were not carried out{partWay}: the decision is NOT counted as acted and is planned again on the next run: {list}"
    note "assess" message
    alert ctx .decisionNotActed (if gaps.all Prod.snd then .warning else .critical) message
      "decision_not_acted"
    setOutcome .completed RunCode.decisionNotActed.asStr message

end Assess

/-! ## The whole run -/

section Whole

variable [UnicodeCase] [DebugText] [DateText] [Sha256] [FloatFloor]

def execute (ctx : RunContext) : StepM Unit := do
  stepVenuePolicy ctx
  stepKillFlag ctx
  stepMandate ctx
  stepDecisions ctx
  stepReadAccount ctx
  stepHaltedCheck ctx
  stepCleanup ctx
  stepReconPre ctx
  stepRisk ctx
  let targets ← stepTargets ctx
  let plan ← stepPlan ctx targets
  stepExecute ctx targets plan
  stepReconPost ctx
  stepAssess ctx

/-- A planned decision counts as acted only in a run that completed and carried out
    every order. -/
def markActed (completed carried : Bool) (d : SleeveDecision) : SleeveDecision :=
  { d with acted := d.planned && completed && carried }

def finish (ctx : RunContext) : RunM RunRecord := do
  let at' ← now
  modify fun run => { run with
    record := { run.record with
      stateAfter := some run.state.status
      finishedAt := at'
      decisions := run.record.decisions.map
        (markActed (run.record.outcome.kind == .completed) run.carried) } }
  let run ← get
  match ← finishRecord run.record with
  | .ok () => pure run.record
  | .error e => do
      let message := s!"the run record could not be written: {e.display}"
      modifyRec fun r => { r with steps := r.steps ++ [⟨"finish", r.finishedAt, message⟩] }
      alert ctx .runFailed .critical message "failed:record"
      let run ← get
      pure run.record

def started (ctx : RunContext) (attempt : Nat) : RunM RunRecord := do
  modifyRec fun r => { r with attempt }
  note "acquire_run_key" s!"attempt {attempt}"
  let _ ← (execute ctx).run
  finish ctx

/-- Another attempt owns the key, or the store failed: nothing is written. -/
def refusedKey (outcome : RunOutcome) : RunM RunRecord := do
  let at' ← now
  modifyRec fun r => { r with outcome, finishedAt := at' }
  let run ← get
  pure run.record

def acquire (ctx : RunContext) (startedAt : Instant) : RunM RunRecord := do
  match ← beginKey ctx.key ctx.tradingDay startedAt ctx.config.leaseSecs with
  | .ok (.started attempt) => started ctx attempt
  | .ok (.alreadyDone first) => pure first
  | .ok (.busy since) => do
      note "acquire_run_key"
        s!"another attempt started at {InstantText.display since} still holds the lease"
      refusedKey ⟨.refused, RunCode.busy.asStr, "the run key is in progress"⟩
  | .error e => do
      note "acquire_run_key" s!"run store failed: {e.display}"
      alert ctx .runFailed .critical s!"the run store is unavailable: {e.display}; nothing was traded"
        "failed:store"
      refusedKey ⟨.failedClosed, RunCode.storeUnavailable.asStr, e.display⟩

end Whole

end Texts

end Run

def runOnce [InstantText] [UnicodeCase] [DebugText] [DateText] [Sha256] [FloatFloor] (ctx : RunContext) :
    Prog Asked Asked.Answer RunRecord :=
  .call ⟨Run.init ctx 0, .broker .now⟩ fun startedAt =>
    (Run.acquire ctx startedAt).run' (Run.init ctx startedAt)

/-! ## A small fund

One account, one sleeve, one instrument: the runs that later modules look at in
full are runs of this fund.
-/

namespace Fund

open RebalancerCore (VenueRules InstrumentRules)
open RebalancerCore.Amount (cents)

def trend : SleeveSpec where
  id := "trend"
  kind := .cryptoTrend
  share := (cents 100)
  venue := "kraken"
  assetClass := "crypto"
  quote := "USD"
  instruments := ["BTC"]
  trancheSessions := 0
  lookback := none

def halfBitcoin : Evaluation where
  kind := .cryptoTrend
  fingerprint := "bars"
  decisionDate := 0
  newestBarDate := 0
  lagSessions := 0
  rule := .crypto [⟨"BTC", ⟨.finite false [0] [5] RebalancerCore.DecMath.zeroDigit_ne, "0.5"⟩⟩]
  dataGate := none

def mandate : Mandate where
  hash := "0"
  compiled := .valid
    { ccy := "USD"
      allocated := cents 100000
      minCashReserve := cents 0
      instrumentAllow := .ofList ["BTC/USD"]
      instrumentDeny := ∅
      venues := .ofList ["kraken"]
      assetClasses := .ofList ["crypto"]
      shorting := false
      derivatives := false
      leverageMaxGross := cents 100
      maxPosition := cents 100
      maxAssetClass := ∅
      maxGross := cents 100
      maxNet := cents 100
      maxOrderNotional := cents 100000
      maxOrdersPerDay := 10
      maxTurnoverPerDay := cents 200
      classes_lower := RebalancerCore.noClasses_lower }
  riskPolicy := fun recoveryFraction => RebalancerRisk.RiskPolicy.new (cents 100) [⟨cents 50, .haltFlatten⟩] recoveryFraction

def context (mode : ExecutionMode) : RunContext where
  accountId := "fund"
  scheduledFor := 0
  tradingDay := 0
  mode
  sleeves := [trend]
  mandate := some mandate
  envelope := some ⟨1, .active, 0, 31536000000000000⟩
  venue := "kraken"
  venueRules :=
    { byVenue := .ofList [("kraken", VenueRules.anySize)]
      instruments := { InstrumentRules.empty with
        rules := InstrumentRules.empty.rules.insert ("kraken", "BTC/USD") ⟨.allowed, none, none⟩ } }
  config :=
    { minTradeAbs := Dec.zero
      minTradePct := Dec.zero
      feeRate := Dec.zero
      tolerances := .default
      recoveryFraction := (cents 100)
      maxPriceAgeSecs := ⟨300, RebalancerCore.fiveMinutes_fits⟩
      leaseSecs := 600
      maxPolls := 1
      pollSecs := 1
      flattenMaxRounds := 3
      deployment := none
      venuePolicy := .unrestricted
      dayStart := .firstObservation }

def inCash : BrokerSnapshot where
  venue := "kraken"
  ccy := "USD"
  equity := cents 100000
  cash := cents 100000
  holdings := []
  unvalued := []
  openOrders := []
  takenAt := 0
  derivedEquity := cents 100000

def quotes : Std.ExtTreeMap String PricePoint :=
  (∅ : Std.ExtTreeMap String PricePoint).insert "BTC/USD" ⟨cents 10000, 0⟩

/-- A first run on an account that stays as it is; orders are only checked. -/
def calm : (op : RunOp) → op.Answer
  | .broker .now => (0 : Int)
  | .broker (.sleepSecs _) => ()
  | .broker (.snapshot _) => .ok inCash
  | .broker (.place req) => .ok (.validatedOnly none ⟨req.symbol, req.side, cents 500, none, 0, true⟩ [])
  | .broker (.getOrder _) => .error (.transport .timeout)
  | .broker .openOrders => .ok []
  | .broker (.findByTag _) => .ok []
  | .broker (.cancelAndSettle _) => .error (.transport .timeout)
  | .environment => .paper
  | .killFlag => .ok false
  | .notify _ => .ok ()
  | .loadState _ => .ok none
  | .saveState _ next => .ok next
  | .begin _ _ _ _ => .ok (.started 1)
  | .journalOrder _ _ => .ok ()
  | .inFlight _ => .ok []
  | .finish _ => .ok ()
  | .lastSnapshot _ => .ok none
  | .knownOrderIds _ => .ok ∅
  | .dayCounters _ _ => .ok ⟨0, Dec.zero⟩
  | .lastActedDecision _ _ => .ok none
  | .evaluate _ _ => .ok halfBitcoin
  | .prices _ _ => .ok quotes

@[reducible] def dayText : DateText := ⟨fun _ => "1970-01-01"⟩

@[reducible] def plainQuotes : DebugText := ⟨fun s => "\"" ++ s ++ "\""⟩

/-- No weight of the fund has more than 12 decimals. -/
@[reducible] def sameFloat : FloatFloor := ⟨id⟩

/-- The inputs of a plan of the fund, made at `t`. -/
def planInputs (t credit : String) : String :=
  s!"rb-plan-digest-v1\naccount|fund|USD|1000|1000|false|{t}\nprice|BTC/USD|100|{t}\ntarget|trend|1|kraken|crypto|BTC/USD=0.5\npolicy|0|Some((1, Active, \"1970-01-01T00:00:00+00:00\", \"1971-01-01T00:00:00+00:00\"))|300\ncfg|1970-01-01T00:00:00+00:00|1|0|0|0|{credit}|0|0\nrules|BTC/USD"

/-- The hashes of the tag of the fund's buy, and of the inputs of its plans. -/
@[reducible] def planHash : Sha256 where
  hexDigest text :=
    if text = "rebalance:fund:19700101T000000Z:trend:BTC/USD:buy" then
      "662843c7c6af61aa215b071d8c14bd881ebd5c76130aa504125dd7c6ca24b1c2"
    else if text = planInputs "1970-01-01T00:00:00+00:00" "true" then
      "2d7576f4fc5502da6d8d56eb7ae0a6500d612053f67e55d59315f9f2ff24f6ac"
    else if text = planInputs "1970-01-01T00:00:00+00:00" "false" then
      "64d285aa232616213ec41a4d30efd26d5bc8f0fde0ac929234bd98cbc47c8354"
    else if text = planInputs "1970-01-01T00:10:01+00:00" "true" then
      "7a4d0a5d9e6685d0392cd08a065701715992854c102bfbd9be82bcb6b7cc1749"
    else "297b1245ea14eb60f77bde31742e460d2a17f54b60b223d8defa13589d60200b"

end Fund

end RebalancerRun
