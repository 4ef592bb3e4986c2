import SignalEngine.RebalancerRun.Pipeline

/-! # The continuous monitor

`monitorOnce`: one reading of one account between two runs. It takes the risk step
of the pipeline on the broker's equity, and flattens an account that must halt.
-/

open BrokerAdapters Interaction Text

namespace RebalancerRun

open RebalancerCore (Instant InstantText Sha256 VenueRuleBook PolicyBody Limits)
open RebalancerRisk (AccountState AccountStatus DayStartRule HaltReason HaltRecord NaiveDate
  RiskDecision RiskPolicy StoreError Transition dateNaive stepWith)

inductive MonitorCode where
  | observed
  | halted
  | flattenResumed
  | accountHalted
  | killFlagSet
  | killFlagUnreadable
  | venueNotPaper
  | mandateInvalid
  | brokerUnreachable
  | stateStoreError
  | runStoreUnavailable
  deriving DecidableEq

/-- What one reading of one account did. -/
structure MonitorReport where
  accountId : String
  at' : Instant
  code : MonitorCode
  message : String
  equity : Option Dec
  /-- The equity log append failed. -/
  logError : Option String
  decision : Option RiskDecision
  statusBefore : Option AccountStatus
  statusAfter : Option AccountStatus
  transitions : List Transition
  flatten : Option FlattenReport
  alerts : List Alert
  alertDeliveryFailures : List String
  reads : Nat
  dayStartMissing : Bool

def MonitorReport.new (accountId : String) (at' : Instant) : MonitorReport :=
  ⟨accountId, at', .observed, "", none, none, none, none, none, [], none, [], [], 0, false⟩

def MONITOR_SNAPSHOT_SOURCE : String := "monitor"

structure EquityReading where
  accountId : String
  takenAt : Instant
  equity : Dec
  cash : Dec
  derivedEquity : Dec
  source : String
  deriving DecidableEq

structure MonitorContext where
  accountId : String
  mode : ExecutionMode
  mandate : Mandate
  /-- The venue name of the broker. -/
  venue : String
  venueRules : VenueRuleBook
  config : RunConfig

inductive MonitorOp where
  | broker (op : BrokerOp)
  /-- A call that `flatten` makes for this specification. -/
  | flatten (spec : FlattenSpec) (op : BrokerOp)
  | environment
  | killFlag
  | notify (alert : Alert)
  | loadState (accountId : String)
  | saveState (expected : Nat) (next : AccountState)
  | knownOrderIds (accountId : String)
  | appendReading (reading : EquityReading)

abbrev MonitorOp.Answer : MonitorOp → Type
  | broker op => op.Answer
  | flatten _ op => op.Answer
  | environment => VenueEnvironment
  | killFlag => Except String Bool
  | notify _ => Except String Unit
  | loadState _ => Except StoreError (Option AccountState)
  | saveState _ _ => Except StoreError AccountState
  | knownOrderIds _ => Except RunStoreError (Std.ExtTreeSet String)
  | appendReading _ => Except String Unit

structure Monitor where
  report : MonitorReport
  state : AccountState

abbrev MonitorM := StateT Monitor (Prog MonitorOp MonitorOp.Answer)

namespace Monitor

def now : MonitorM Instant := ask (MonitorOp.broker .now)
def brokerSnapshot (now : Instant) : MonitorM (Except SnapshotError BrokerSnapshot) :=
  ask (MonitorOp.broker (.snapshot now))
def environment : MonitorM VenueEnvironment := ask MonitorOp.environment
def killFlag : MonitorM (Except String Bool) := ask MonitorOp.killFlag
def notify (alert : Alert) : MonitorM (Except String Unit) := ask (MonitorOp.notify alert)
def loadState (accountId : String) : MonitorM (Except StoreError (Option AccountState)) :=
  ask (MonitorOp.loadState accountId)
def storeState (expected : Nat) (next : AccountState) : MonitorM (Except StoreError AccountState) :=
  ask (MonitorOp.saveState expected next)
def knownOrderIds (accountId : String) : MonitorM (Except RunStoreError (Std.ExtTreeSet String)) :=
  ask (MonitorOp.knownOrderIds accountId)
def appendReading (reading : EquityReading) : MonitorM (Except String Unit) :=
  ask (MonitorOp.appendReading reading)

/-- A broker program of a flatten, made by the monitor. -/
def flattenProg {α : Type} (spec : FlattenSpec) (m : Monitor) :
    Prog BrokerOp BrokerOp.Answer α → Prog MonitorOp MonitorOp.Answer (α × Monitor)
  | .done value => .done (value, m)
  | .call op next => .call (.flatten spec op) fun answer => flattenProg spec m (next answer)

def modifyReport (f : MonitorReport → MonitorReport) : MonitorM Unit :=
  modify fun m => { m with report := f m.report }

def done (code : MonitorCode) (message : String) : MonitorM Unit :=
  modifyReport fun r => { r with code, message }

def pushTransition (t : Option Transition) : MonitorM Unit :=
  modifyReport fun r => { r with transitions := r.transitions ++ t.toList }

/-- Put a changed state into the store; an unchanged one is not written. -/
def saveState (next : AccountState) : MonitorM (Except StoreError Unit) := do
  let m ← get
  if next.same m.state then pure (.ok ())
  else
    match ← storeState m.state.version next with
    | .ok saved => do
        modify fun m => { m with state := saved }
        pure (.ok ())
    | .error e => pure (.error e)

def universeOf : PolicyBody → Std.ExtTreeSet String
  | .valid limits => limits.instrumentAllow
  | .invalid _ => ∅

def logReading (ctx : MonitorContext) (snap : BrokerSnapshot) : MonitorM Unit := do
  let reading : EquityReading :=
    ⟨ctx.accountId, snap.takenAt, snap.equity, snap.cash, snap.derivedEquity, MONITOR_SNAPSHOT_SOURCE⟩
  match ← appendReading reading with
  | .ok () => pure ()
  | .error e => modifyReport fun r => { r with logError := some e }

section Texts

variable [InstantText]

/-- A reading has no run record; its key says so. -/
def monitorKey (accountId : String) (at' : Instant) : String :=
  accountId ++ "|" ++ InstantText.rfc3339 at' ++ "|monitor"

def alert (ctx : MonitorContext) (code : AlertCode) (severity : AlertSeverity) (message dedupe : String) :
    MonitorM Unit := do
  let at' ← now
  let m ← get
  let a : Alert :=
    ⟨code, severity, ctx.accountId, monitorKey ctx.accountId m.report.at', message,
      s!"{ctx.accountId}:{dedupe}", at'⟩
  match ← notify a with
  | .ok () => modifyReport fun r => { r with alerts := r.alerts ++ [a] }
  | .error e =>
      modifyReport fun r => { r with
        alertDeliveryFailures := r.alertDeliveryFailures ++ [s!"{a.code.asStr}: {e}"]
        alerts := r.alerts ++ [a] }

def flattenSpecFor (ctx : MonitorContext) (knownIds : Std.ExtTreeSet String) (haltedAt : Instant) :
    FlattenSpec :=
  { FlattenSpec.new ctx.accountId (InstantText.compact haltedAt) (universeOf ctx.mandate.compiled)
      ctx.venueRules knownIds with
    maxRounds := ctx.config.flattenMaxRounds
    maxPolls := ctx.config.maxPolls
    pollSecs := ctx.config.pollSecs }

section Risk

variable [UnicodeCase] [DebugText] [DateText] [Sha256]

def recordFlatten (ctx : MonitorContext) (why : String) (report : FlattenReport) : MonitorM Unit := do
  let ok := report.verdict != .haltAndAlert
  modifyReport fun r => { r with flatten := some report }
  let m ← get
  let moved := m.state.completeFlatten ok
  pushTransition moved.2
  match ← saveState moved.1 with
  | .error e =>
      alert ctx .flattenIncomplete .critical
        s!"halt ({why}): the flatten ran ({report.summary}) but its result could not be saved: {e.display}"
        "flatten"
  | .ok () =>
      if ok then pure ()
      else
        alert ctx .flattenIncomplete .critical
          s!"halt ({why}): the flatten did not verify flat: {report.summary}" "flatten"

/-- Run the flatten of the halt in force; `false` when it could not start. -/
def finishFlatten (ctx : MonitorContext) (why : String) : MonitorM Bool := do
  let m ← get
  match m.state.halt with
  | none => pure true
  | some halt =>
      match ← knownOrderIds ctx.accountId with
      | .error e => do
          alert ctx .flattenIncomplete .critical
            s!"halt ({why}): the flatten could not start because our own order ids could not be read ({e.display}); it is retried on the next reading or run"
            "flatten"
          pure false
      | .ok knownIds => do
          let spec := flattenSpecFor ctx knownIds halt.at'
          let report ← (fun m => flattenProg spec m (RebalancerRun.flatten spec ctx.venue) : MonitorM FlattenReport)
          recordFlatten ctx why report
          pure true

/-- No halt: the reading may still have found a day without an anchor. -/
def observed (ctx : MonitorContext) (snap : BrokerSnapshot) (priorDay : Option NaiveDate) : MonitorM Unit := do
  match ctx.config.dayStart with
  | .firstObservation => done .observed ""
  | .utcMidnight maxLagSecs =>
      let day := dateNaive snap.takenAt
      let m ← get
      if Run.dayStartMissing m.state day then do
        modifyReport fun r => { r with dayStartMissing := true }
        -- Only the reading that started the day alerts.
        let firstAt := if priorDay = some day then none else some snap.takenAt
        let message := Run.dayStartMissingMessage day maxLagSecs firstAt
        match firstAt with
        | some _ => alert ctx .runFailed .warning message s!"day_start_missing:{DateText.display day}"
        | none => pure ()
        done .observed message
      else done .observed ""

/-- The halt is saved: alert, then flatten, or halt and tell a person. -/
def halted (ctx : MonitorContext) (decision : RiskDecision) : MonitorM Unit := do
  let reasons := " | ".intercalate (decision.reasons.map RebalancerRisk.reasonText)
  let reason := decision.haltReason.getD .equityInvalid
  alert ctx .halt .critical
    s!"{reason.code}: {reasons} (found by the continuous monitor, no decision was pending)" "halt"
  if ctx.mode = .live then
    match ← finishFlatten ctx reasons with
    | true => done .halted reason.code
    | false =>
        done .runStoreUnavailable
          s!"{reason.code}: halted, but the flatten could not start; it is retried on the next reading or run"
  else do
    let m ← get
    let moved := m.state.completeFlatten true
    pushTransition moved.2
    match ← saveState moved.1 with
    | .error e =>
        done .stateStoreError s!"{reason.code}: the halt could not be completed: {e.display}"
    | .ok () => do
        alert ctx .flattenIncomplete .critical
          s!"{ctx.mode.asStr} mode: no orders were sent, so nothing was flattened; flatten the account by hand"
          "flatten"
        done .halted reason.code

/-- Save what the risk step made of the account, and act on a halt once it is saved. -/
def settle (ctx : MonitorContext) (snap : BrokerSnapshot) (priorDay : Option NaiveDate)
    (next : AccountState) (decision : RiskDecision) : MonitorM Unit := do
  match ← saveState next with
  | .error e => do
      -- A halt that could not be recorded: nothing may be sent on it.
      if decision.action = .haltFlatten then
        alert ctx .runFailed .critical
          s!"MONITOR_STATE_STORE_ERROR: the continuous monitor found {(decision.haltReason.getD .equityInvalid).code} but could not save the halt ({e.display}); nothing was sent"
          "monitor:halt_not_saved"
      done .stateStoreError s!"the account state could not be saved: {e.display}"
  | .ok () => if decision.action ≠ .haltFlatten then observed ctx snap priorDay else halted ctx decision

def risk (ctx : MonitorContext) (riskPolicy : RiskPolicy) (at' : Instant) (snap : BrokerSnapshot) :
    MonitorM Unit := do
  let m ← get
  let (next, decision, transition) :=
    stepWith m.state (Run.equitySnapshot snap) (dateNaive at') riskPolicy ctx.config.dayStart
  modifyReport fun r => { r with decision := some decision }
  pushTransition transition
  settle ctx snap m.state.tradingDay next decision

/-- A halt is sticky; a flattening account has its flatten retried. -/
def afterReading (ctx : MonitorContext) (riskPolicy : RiskPolicy) (at' : Instant) (snap : BrokerSnapshot) :
    MonitorM Unit := do
  modifyReport fun r => { r with equity := some snap.equity }
  logReading ctx snap
  let m ← get
  match m.state.status with
  | .halted =>
      let why := match m.state.halt with
        | some h => h.reason.code ++ " at " ++ InstantText.display h.at'
        | none => "unknown"
      done .accountHalted s!"the account is halted ({why}): read and logged only"
  | .flattening =>
      if ctx.mode ≠ .live then
        done .accountHalted
          s!"the account is flattening and {ctx.mode.asStr} mode sends nothing: read and logged only"
      else do
        let started ← finishFlatten ctx "a flatten was in progress"
        let m ← get
        let message := match m.report.flatten with
          | some f => f.summary
          | none => "the flatten could not start"
        done (if started then .flattenResumed else .runStoreUnavailable) message
  | .active | .shrunk => risk ctx riskPolicy at' snap

/-- One broker read; nothing is invented when it fails. -/
def readAccount (ctx : MonitorContext) (riskPolicy : RiskPolicy) : MonitorM Unit := do
  modify fun m => { m with report := { m.report with statusBefore := some m.state.status } }
  let at' ← now
  modifyReport fun r => { r with reads := r.reads + 1 }
  match ← brokerSnapshot at' with
  | .ok snap => afterReading ctx riskPolicy at' snap
  | .error e =>
      done .brokerUnreachable
        s!"the broker account could not be read: {e.display}; nothing was evaluated or saved"

def loadAndRead (ctx : MonitorContext) (riskPolicy : RiskPolicy) : MonitorM Unit := do
  match ← loadState ctx.accountId with
  | .ok loaded => do
      modify fun m => { m with state := loaded.getD (AccountState.new ctx.accountId) }
      readAccount ctx riskPolicy
  | .error e => done .stateStoreError s!"the account state could not be loaded: {e.display}"

def afterVenue (ctx : MonitorContext) : MonitorM Unit := do
  match ← killFlag with
  | .ok false =>
      match ctx.mandate.riskPolicy ctx.config.recoveryFraction with
      | .ok riskPolicy => loadAndRead ctx riskPolicy
      | .error e => done .mandateInvalid e
  | .ok true => done .killFlagSet "the kill flag is set: nothing read, nothing sent"
  | .error e => done .killFlagUnreadable s!"the kill flag could not be read: {e}"

/-- Under the paper-only policy any other connection is refused before it is read. -/
def execute (ctx : MonitorContext) : MonitorM Unit := do
  match ctx.config.venuePolicy with
  | .unrestricted => afterVenue ctx
  | .paperOnly =>
      match ← environment with
      | .paper => afterVenue ctx
      | _ => do
          let env ← environment
          done .venueNotPaper
            s!"the paper-only policy is in force and the {ctx.venue} broker connection reports {env.asStr}: not read"

end Risk

end Texts

end Monitor

end RebalancerRun
