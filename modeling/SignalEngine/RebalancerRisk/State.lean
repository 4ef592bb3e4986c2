import SignalEngine.RebalancerCore.DecMath

/-! # The account risk state machine

`AccountState` with every transition the crate offers, and the plain record a
store writes and reads back. Every transition returns a new state.
-/

open BrokerAdapters RebalancerCore

namespace RebalancerRisk

/-- Nanoseconds since the epoch, UTC. -/
abbrev Timestamp := Int

/-- Days since the epoch. -/
abbrev NaiveDate := Int

def nanosPerSecond : Int := 1000000000

def nanosPerDay : Int := 86400 * nanosPerSecond

def dateNaive (at' : Timestamp) : NaiveDate := at' / nanosPerDay

inductive AccountStatus where
  /-- Trading normally at full size. -/
  | active
  /-- A shrink rung is in force. -/
  | shrunk
  /-- A halt is in force and the account is being liquidated. -/
  | flattening
  /-- A halt is in force and the account is flat, or the halt needs no flatten. -/
  | halted
  deriving Repr, DecidableEq

namespace AccountStatus

def asStr : AccountStatus → String
  | active => "active"
  | shrunk => "shrunk"
  | flattening => "flattening"
  | halted => "halted"

def mayAddRisk : AccountStatus → Bool
  | active | shrunk => true
  | flattening | halted => false

def isHalt : AccountStatus → Bool
  | flattening | halted => true
  | active | shrunk => false

end AccountStatus

inductive HaltReason where
  | dailyLoss
  | drawdownLadder
  | reconciliation
  | manual
  | equityInvalid
  deriving Repr, DecidableEq

def HaltReason.code : HaltReason → String
  | dailyLoss => "HALT_DAILY_LOSS"
  | drawdownLadder => "HALT_DRAWDOWN_LADDER"
  | reconciliation => "HALT_RECONCILIATION"
  | manual => "HALT_MANUAL"
  | equityInvalid => "HALT_EQUITY_INVALID"

/-- How the reference of the daily-loss limit is anchored. -/
inductive DayStartRule where
  | firstObservation
  | utcMidnight (maxLagSecs : Int)
  deriving DecidableEq

structure EquitySnapshot where
  equity : Dec
  at' : Timestamp
  deriving DecidableEq

structure HaltRecord where
  reason : HaltReason
  at' : Timestamp
  detail : String
  equityAtHalt : Option Dec
  hwmAtHalt : Option Dec
  failedFlattenAttempts : Nat
  deriving DecidableEq

structure ResumeRecord where
  approver : String
  at' : Timestamp
  note : String
  equityAtResume : Dec
  hwmBefore : Option Dec
  haltReason : HaltReason
  haltedAt : Timestamp
  deriving DecidableEq

structure Transition where
  source : AccountStatus
  target : AccountStatus
  code : String
  deriving DecidableEq

inductive ResumeError where
  | notHalted (status : String)
  | flattenIncomplete
  | equityInvalid (equity : Dec)
  deriving DecidableEq

/-- A person's approval to resume one halted account. -/
structure HumanApproval where
  approver : String
  at' : Timestamp
  note : String
  deriving DecidableEq

structure AccountState where
  accountId : String
  version : Nat
  status : AccountStatus
  riskScale : Dec
  shrinkRung : Option Nat
  hwm : Option Dec
  dayStartEquity : Option Dec
  tradingDay : Option NaiveDate
  lastEquity : Option Dec
  lastEquityAt : Option Timestamp
  halt : Option HaltRecord
  resumes : List ResumeRecord
  deriving DecidableEq

/-- The plain data a persistence layer maps rows to and back. -/
structure AccountStateRecord where
  accountId : String
  version : Nat
  status : AccountStatus
  riskScale : Dec
  shrinkRung : Option Nat
  hwm : Option Dec
  dayStartEquity : Option Dec
  tradingDay : Option NaiveDate
  lastEquity : Option Dec
  lastEquityAt : Option Timestamp
  halt : Option HaltRecord
  resumes : List ResumeRecord
  deriving DecidableEq

def one : Dec := ⟨⟨1, Dec.fits_one⟩, 0, Dec.scale_zero⟩

theorem one_atto : one.atto = 10 ^ maxScale := by decide

/-- At most `maxLagSecs` after midnight of its own date, inclusive. -/
def withinAnchorWindow (at' : Timestamp) (maxLagSecs : Int) : Bool :=
  maxLagSecs ≥ 0 && at' - dateNaive at' * nanosPerDay ≤ maxLagSecs * nanosPerSecond

namespace AccountState

/-- A fresh account: active at full size, never saved. -/
def new (accountId : String) : AccountState where
  accountId := accountId
  version := 0
  status := .active
  riskScale := one
  shrinkRung := none
  hwm := none
  dayStartEquity := none
  tradingDay := none
  lastEquity := none
  lastEquityAt := none
  halt := none
  resumes := []

/-- The multiplier the planner applies: zero when nothing may be added. -/
def effectiveRiskScale (s : AccountState) : Dec :=
  match s.status with
  | .active | .shrunk => s.riskScale
  | .flattening | .halted => Dec.zero

def toRecord (s : AccountState) : AccountStateRecord where
  accountId := s.accountId
  version := s.version
  status := s.status
  riskScale := s.riskScale
  shrinkRung := s.shrinkRung
  hwm := s.hwm
  dayStartEquity := s.dayStartEquity
  tradingDay := s.tradingDay
  lastEquity := s.lastEquity
  lastEquityAt := s.lastEquityAt
  halt := s.halt
  resumes := s.resumes

/-- Rebuild a state from stored data, refusing an incoherent record. -/
def fromRecord (r : AccountStateRecord) : Except String AccountState :=
  if r.status.isHalt != r.halt.isSome then
    .error s!"status {r.status.asStr} and halt record presence disagree"
  else if r.riskScale ≤ Dec.zero ∨ one < r.riskScale then
    .error s!"risk_scale {r.riskScale.display} is outside (0, 1]"
  else if (r.status == .shrunk) != r.shrinkRung.isSome then
    .error "shrink_rung must be present exactly when the status is shrunk"
  else
    .ok {
      accountId := r.accountId
      version := r.version
      status := r.status
      riskScale := r.riskScale
      shrinkRung := r.shrinkRung
      hwm := r.hwm
      dayStartEquity := r.dayStartEquity
      tradingDay := r.tradingDay
      lastEquity := r.lastEquity
      lastEquityAt := r.lastEquityAt
      halt := r.halt
      resumes := r.resumes }

/-- The high-water mark ratchets up only while risk may be added. -/
def ratchet (s : AccountState) (equity : Dec) : Option Dec :=
  if s.status.mayAddRisk then
    match s.hwm with
    | some h => if equity ≤ h then some h else some equity
    | none => some equity
  else s.hwm

def isNewDay (s : AccountState) (day : NaiveDate) : Bool :=
  match s.tradingDay with
  | none => true
  | some d => day > d

/-- Fold in a reading and the caller's trading day; the first observation of a
    later day becomes its start. -/
def observe (s : AccountState) (snapshot : EquitySnapshot) (day : NaiveDate) : AccountState :=
  let seen : AccountState :=
    { s with
      lastEquity := some snapshot.equity
      lastEquityAt := some snapshot.at'
      hwm := s.ratchet snapshot.equity }
  if s.isNewDay day then
    { seen with tradingDay := some day, dayStartEquity := some snapshot.equity }
  else seen

/-- The same under the midnight rule: a first reading outside the window leaves the
    day without a start. -/
def observeAnchored (s : AccountState) (snapshot : EquitySnapshot) (maxLagSecs : Int) :
    AccountState :=
  let seen : AccountState :=
    { s with
      lastEquity := some snapshot.equity
      lastEquityAt := some snapshot.at'
      hwm := s.ratchet snapshot.equity }
  let day := dateNaive snapshot.at'
  if s.isNewDay day then
    { seen with
      tradingDay := some day
      dayStartEquity :=
        if withinAnchorWindow snapshot.at' maxLagSecs then some snapshot.equity else none }
  else seen

def observeWith (s : AccountState) (snapshot : EquitySnapshot) (day : NaiveDate) :
    DayStartRule → AccountState
  | .firstObservation => s.observe snapshot day
  | .utcMidnight maxLagSecs => s.observeAnchored snapshot maxLagSecs

def newHaltRecord (s : AccountState) (reason : HaltReason) (detail : String) (at' : Timestamp) :
    HaltRecord where
  reason := reason
  at' := at'
  detail := detail
  equityAtHalt := s.lastEquity
  hwmAtHalt := s.hwm
  failedFlattenAttempts := 0

/-- The common body of the two ways into a halt: nothing but the status and the
    halt record changes, and an account that is halted already keeps both. -/
def enterHalt (s : AccountState) (target : AccountStatus) (reason : HaltReason) (detail : String)
    (at' : Timestamp) : AccountState × Option Transition :=
  if s.status.isHalt then (s, none)
  else
    ({ s with status := target, halt := some (s.newHaltRecord reason detail at') },
      some ⟨s.status, target, reason.code⟩)

/-- Halt without flattening. -/
def haltNow (s : AccountState) (reason : HaltReason) (detail : String) (at' : Timestamp) :
    AccountState × Option Transition :=
  s.enterHalt .halted reason detail at'

def beginFlatten (s : AccountState) (reason : HaltReason) (detail : String) (at' : Timestamp) :
    AccountState × Option Transition :=
  s.enterHalt .flattening reason detail at'

def countFailedFlatten (h : HaltRecord) : HaltRecord :=
  { h with failedFlattenAttempts := min (h.failedFlattenAttempts + 1) (2 ^ 32 - 1) }

/-- End a flatten attempt: verified flat means halted, otherwise the failure is counted. -/
def completeFlatten (s : AccountState) (verifiedFlat : Bool) : AccountState × Option Transition :=
  if s.status ≠ .flattening then (s, none)
  else if verifiedFlat then
    ({ s with status := .halted },
      some ⟨.flattening, .halted, (s.halt.map fun h => h.reason.code).getD "HALT_UNKNOWN"⟩)
  else ({ s with halt := s.halt.map countFailedFlatten }, none)

def withShrink (s : AccountState) (scale : Dec) (rung : Nat) : AccountState × Option Transition :=
  if ¬ s.status.mayAddRisk then (s, none)
  else
    ({ s with status := .shrunk, riskScale := scale, shrinkRung := some rung },
      if s.status ≠ .shrunk then some ⟨s.status, .shrunk, "RISK_DRAWDOWN_SHRINK"⟩ else none)

def withFullSize (s : AccountState) : AccountState × Option Transition :=
  if ¬ s.status.mayAddRisk then (s, none)
  else
    ({ s with status := .active, riskScale := one, shrinkRung := none },
      if s.status ≠ .active then some ⟨s.status, .active, "RISK_RECOVERED"⟩ else none)

/-- The only way out of a halt. -/
def resume (s : AccountState) (approval : HumanApproval) (equity : EquitySnapshot)
    (day : NaiveDate) : Except ResumeError (AccountState × Transition) :=
  match s.status with
  | .flattening => .error .flattenIncomplete
  | .active => .error (.notHalted AccountStatus.active.asStr)
  | .shrunk => .error (.notHalted AccountStatus.shrunk.asStr)
  | .halted =>
      if ¬ equity.equity.isPositive then .error (.equityInvalid equity.equity)
      else
        match s.halt with
        | none => .error (.notHalted "halted without a halt record")
        | some halt =>
            .ok ({ s with
              status := .active
              riskScale := one
              shrinkRung := none
              hwm := some equity.equity
              dayStartEquity := some equity.equity
              tradingDay := some day
              lastEquity := some equity.equity
              lastEquityAt := some equity.at'
              halt := none
              resumes := s.resumes ++ [{
                approver := approval.approver
                at' := approval.at'
                note := approval.note
                equityAtResume := equity.equity
                hwmBefore := halt.hwmAtHalt
                haltReason := halt.reason
                haltedAt := halt.at' }] },
              ⟨.halted, .active, "RESUMED"⟩)

end AccountState

end RebalancerRisk
