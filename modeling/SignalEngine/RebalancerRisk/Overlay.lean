import SignalEngine.RebalancerRisk.State

/-! # The risk overlay

The drawdown ladder and the daily-loss limit of a mandate, the decision they give
on an equity reading, and what the decision does to the account. A `RiskPolicy`
carries the checks its constructor makes.
-/

open BrokerAdapters RebalancerCore RebalancerCore.DecMath

namespace RebalancerRisk

inductive RungAction where
  | shrink (scale : Dec)
  | haltFlatten
  deriving DecidableEq

structure Rung where
  /-- Fraction below the high-water mark. -/
  trigger : Dec
  action : RungAction
  deriving DecidableEq

abbrev RiskPolicyError := String

/-- The ladder check of the constructor, from a rung on: strictly ascending, only
    the last rung halts, shrink scales inside `(0, 1)` that never scale back up. -/
def checkRungs (prevAt prevScale : Dec) : List Rung → Except RiskPolicyError Unit
  | [] => .ok ()
  | r :: rest =>
      if r.trigger ≤ prevAt ∨ one < r.trigger then
        .error "ladder rungs must be strictly ascending fractions in (0, 1]"
      else
        match r.action with
        | .shrink scale =>
            if rest = [] then .error "the last rung must be halt_flatten"
            else if scale ≤ Dec.zero ∨ one ≤ scale then
              .error "a shrink scale must be in (0, 1)"
            else if prevScale < scale then .error "a later shrink rung cannot scale back up"
            else checkRungs r.trigger scale rest
        | .haltFlatten =>
            if rest ≠ [] then .error "only the last rung may be halt_flatten"
            else checkRungs r.trigger prevScale rest

/-- All the checks of `RiskPolicy::new`. -/
def checkPolicy (dailyLossLimit : Dec) (rungs : List Rung) (recoveryFraction : Dec) :
    Except RiskPolicyError Unit :=
  if dailyLossLimit ≤ Dec.zero ∨ one < dailyLossLimit then
    .error "daily_loss_limit must be in (0, 1]"
  else if recoveryFraction ≤ Dec.zero ∨ one < recoveryFraction then
    .error "recovery_fraction must be in (0, 1]"
  else if rungs = [] then .error "the ladder needs at least one rung"
  else checkRungs Dec.zero one rungs

/-- A policy that passed the checks of its constructor. -/
structure RiskPolicy where
  dailyLossLimit : Dec
  rungs : List Rung
  recoveryFraction : Dec
  valid : checkPolicy dailyLossLimit rungs recoveryFraction = .ok ()

def RiskPolicy.new (dailyLossLimit : Dec) (rungs : List Rung) (recoveryFraction : Dec) :
    Except RiskPolicyError RiskPolicy :=
  match checked : checkPolicy dailyLossLimit rungs recoveryFraction with
  | .ok () => .ok ⟨dailyLossLimit, rungs, recoveryFraction, checked⟩
  | .error e => .error e

inductive RiskCode where
  | noAction
  | drawdownShrink
  | shrinkHeld
  | partialRecovery
  | recovered
  | drawdownHalt
  | dailyLossHalt
  | alreadyHalted
  | equityInvalid
  | arithmeticOverflow
  deriving Repr, DecidableEq

def RiskCode.asStr : RiskCode → String
  | noAction => "RISK_NO_ACTION"
  | drawdownShrink => "RISK_DRAWDOWN_SHRINK"
  | shrinkHeld => "RISK_SHRINK_HELD"
  | partialRecovery => "RISK_PARTIAL_RECOVERY"
  | recovered => "RISK_RECOVERED"
  | drawdownHalt => "RISK_DRAWDOWN_HALT"
  | dailyLossHalt => "RISK_DAILY_LOSS_HALT"
  | alreadyHalted => "RISK_ALREADY_HALTED"
  | equityInvalid => "RISK_EQUITY_INVALID"
  | arithmeticOverflow => "RISK_ARITHMETIC_OVERFLOW"

structure RiskReason where
  code : RiskCode
  message : String
  deriving DecidableEq

inductive RiskAction where
  | none
  | shrink (scale : Dec)
  | haltFlatten
  deriving DecidableEq

structure RiskDecision where
  riskScale : Dec
  action : RiskAction
  reasons : List RiskReason
  nextRung : Option Nat
  haltReason : Option HaltReason
  drawdown : Option Dec
  dailyLoss : Option Dec
  deriving DecidableEq

def RiskDecision.halted (halt : HaltReason) (reasons : List RiskReason)
    (drawdown dailyLoss : Option Dec) : RiskDecision where
  riskScale := Dec.zero
  action := .haltFlatten
  reasons := reasons
  nextRung := none
  haltReason := some halt
  drawdown := drawdown
  dailyLoss := dailyLoss

/-- `reference - equity >= fraction * reference`, inclusive. -/
def breached (reference equity fraction : Dec) : Except MathError Bool := do
  let loss ← sub reference equity
  let threshold ← mul fraction reference
  return decide (threshold ≤ loss)

/-- The drawdown is back within `recovery` of the rung, inclusive. -/
def recovered (reference equity trigger recovery : Dec) : Except MathError Bool := do
  let loss ← sub reference equity
  let share ← mul trigger recovery
  let threshold ← mul share reference
  return decide (loss ≤ threshold)

/-- The loss as a fraction at six digits, for records only; a gain is negative. -/
def fractionOf (reference equity : Dec) : Option Dec := do
  let loss ← (sub reference equity).toOption
  if loss.isNegative then do
    let gain ← (sub equity reference).toOption
    let f ← (divFloor gain reference 6).toOption
    let f ← Dec.zero.checkedAdd f
    (sub Dec.zero f).toOption
  else (divFloor loss reference 6).toOption

/-- The highest rung hit, walking the ladder from rung `i` on. -/
def highestHit (hwm equity : Dec) : List Rung → Nat → Option Nat → Except MathError (Option Nat)
  | [], _, raw => .ok raw
  | r :: rest, i, raw => do
      let hit ← breached hwm equity r.trigger
      highestHit hwm equity rest (i + 1) (if hit then some i else raw)

/-- The rung a shrunk account is held at before recovery is looked at. A stale
    index clamps to the most severe shrink rung, and so does a missing one. -/
def heldRung (s : AccountState) (policy : RiskPolicy) : Option Nat :=
  -- The last rung is the halt rung.
  let lastShrink := if policy.rungs.length ≥ 2 then some (policy.rungs.length - 2) else none
  if s.status = .shrunk then
    match s.shrinkRung, lastShrink with
    | some c, some l => some (min c l)
    | some _, none => none
    | none, some l => some l
    | none, none => none
  else none

/-- Whether the drawdown has recovered from rung `c`, an index of the ladder. -/
def recoveredFrom (hwm equity : Dec) (policy : RiskPolicy) (c : Nat) : Except MathError Bool :=
  recovered hwm equity (((policy.rungs[c]?).map Rung.trigger).getD Dec.zero) policy.recoveryFraction

/-- Release one rung after the other while the drawdown has recovered from it. -/
def release (hwm equity : Dec) (policy : RiskPolicy) : Nat → Except MathError (Option Nat)
  | 0 => do
      let back ← recoveredFrom hwm equity policy 0
      .ok (if back then none else some 0)
  | c + 1 => do
      let back ← recoveredFrom hwm equity policy (c + 1)
      if back then release hwm equity policy c else .ok (some (c + 1))

/-- The rung still held once recovery has been looked at. -/
def stillHeld (s : AccountState) (hwm equity : Dec) (policy : RiskPolicy) :
    Except MathError (Option Nat) :=
  match heldRung s policy with
  | some c => release hwm equity policy c
  | none => .ok none

def alreadyHalted (status : AccountStatus) : RiskDecision where
  riskScale := Dec.zero
  action := .none
  reasons := [⟨.alreadyHalted,
    s!"the account is {status.asStr}: no equity path can change that, only a human resume can"⟩]
  nextRung := none
  haltReason := none
  drawdown := none
  dailyLoss := none

/-- The daily-loss half of the evaluation: the fraction for the record, and the
    reason when the limit is hit. -/
def evaluateDailyLoss (s : AccountState) (equity : Dec) (policy : RiskPolicy) :
    Except MathError (Option Dec × Option RiskReason) :=
  match s.dayStartEquity with
  | none => .ok (none, none)
  | some dayStart =>
      if dayStart.isPositive then do
        let hit ← breached dayStart equity policy.dailyLossLimit
        if hit then do
          let loss ← sub dayStart equity
          let message := s!"equity {equity.display} is {loss.display} below the day-start " ++
            s!"{dayStart.display}: the daily loss limit is {policy.dailyLossLimit.display}"
          .ok (fractionOf dayStart equity, some ⟨.dailyLossHalt, message⟩)
        else .ok (fractionOf dayStart equity, none)
      else .ok (none, none)

/-- The reason when the highest rung hit is the halt rung. -/
def evaluateLadder (hwm equity : Dec) (policy : RiskPolicy) (raw : Option Nat) :
    Except MathError (Option RiskReason) :=
  match raw.bind fun i => policy.rungs[i]? with
  | some ⟨trigger, .haltFlatten⟩ => do
      let loss ← sub hwm equity
      let message := s!"equity {equity.display} is {loss.display} below the high-water mark " ++
        s!"{hwm.display}: the halt rung is {trigger.display}"
      .ok (some ⟨.drawdownHalt, message⟩)
  | _ => .ok none

/-- The more severe of the rung hit and the rung held. -/
def targetRung : Option Nat → Option Nat → Option Nat
  | some a, some b => some (max a b)
  | a, b => a.or b

def fullSize (s : AccountState) (policy : RiskPolicy) (drawdown dailyLoss : Option Dec) :
    RiskDecision where
  riskScale := one
  action := .none
  reasons :=
    if s.status = .shrunk then
      [⟨.recovered, s!"drawdown recovered to within {policy.recoveryFraction.display} of the " ++
        "shrink trigger: full size again"⟩]
    else [⟨.noAction, "no risk limit is hit"⟩]
  nextRung := none
  haltReason := none
  drawdown := drawdown
  dailyLoss := dailyLoss

def shrinkCode (s : AccountState) (raw : Option Nat) (i : Nat) : RiskCode :=
  if raw = some i ∧ s.shrinkRung ≠ some i then .drawdownShrink
  else if s.status = .shrunk ∧ (s.shrinkRung.any fun c => decide (i < c)) then .partialRecovery
  else .shrinkHeld

/-- The decision on the rung in force, once no halt applies. -/
def posture (s : AccountState) (policy : RiskPolicy) (hwm : Dec) (raw target : Option Nat)
    (drawdown dailyLoss : Option Dec) : RiskDecision :=
  match target with
  | none => fullSize s policy drawdown dailyLoss
  | some i =>
      match policy.rungs[i]? with
      | some ⟨trigger, .shrink scale⟩ =>
          { riskScale := scale
            action := .shrink scale
            reasons := [⟨shrinkCode s raw i,
              "drawdown " ++ (drawdown.map Dec.display).getD "?" ++ " from the high-water mark " ++
                s!"{hwm.display}: shrink rung {trigger.display} in force, targets scaled by " ++
                scale.display⟩]
            nextRung := some i
            haltReason := none
            drawdown := drawdown
            dailyLoss := dailyLoss }
      | _ =>
          .halted .drawdownLadder
            [⟨.drawdownHalt, "internal: halt rung reached the shrink branch"⟩] drawdown dailyLoss

/-- The high-water mark, recomputed for a caller that forgot to observe. -/
def markFor (s : AccountState) (equity : Dec) : Dec :=
  match s.hwm with
  | some h => if equity ≤ h then h else equity
  | none => equity

def evaluateInner (s : AccountState) (snapshot : EquitySnapshot) (policy : RiskPolicy) :
    Except MathError RiskDecision :=
  let equity := snapshot.equity
  if s.status.isHalt then .ok (alreadyHalted s.status)
  else if ¬ equity.isPositive then
    .ok (.halted .equityInvalid
      [⟨.equityInvalid, s!"broker-reported equity {equity.display} is not positive"⟩] none none)
  else do
    let hwm := markFor s equity
    let drawdown := fractionOf hwm equity
    let (dailyLoss, dailyHalt) ← evaluateDailyLoss s equity policy
    let raw ← highestHit hwm equity policy.rungs 0 none
    let ladderHalt ← evaluateLadder hwm equity policy raw
    match dailyHalt, ladderHalt with
    | some d, _ => .ok (.halted .dailyLoss (d :: ladderHalt.toList) drawdown dailyLoss)
    | none, some l => .ok (.halted .drawdownLadder [l] drawdown dailyLoss)
    | none, none => do
        let held ← stillHeld s hwm equity policy
        .ok (posture s policy hwm raw (targetRung raw held) drawdown dailyLoss)

def mathErrorText : MathError → String
  | .overflow => "decimal arithmetic overflow"
  | .badDivisor => "division by a non-positive number"
  | .badRatio value why => s!"ratio {value} cannot be converted: {why}"

/-- Evaluate the account; arithmetic that fails halts it. -/
def evaluateRisk (s : AccountState) (snapshot : EquitySnapshot) (policy : RiskPolicy) :
    RiskDecision :=
  match evaluateInner s snapshot policy with
  | .ok d => d
  | .error e =>
      .halted .equityInvalid
        [⟨.arithmeticOverflow, s!"risk arithmetic failed ({mathErrorText e}); failing closed"⟩]
        none none

def reasonText (r : RiskReason) : String := r.code.asStr ++ ": " ++ r.message

/-- Turn a decision into the next state; a halted account stays as it is. -/
def applyDecision (s : AccountState) (decision : RiskDecision) (at' : Timestamp) :
    AccountState × Option Transition :=
  if s.status.isHalt then (s, none)
  else
    match decision.action with
    | .none => s.withFullSize
    | .shrink scale =>
        match decision.nextRung with
        | some rung => s.withShrink scale rung
        | none =>
            s.beginFlatten .equityInvalid
              "internal: a shrink decision without a rung; failing closed" at'
    | .haltFlatten =>
        s.beginFlatten (decision.haltReason.getD .equityInvalid)
          (" | ".intercalate (decision.reasons.map reasonText)) at'

/-- Observe, evaluate, apply: the step a run performs. -/
def stepWith (s : AccountState) (snapshot : EquitySnapshot) (day : NaiveDate)
    (policy : RiskPolicy) (rule : DayStartRule) :
    AccountState × RiskDecision × Option Transition :=
  let observed := s.observeWith snapshot day rule
  let decision := evaluateRisk observed snapshot policy
  let next := applyDecision observed decision snapshot.at'
  (next.1, decision, next.2)

end RebalancerRisk
