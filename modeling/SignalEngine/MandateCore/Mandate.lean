import SignalEngine.RebalancerCore.Ratio
import SignalEngine.Lib.Casing

/-! # The trading mandate

What an account's agent may do and the limits it must stay inside, with the check
that returns every violation. Ratios are fractions; money is a decimal text.
-/

open BrokerAdapters RebalancerCore RebalancerCore.DecMath Text

namespace MandateCore

/-- The decimal type of the library, which reads texts its own way. A text of at most
    28 digits is read exactly. -/
class ExternalDecimal where
  fromStr : String → Option ℚ
  exact : ∀ s l q, Dec.readLiteral s.toList = some l → (l.int ++ l.frac).length ≤ 28 → fromStr s = some q →
    q = l.value

structure Violation where
  /-- Dotted path of the field. -/
  field : String
  message : String
  deriving DecidableEq

structure Money where
  amount : String
  ccy : String
  deriving DecidableEq

inductive CapitalSource where
  | own
  | thirdParty
  | mixed
  deriving DecidableEq

structure Acknowledgement where
  doc : String
  docVersion : String
  «by» : String
  deriving DecidableEq

structure Basis where
  capitalSource : CapitalSource
  jurisdiction : String
  acknowledgements : List Acknowledgement

structure Capital where
  allocated : Money
  /-- Fraction of equity kept in cash. -/
  minCashReserve : F64

structure Universe where
  venues : List String
  assetClasses : List String
  instrumentAllow : List String
  instrumentDeny : List String
  shorting : Bool
  derivatives : Bool
  /-- Maximum gross leverage as a multiple of equity. -/
  leverageMaxGross : F64

structure Exposure where
  maxPosition : F64
  /-- By asset class. -/
  maxAssetClass : Std.ExtTreeMap String F64
  maxGross : F64
  maxNet : F64
  maxOrderNotional : Money
  maxOrdersPerDay : Nat
  /-- Daily traded notional as a multiple of equity. -/
  maxTurnoverPerDay : F64

inductive LadderAction where
  | shrink
  | haltFlatten
  deriving DecidableEq

structure LadderRung where
  /-- Fraction below the high-water mark. -/
  trigger : F64
  action : LadderAction
  /-- Given for a shrink, and only there. -/
  scale : Option F64
  deriving DecidableEq

structure Loss where
  dailyLossLimit : F64
  drawdownLadder : List LadderRung

inductive AgentAction where
  | placeOrders
  | cancelOrders
  | resizeWithinLimits
  | rebalance
  | halt
  | flatten
  | addStrategy
  | removeStrategy
  | raiseTargetRisk
  | changeLimits
  | resumeAfterHalt
  | changeCredentials
  | withdraw
  deriving DecidableEq

def AgentAction.debug : AgentAction → String
  | placeOrders => "PlaceOrders"
  | cancelOrders => "CancelOrders"
  | resizeWithinLimits => "ResizeWithinLimits"
  | rebalance => "Rebalance"
  | halt => "Halt"
  | flatten => "Flatten"
  | addStrategy => "AddStrategy"
  | removeStrategy => "RemoveStrategy"
  | raiseTargetRisk => "RaiseTargetRisk"
  | changeLimits => "ChangeLimits"
  | resumeAfterHalt => "ResumeAfterHalt"
  | changeCredentials => "ChangeCredentials"
  | withdraw => "Withdraw"

inductive AutonomyLevel where
  | l0
  | l1
  | l2
  | l3
  deriving DecidableEq

def AutonomyLevel.debug : AutonomyLevel → String
  | l0 => "L0"
  | l1 => "L1"
  | l2 => "L2"
  | l3 => "L3"

structure Autonomy where
  level : AutonomyLevel
  may : List AgentAction
  needsConfirmation : List AgentAction
  never : List AgentAction

structure Reporting where
  alertChannels : List String

structure MandateBody where
  basis : Basis
  capital : Capital
  «universe» : Universe
  exposure : Exposure
  loss : Loss
  autonomy : Autonomy
  reporting : Reporting

/-! ## Validation -/

def requiredAckDocs : List String := ["own_capital_attestation", "risk_disclosure"]

/-- Actions that can never be granted. -/
def requiredNever : List AgentAction := [.changeLimits, .resumeAfterHalt, .changeCredentials, .withdraw]

def orderActions : List AgentAction := [.placeOrders, .cancelOrders, .resizeWithinLimits, .rebalance, .flatten]

def violationIf (broken : Bool) (field message : String) : List Violation :=
  if broken then [⟨field, message⟩] else []

def fraction (field : String) (v : F64) : List Violation :=
  if !v.isFinite || v.le .zero then
    [⟨field, "must be greater than 0 (a fraction such as 0.10 for 10%)"⟩]
  else
    violationIf (F64.lt .one v) field
      s!"{v.display} is above 1: ratios are fractions, so 10% is written 0.10, not 10"

def isMultiple (v : F64) : Bool := v.isFinite && !v.le .zero

def multiple (field : String) (v : F64) : List Violation :=
  violationIf (!isMultiple v) field "must be greater than 0"

def hasCode (m : Money) : Bool := m.ccy.utf8ByteSize == 3 && m.ccy.toList.all Char.isUpper

section Amounts

variable [ExternalDecimal]

def amountOf (m : Money) : Option ℚ :=
  match ExternalDecimal.fromStr (trimmed m.amount) with
  | some d => if 0 < d then if hasCode m then some d else none else none
  | none => none

def money (field : String) (m : Money) : List Violation :=
  violationIf (!hasCode m) s!"{field}.ccy" "must be a 3-letter uppercase currency code such as USD" ++
  match ExternalDecimal.fromStr (trimmed m.amount) with
  | some d => violationIf (!decide (0 < d)) s!"{field}.amount" "must be greater than 0"
  | none =>
      [⟨s!"{field}.amount", "must be a decimal number written as a string, e.g. \"5000.00\""⟩]

end Amounts

def nonemptyList (field : String) (items : List String) : List Violation :=
  violationIf items.isEmpty field "must list at least one entry" ++
  violationIf (items.any fun s => (trimmed s).isEmpty) field "entries must not be blank"

def basisViolations (b : Basis) : List Violation :=
  let j := trimmed b.jurisdiction
  violationIf (b.capitalSource != .own) "basis.capital_source"
    "only your own capital is supported right now; third-party or pooled money is not available" ++
  violationIf (j.isEmpty || 16 < j.utf8ByteSize || !j.toList.all fun c => c.isAlphanum || c == '-')
    "basis.jurisdiction" "must be a country or country-region code such as US-GA" ++
  (requiredAckDocs.flatMap fun doc =>
    violationIf (!b.acknowledgements.any fun a => a.doc == doc) "basis.acknowledgements"
      s!"missing required acknowledgement: {doc}") ++
  b.acknowledgements.zipIdx.flatMap fun (a, i) =>
    violationIf ((trimmed a.by).isEmpty || (trimmed a.docVersion).isEmpty) s!"basis.acknowledgements[{i}]"
      "needs a signer and a document version"

def capitalViolations [ExternalDecimal] (c : Capital) : List Violation :=
  money "capital.allocated" c.allocated ++
  violationIf (!c.minCashReserve.isFinite || !(F64.le .zero c.minCashReserve && c.minCashReserve.lt .one))
    "capital.min_cash_reserve" "must be a fraction from 0 up to (not including) 1, e.g. 0.05 for 5%"

def leverageOk (u : Universe) : Bool := u.leverageMaxGross.isFinite && !u.leverageMaxGross.lt .one

def debugList [DebugText] (items : List String) : String :=
  "[" ++ String.intercalate ", " (items.map DebugText.quoted) ++ "]"

def universeViolations [UnicodeCase] [DebugText] (u : Universe) : List Violation :=
  let allow := u.instrumentAllow.map upperName
  let overlap := u.instrumentDeny.filter fun s => allow.contains (upperName s)
  nonemptyList "universe.venues" u.venues ++
  nonemptyList "universe.asset_classes" u.assetClasses ++
  nonemptyList "universe.instrument_allow" u.instrumentAllow ++
  violationIf (!overlap.isEmpty) "universe.instrument_deny"
    s!"also listed in instrument_allow: {debugList overlap}" ++
  violationIf (!leverageOk u) "universe.leverage_max_gross" "must be at least 1 (1 means no leverage)"

/-- A class cap: of a class of the universe, usable, and within the gross limit. -/
def classViolations (u : Universe) (e : Exposure) (entry : String × F64) : List Violation :=
  let f := s!"exposure.max_asset_class.{entry.1}"
  violationIf (!u.assetClasses.any (· == entry.1)) f "is not one of universe.asset_classes" ++
  multiple f entry.2 ++
  violationIf (isMultiple entry.2 && isMultiple e.maxGross && e.maxGross.lt entry.2) f
    "cannot exceed exposure.max_gross"

/-- The order size against the allocated capital, where both are usable. -/
def notionalViolations [ExternalDecimal] (c : Capital) (e : Exposure) : List Violation :=
  match amountOf c.allocated, amountOf e.maxOrderNotional with
  | some alloc, some notional =>
      if e.maxOrderNotional.ccy != c.allocated.ccy then
        [⟨"exposure.max_order_notional.ccy", "must match capital.allocated.ccy"⟩]
      else
        violationIf (decide (alloc < notional)) "exposure.max_order_notional" "cannot exceed the allocated capital"
  | _, _ => []

def exposureViolations [ExternalDecimal] (c : Capital) (u : Universe) (e : Exposure) : List Violation :=
  multiple "exposure.max_gross" e.maxGross ++
  multiple "exposure.max_net" e.maxNet ++
  multiple "exposure.max_position" e.maxPosition ++
  violationIf (isMultiple e.maxGross && leverageOk u && u.leverageMaxGross.lt e.maxGross) "exposure.max_gross"
    "cannot exceed universe.leverage_max_gross" ++
  violationIf (isMultiple e.maxGross && isMultiple e.maxNet && e.maxGross.lt e.maxNet) "exposure.max_net"
    "cannot exceed exposure.max_gross" ++
  violationIf (isMultiple e.maxGross && isMultiple e.maxPosition && e.maxGross.lt e.maxPosition)
    "exposure.max_position"
    s!"{e.maxPosition.display} is above the gross limit {e.maxGross.display}: if you meant a percent, use a fraction (0.25 for 25%)" ++
  e.maxAssetClass.toList.flatMap (classViolations u e) ++
  money "exposure.max_order_notional" e.maxOrderNotional ++
  notionalViolations c e ++
  violationIf (e.maxOrdersPerDay == 0) "exposure.max_orders_per_day" "must be at least 1" ++
  multiple "exposure.max_turnover_per_day" e.maxTurnoverPerDay

/-- The scale of a rung, and the one the next rung is compared with. -/
def scaleViolations (f : String) (prevScale : F64) (rung : LadderRung) : List Violation × F64 :=
  let unusable := ([⟨s!"{f}.scale", "a shrink rung needs a scale strictly between 0 and 1"⟩], prevScale)
  match rung.action, rung.scale with
  | .shrink, some s =>
      if s.isFinite && F64.lt .zero s && s.lt .one then
        (violationIf (prevScale.lt s) s!"{f}.scale" "a later rung cannot scale positions back up", s)
      else unusable
  | .shrink, none => unusable
  | .haltFlatten, some _ => ([⟨s!"{f}.scale", "a halt_flatten rung takes no scale"⟩], prevScale)
  | .haltFlatten, none => ([], prevScale)

def ladderViolations (i : Nat) (prevAt prevScale : F64) : List LadderRung → List Violation
  | [] => []
  | rung :: rest =>
      let f := s!"loss.drawdown_ladder[{i}]"
      let (scale, nextScale) := scaleViolations f prevScale rung
      fraction s!"{f}.at" rung.trigger ++
      violationIf (rung.trigger.isFinite && rung.trigger.le prevAt) s!"{f}.at"
        "rungs must be in strictly increasing order" ++
      scale ++
      violationIf (rest.isEmpty && rung.action != .haltFlatten) f "the last rung must be halt_flatten" ++
      violationIf (!rest.isEmpty && rung.action == .haltFlatten) f
        "halt_flatten must be the last rung; later rungs could never be reached" ++
      ladderViolations (i + 1) rung.trigger nextScale rest

def lossViolations (l : Loss) : List Violation :=
  fraction "loss.daily_loss_limit" l.dailyLossLimit ++
  violationIf l.drawdownLadder.isEmpty "loss.drawdown_ladder" "needs at least one rung, ending in halt_flatten" ++
  ladderViolations 0 .zero .one l.drawdownLadder ++
  match l.drawdownLadder.getLast? with
  | some last =>
      violationIf (l.dailyLossLimit.isFinite && last.trigger.isFinite && last.trigger.lt l.dailyLossLimit)
        "loss.daily_loss_limit" "cannot be larger than the final drawdown rung"
  | none => []

/-- Actions that were in a list before; `seen` gives the list each one was in last. -/
def repeatedActions (seen : AgentAction → Option String) : List (String × AgentAction) → List Violation
  | [] => []
  | (name, action) :: rest =>
      (match seen action with
      | some prev =>
          [⟨s!"autonomy.{name}",
            s!"{action.debug} is already listed under {prev}; an action can be in only one list"⟩]
      | none => []) ++
      repeatedActions (Function.update seen action (some name)) rest

def autonomyViolations (a : Autonomy) : List Violation :=
  (requiredNever.flatMap fun required =>
    violationIf (!a.never.contains required) "autonomy.never" s!"must always include {required.debug}") ++
  repeatedActions (fun _ => none)
    (a.may.map (("may", ·)) ++ a.needsConfirmation.map (("needs_confirmation", ·)) ++ a.never.map (("never", ·))) ++
  match a.level with
  | .l2 | .l3 => []
  | .l0 | .l1 =>
      match a.may.find? fun x => orderActions.contains x with
      | some act =>
          [⟨"autonomy.may",
            s!"{act.debug} needs autonomy level L2 or higher; at {a.level.debug} the agent may only suggest"⟩]
      | none => []

def reportingViolations (r : Reporting) : List Violation :=
  violationIf r.alertChannels.isEmpty "reporting.alert_channels" "needs at least one channel so a halt reaches a person"

def validate [UnicodeCase] [DebugText] [ExternalDecimal] (m : MandateBody) : List Violation :=
  basisViolations m.basis ++ capitalViolations m.capital ++ universeViolations m.«universe» ++
  exposureViolations m.capital m.«universe» m.exposure ++ lossViolations m.loss ++
  autonomyViolations m.autonomy ++ reportingViolations m.reporting

end MandateCore
