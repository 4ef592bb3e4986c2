import SignalEngine.RebalancerRun.Record

/-! # Sleeve decisions

What the evaluation of a sleeve hands to a run. The reference rules and the data
behind them answer a call of the run; here is only what the run reads of it.
-/

open BrokerAdapters

namespace RebalancerRun

open RebalancerCore (MathError SleeveTarget TargetWeight)
open RebalancerCore.DecMath (F64 ratioToDec)
open RebalancerRisk (NaiveDate)

/-- How the date library writes a date. -/
class DateText where
  display : NaiveDate → String

/-- `(w * 1e12).floor() / 1e12` on floats. -/
class FloatFloor where
  floorWeight : F64 → F64

structure SleeveSpec where
  id : String
  kind : SleeveKind
  /-- Fraction of the capital. -/
  share : Dec
  venue : String
  assetClass : String
  /-- Quote currency of crypto pairs. -/
  quote : String
  instruments : List String
  trancheSessions : Nat
  lookback : Option Nat
  deriving DecidableEq

structure DataError where
  code : String
  message : String
  deriving DecidableEq

def DataError.display (e : DataError) : String := s!"{e.code}: {e.message}"

inductive EvalError where
  | data (e : DataError)
  /-- The text of the rule's refusal. -/
  | rule (why : String)
  deriving DecidableEq

inductive GateVerdict where
  | pass
  | flag
  | refuse
  deriving DecidableEq

def GateVerdict.asStr : GateVerdict → String
  | pass => "PASS"
  | flag => "FLAG"
  | refuse => "REFUSE"

structure GateReason where
  code : String
  verdict : GateVerdict
  symbol : Option String
  date : Option NaiveDate
  detail : String
  deriving DecidableEq

/-- The two-source gate's report on the data of a sleeve, in shadow mode. -/
structure DataGateReport where
  primarySource : String
  secondarySource : String
  verdict : GateVerdict
  reasons : List GateReason
  deriving DecidableEq

namespace DataGateReport

def firstRefusals (seen : List (Option String × Option NaiveDate)) : List GateReason → List GateReason
  | [] => []
  | r :: rs =>
      if r.verdict = .refuse ∧ (r.symbol, r.date) ∉ seen then
        r :: firstRefusals ((r.symbol, r.date) :: seen) rs
      else firstRefusals seen rs

def refusals (gate : DataGateReport) : List GateReason := firstRefusals [] gate.reasons

def reasonLabel [DateText] (r : GateReason) : String :=
  match r.symbol, r.date with
  | some s, some d => s!"{r.code}({s}@{DateText.display d})"
  | some s, none => s!"{r.code}({s})"
  | none, some d => s!"{r.code}(@{DateText.display d})"
  | none, none => r.code

def summary [DateText] (gate : DataGateReport) : String :=
  let shown := ", ".intercalate ((gate.reasons.take 8).map reasonLabel)
  let rest := if 8 < gate.reasons.length then ", ..." else ""
  let list := if gate.reasons.isEmpty then "" else s!" [{shown}{rest}]"
  s!"shadow gate {gate.primarySource} vs {gate.secondarySource}: {gate.verdict.asStr}{list}"

end DataGateReport

structure RuleWeight where
  symbol : String
  weight : F64
  deriving DecidableEq

inductive RuleDecision where
  | etf (instruments : List RuleWeight)
  | crypto (instruments : List RuleWeight)
  deriving DecidableEq

/-- The result of evaluating a sleeve on a run date, the same for every account. -/
structure Evaluation where
  kind : SleeveKind
  fingerprint : String
  decisionDate : NaiveDate
  newestBarDate : NaiveDate
  /-- Bars of the first instrument after the decision date. -/
  lagSessions : Nat
  rule : RuleDecision
  dataGate : Option DataGateReport
  deriving DecidableEq

namespace Evaluation

def sessionsPastAction (eval : Evaluation) : Nat := eval.lagSessions - 1

def weightsOf (name : String → String) (instruments : List RuleWeight) :
    Except MathError (List TargetWeight) :=
  instruments.mapM fun i => do
    let weight ← ratioToDec i.weight .down
    pure ⟨name i.symbol, weight⟩

/-- The weights of the decision; momentum weights are floored to 12 decimals first. -/
def targetWeights [FloatFloor] (eval : Evaluation) (quote : String) :
    Except MathError (List TargetWeight) :=
  match eval.rule with
  | .etf instruments =>
      if eval.kind = .etfMomentum then
        weightsOf id (instruments.map fun i => ⟨i.symbol, FloatFloor.floorWeight i.weight⟩)
      else weightsOf id instruments
  | .crypto instruments => weightsOf (fun base => s!"{base}/{quote}") instruments

/-- The planner target of `sleeve` for this decision. -/
def target [FloatFloor] (eval : Evaluation) (sleeve : SleeveSpec) : Except MathError SleeveTarget := do
  let weights ← eval.targetWeights sleeve.quote
  pure ⟨sleeve.id, sleeve.share, sleeve.venue, sleeve.assetClass, weights⟩

end Evaluation

end RebalancerRun
