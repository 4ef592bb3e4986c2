import SignalEngine.MandateCore.Mandate
import SignalEngine.RebalancerCore.Guard
import SignalEngine.RebalancerRisk.Overlay

/-! # The risk policy of a mandate

The ladder and the daily-loss limit of a mandate as a risk policy. All ratios are
rounded down, which makes each of them stricter.
-/

open BrokerAdapters RebalancerCore RebalancerCore.DecMath Text MandateCore

namespace RebalancerRisk

def defaultRecoveryFractionText : String := "0.5"

def conv (v : F64) : Except RiskPolicyError Dec :=
  match ratioToDec v .down with
  | .ok d => .ok d
  | .error e => .error e.display

def rungAction (r : LadderRung) : Except RiskPolicyError RungAction :=
  match r.action with
  | .shrink =>
      match r.scale with
      | some s => (conv s).map .shrink
      | none => .error "a shrink rung has no scale"
  | .haltFlatten => .ok .haltFlatten

def rungOf (r : LadderRung) : Except RiskPolicyError Rung := do
  let action ← rungAction r
  let trigger ← conv r.trigger
  .ok ⟨trigger, action⟩

namespace RiskPolicy

variable [UnicodeCase] [DebugText] [ExternalDecimal]

def fromMandateWithRecovery (body : MandateBody) (recoveryFraction : Dec) : Except RiskPolicyError RiskPolicy :=
  match validate body with
  | [] => do
      let rungs ← body.loss.drawdownLadder.mapM rungOf
      let dailyLossLimit ← conv body.loss.dailyLossLimit
      RiskPolicy.new dailyLossLimit rungs recoveryFraction
  | violations =>
      let why := violations.map fun v => s!"{v.field}: {v.message}"
      .error ("the mandate is invalid: " ++ "; ".intercalate why)

/-- From a mandate body; an invalid one gives no policy. -/
def fromMandate (body : MandateBody) : Except RiskPolicyError RiskPolicy :=
  fromMandateWithRecovery body ((Dec.parse defaultRecoveryFractionText).toOption.getD one)

end RiskPolicy

end RebalancerRisk
