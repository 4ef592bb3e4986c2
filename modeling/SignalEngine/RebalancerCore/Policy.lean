import SignalEngine.RebalancerCore.DecMath
import SignalEngine.Lib.Casing

/-! # Compiled mandate limits

The exact-decimal limits a mandate compiles to, its standing at an instant, the
capital base every percentage is measured against, and the limits a deployment
adds on top of the mandate.
-/

open MachineInt BrokerAdapters Outcome Text

namespace RebalancerCore

/-- Nanoseconds since the epoch, UTC. -/
abbrev Instant := Int

/-- How the date library writes an instant. -/
class InstantText where
  display : Instant → String
  rfc3339 : Instant → String
  /-- `%Y%m%dT%H%M%SZ` -/
  compact : Instant → String

/-- The texts of the epoch and of the day one year later. -/
@[reducible] def epochText : InstantText where
  display t := if t = 0 then "1970-01-01 00:00:00 UTC" else "1971-01-01 00:00:00 UTC"
  rfc3339 t := if t = 0 then "1970-01-01T00:00:00+00:00" else "1971-01-01T00:00:00+00:00"
  compact t := if t = 0 then "19700101T000000Z" else "19710101T000000Z"

/-- A decimal that is not negative. -/
structure Amount where
  toDec : Dec
  nonneg : 0 ≤ toDec.atto
  deriving DecidableEq

instance : Coe Amount Dec := ⟨Amount.toDec⟩

instance (priority := high) cents_ne : NeZero (10 ^ 9 : Nat) := ⟨by decide⟩

/-- `n` with two fractional digits. -/
def Amount.cents (n : Fin (10 ^ 9)) : Amount :=
  ⟨⟨⟨n.val, by constructor <;> omega⟩, 2, Dec.scale_two⟩,
    mul_nonneg (Int.natCast_nonneg n.val) (Dec.ten_pow_pos _).le⟩

inductive MandateStatus where
  | draft
  | active
  | superseded
  | revoked
  | expired
  deriving Repr, DecidableEq

def MandateStatus.debug : MandateStatus → String
  | draft => "Draft"
  | active => "Active"
  | superseded => "Superseded"
  | revoked => "Revoked"
  | expired => "Expired"

/-- What the store knows about one mandate version. -/
structure MandateEnvelope where
  version : Nat
  status : MandateStatus
  effectiveFrom : Instant
  /-- The mandate stops being valid at this instant. -/
  reviewBy : Instant
  deriving DecidableEq

/-- All limits, exact. Ratios and amounts of a compiled mandate are not negative
    and asset classes are keyed in lower case. -/
structure Limits where
  ccy : String
  allocated : Amount
  minCashReserve : Amount
  instrumentAllow : Std.ExtTreeSet String
  instrumentDeny : Std.ExtTreeSet String
  venues : Std.ExtTreeSet String
  assetClasses : Std.ExtTreeSet String
  shorting : Bool
  derivatives : Bool
  leverageMaxGross : Amount
  maxPosition : Amount
  maxAssetClass : Std.ExtTreeMap String Amount
  maxGross : Amount
  maxNet : Amount
  maxOrderNotional : Amount
  maxOrdersPerDay : Nat
  maxTurnoverPerDay : Amount
  classes_lower : ∀ k ∈ maxAssetClass, NoCapitals k

theorem noClasses_lower : ∀ k ∈ (∅ : Std.ExtTreeMap String Amount), NoCapitals k := by simp

theorem fiveMinutes_fits : Fits 64 300 := by decide

inductive PolicyBody where
  | valid (limits : Limits)
  /-- Why the mandate could not be compiled. -/
  | invalid (reasons : List String)

structure Policy where
  bodyHash : String
  body : PolicyBody
  envelope : Option MandateEnvelope
  maxPriceAgeSecs : SInt 64

/-- What the policy allows at an instant, before any order is looked at. -/
inductive Standing where
  | active
  /-- Past the review date: only reducing orders may pass. -/
  | expired
  | notActive (why : String)
  | invalid
  deriving DecidableEq

/-- A deployment's own limits; an absent one does not bind. -/
structure DeploymentLimits where
  capitalAllocation : Option Amount
  maxPosition : Option Amount
  maxGross : Option Amount
  maxNet : Option Amount
  maxOrderNotional : Option Amount
  maxOrdersPerDay : Option Nat
  maxTurnoverPerDay : Option Amount
  minCashReserve : Option Amount
  maxAssetClass : Std.ExtTreeMap String Amount

/-- The cap of the deployment replaces the current one when it is smaller. -/
def Amount.tighten (current : Amount) : Option Amount → Amount
  | some cap => if cap.toDec < current.toDec then cap else current
  | none => current

/-- The reserve of the deployment replaces the current one when it is larger. -/
def Amount.raise (current : Amount) : Option Amount → Amount
  | some reserve => if current.toDec < reserve.toDec then reserve else current
  | none => current

/-- A class the mandate does not cap is capped by the deployment alone. -/
def tightenClass [UnicodeCase] (classes : Std.ExtTreeMap String Amount) (entry : String × Amount) :
    Std.ExtTreeMap String Amount :=
  match classes[lowerName entry.1]? with
  | some current => classes.insert (lowerName entry.1) (current.tighten (some entry.2))
  | none => classes.insert (lowerName entry.1) entry.2

namespace Policy

def limits (policy : Policy) : Option Limits :=
  match policy.body with
  | .valid limits => some limits
  | .invalid _ => none

def standing [InstantText] (policy : Policy) (now : Instant) : Standing :=
  match policy.limits with
  | none => .invalid
  | some _ =>
      match policy.envelope with
      | none =>
          .notActive "no mandate envelope (status, effective and review dates) was supplied"
      | some env =>
          if env.status ≠ .active then
            .notActive s!"mandate status is {env.status.debug}, not Active"
          else if now < env.effectiveFrom then
            .notActive s!"mandate is effective from {InstantText.display env.effectiveFrom}, not yet"
          else if now ≥ env.reviewBy then .expired
          else .active

/-- The one number every percentage-of-equity rule is measured against. -/
def capitalBase (policy : Policy) (equity : Dec) (accountCcy : String) : Dec :=
  match policy.limits with
  | some limits =>
      if eqIgnoreAsciiCase limits.ccy (trimmed accountCcy) then min equity limits.allocated
      else equity
  | none => equity

/-- The smallest cash balance the account may be left with, rounded up to 8 decimals. -/
def reserveAmount (policy : Policy) (capitalBase : Dec) : Except MathError Dec :=
  match policy.limits with
  | none => .ok capitalBase
  | some limits => do
      let reserve ← DecMath.mul limits.minCashReserve capitalBase
      DecMath.roundDp reserve 8 .ceil

end Policy

section Deployment

variable [UnicodeCase]

theorem tightenClass_lower {classes : Std.ExtTreeMap String Amount} {entry : String × Amount}
    (lower : ∀ k ∈ classes, NoCapitals k) : ∀ k ∈ tightenClass classes entry, NoCapitals k := by
  intro k member
  unfold tightenClass at member
  split at member <;> rw [Std.ExtTreeMap.mem_insert] at member
  all_goals
    obtain same | old := member
    · rw [← Std.LawfulEqCmp.eq_of_compare same]
      exact noCapitals_lowerName _
    · exact lower k old

theorem tightenClasses_lower {entries : List (String × Amount)}
    {classes : Std.ExtTreeMap String Amount} (lower : ∀ k ∈ classes, NoCapitals k) :
    ∀ k ∈ entries.foldl tightenClass classes, NoCapitals k := by
  induction entries generalizing classes with
  | nil => exact lower
  | cons entry entries ih => exact ih (tightenClass_lower lower)

def Limits.withDeployment (limits : Limits) (d : DeploymentLimits) : Limits :=
  { limits with
    allocated := limits.allocated.tighten d.capitalAllocation
    maxPosition := limits.maxPosition.tighten d.maxPosition
    maxGross := limits.maxGross.tighten d.maxGross
    maxNet := limits.maxNet.tighten d.maxNet
    maxOrderNotional := limits.maxOrderNotional.tighten d.maxOrderNotional
    maxTurnoverPerDay := limits.maxTurnoverPerDay.tighten d.maxTurnoverPerDay
    maxOrdersPerDay := d.maxOrdersPerDay.elim limits.maxOrdersPerDay (min limits.maxOrdersPerDay)
    minCashReserve := limits.minCashReserve.raise d.minCashReserve
    maxAssetClass := d.maxAssetClass.toList.foldl tightenClass limits.maxAssetClass
    classes_lower := tightenClasses_lower limits.classes_lower }

/-- Apply a deployment's own limits: tighter than the mandate, never looser. -/
def Policy.withDeployment (policy : Policy) (d : DeploymentLimits) : Policy :=
  match policy.body with
  | .valid limits => { policy with body := .valid (limits.withDeployment d) }
  | .invalid _ => policy

end Deployment

end RebalancerCore
