import SignalEngine.MandateCore.Mandate
import SignalEngine.RebalancerCore.Guard

/-! # Compiling a mandate

The one place where the ratios of a mandate become decimals, caps rounded down and
the cash reserve up. A mandate that is not valid, or whose numbers cannot be
converted, compiles to a policy that denies everything.
-/

open MachineInt BrokerAdapters Outcome Text MandateCore

namespace RebalancerCore

open DecMath

/-- The hash of a mandate body. -/
class MandateHash where
  canonicalHash : MandateBody → String

def ratioAmount (v : F64) (round : RatioRound) : Except MathError Amount :=
  match read : ratioToDec v round with
  | .ok d => .ok ⟨d, ratioToDec_nonneg read⟩
  | .error e => .error e

def moneyDec (m : Money) : Except MathError Dec :=
  match Dec.parse (trimmed m.amount) with
  | .ok d => .ok d
  | .error _ => .error (.badRatio m.amount "not a decimal amount")

/-- The amount of a mandate; a valid one has no negative amounts. -/
def moneyAmount (m : Money) : Except MathError Amount := do
  let d ← moneyDec m
  if nonneg : 0 ≤ d.atto then .ok ⟨d, nonneg⟩ else .error (.badRatio m.amount "not a decimal amount")

def normalise [UnicodeCase] (items : List String) (upper : Bool) : Std.ExtTreeSet String :=
  .ofList (items.map fun s => if upper then upperName s else lowerName s)

/-- Caps by asset class, in lower case. -/
structure ClassCaps where
  caps : Std.ExtTreeMap String Amount
  lower : ∀ k ∈ caps, NoCapitals k

def ClassCaps.empty : ClassCaps := ⟨∅, noClasses_lower⟩

/-- A class that is there already gets the new cap. -/
def ClassCaps.insert [UnicodeCase] (classes : ClassCaps) (name : String) (cap : Amount) : ClassCaps where
  caps := classes.caps.insert (lowerName name) cap
  lower k member := by
    rcases Std.ExtTreeMap.mem_insert.1 member with same | old
    · rw [← Std.LawfulEqCmp.eq_of_compare same]
      exact noCapitals_lowerName name
    · exact classes.lower k old

def addClass [UnicodeCase] (classes : ClassCaps) (entry : String × F64) : Except MathError ClassCaps := do
  let cap ← ratioAmount entry.2 .down
  .ok (classes.insert entry.1 cap)

def convert [UnicodeCase] (b : MandateBody) : Except MathError Limits := do
  let leverage ← ratioAmount b.«universe».leverageMaxGross .down
  let gross ← ratioAmount b.exposure.maxGross .down
  let classes ← b.exposure.maxAssetClass.toList.foldlM addClass .empty
  let allocated ← moneyAmount b.capital.allocated
  let minCashReserve ← ratioAmount b.capital.minCashReserve .up
  let maxPosition ← ratioAmount b.exposure.maxPosition .down
  let maxNet ← ratioAmount b.exposure.maxNet .down
  let maxOrderNotional ← moneyAmount b.exposure.maxOrderNotional
  let maxTurnoverPerDay ← ratioAmount b.exposure.maxTurnoverPerDay .down
  .ok {
    ccy := b.capital.allocated.ccy
    allocated := allocated
    minCashReserve := minCashReserve
    instrumentAllow := normalise b.«universe».instrumentAllow true
    instrumentDeny := normalise b.«universe».instrumentDeny true
    venues := normalise b.«universe».venues false
    assetClasses := normalise b.«universe».assetClasses false
    shorting := b.«universe».shorting
    derivatives := b.«universe».derivatives
    leverageMaxGross := leverage
    maxPosition := maxPosition
    maxAssetClass := classes.caps
    maxGross := if gross.toDec ≤ leverage.toDec then gross else leverage
    maxNet := maxNet
    maxOrderNotional := maxOrderNotional
    maxOrdersPerDay := b.exposure.maxOrdersPerDay
    maxTurnoverPerDay := maxTurnoverPerDay
    classes_lower := classes.lower }

/-- Default maximum age of a price, in seconds. -/
def defaultMaxPriceAgeSecs : SInt 64 := ⟨300, fiveMinutes_fits⟩

/-- What the violations, or the numbers, of the mandate make of it. -/
def compileBody [UnicodeCase] [DebugText] [ExternalDecimal] (body : MandateBody) : PolicyBody :=
  match validate body with
  | [] =>
      match convert body with
      | .ok limits => .valid limits
      | .error e => .invalid [s!"could not convert the mandate's numbers: {e.display}"]
  | violations => .invalid (violations.map fun v => s!"{v.field}: {v.message}")

def Policy.compile [UnicodeCase] [DebugText] [ExternalDecimal] [MandateHash] (body : MandateBody) : Policy where
  bodyHash := MandateHash.canonicalHash body
  body := compileBody body
  envelope := none
  maxPriceAgeSecs := defaultMaxPriceAgeSecs

end RebalancerCore
