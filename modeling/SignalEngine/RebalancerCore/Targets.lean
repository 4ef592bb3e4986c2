import SignalEngine.RebalancerCore.Guard

/-! # Sleeve targets

The sleeves a plan is made of, the parameters of a planning run, their
validation, and the instruments they manage together.
-/

open BrokerAdapters Outcome Text

namespace RebalancerCore

/-- Ceiling on the `max_abs_weight` of a signed sleeve. -/
def maxAbsWeightCap : Dec := ⟨⟨3, Dec.fits_three⟩, 0, Dec.scale_zero⟩

inductive WeightBounds where
  /-- Each weight in `[0, 1]`, weights summing to at most 1. -/
  | longOnlyUnit
  | signed (maxAbsWeight : Dec)
  deriving DecidableEq

structure TargetWeight where
  symbol : String
  /-- Fraction of the sleeve. -/
  weight : Dec
  deriving DecidableEq

structure SleeveTarget where
  sleeve : String
  /-- Fraction of the capital. -/
  share : Dec
  venue : String
  assetClass : String
  weights : List TargetWeight
  deriving DecidableEq

structure PlanConfig where
  scheduledFor : Instant
  riskScale : Dec
  minTradeAbs : Dec
  minTradePct : Dec
  feeRate : Dec
  creditSellProceeds : Bool
  day : DayCounters
  /-- Sleeves with signed weights, by trimmed id, with their `max_abs_weight`. -/
  signedSleeves : Std.ExtTreeMap String Dec
  buyingPower : Option Dec

def PlanConfig.boundsFor (cfg : PlanConfig) (sleeve : String) : WeightBounds :=
  match cfg.signedSleeves[trimmed sleeve]? with
  | some maxAbsWeight => .signed maxAbsWeight
  | none => .longOnlyUnit

/-- Any signed sleeve at all switches the margin-aware paths on. -/
def PlanConfig.isSigned (cfg : PlanConfig) : Bool := !cfg.signedSleeves.isEmpty

inductive PlanError where
  | badRiskScale (scale : Dec)
  | badParam (why : String)
  | badShare (sleeve : String)
  | sharesExceedOne (total : Dec)
  | duplicateSleeve (sleeve : String)
  | badWeight (sleeve symbol : String)
  | weightsExceedOne (sleeve : String)
  | duplicateWeight (sleeve symbol : String)
  | instrumentConflict (symbol : String)
  | equityInvalid (equity : Dec)
  | venueRoundedUp (symbol : String) (wished returned : Dec)
  | duplicateTag (tag : String)
  | unknownSignedSleeve (sleeve : String)
  | badMaxAbsWeight (sleeve : String) (max : Dec)
  | badSignedWeight (sleeve symbol : String) (max : Dec)
  | buyingPowerRequired (gross : Dec)
  | grossAboveCap (gross cap : Dec)
  | math (error : MathError)
  deriving DecidableEq

def PlanError.display [DebugText] : PlanError → String
  | badRiskScale scale => s!"risk_scale must be in (0, 1], got {scale.display}"
  | badParam why => s!"bad parameter: {why}"
  | badShare sleeve => s!"sleeve {DebugText.quoted sleeve}: share must be in (0, 1]"
  | sharesExceedOne total => s!"sleeve shares sum to {total.display}, more than 1"
  | duplicateSleeve sleeve => s!"sleeve id {DebugText.quoted sleeve} appears twice"
  | badWeight sleeve symbol =>
      s!"sleeve {DebugText.quoted sleeve}: weight of {symbol} must be in [0, 1]"
  | weightsExceedOne sleeve => s!"sleeve {DebugText.quoted sleeve}: weights sum to more than 1"
  | duplicateWeight sleeve symbol => s!"sleeve {DebugText.quoted sleeve} lists {symbol} twice"
  | instrumentConflict symbol =>
      s!"{symbol} is given different venues or asset classes by different sleeves"
  | equityInvalid equity => s!"account equity {equity.display} is not positive"
  | venueRoundedUp symbol wished returned =>
      s!"venue rules rounded {symbol} UP ({wished.display} -> {returned.display}); rules must only round down"
  | duplicateTag tag => s!"two orders got the same tag {tag}"
  | unknownSignedSleeve sleeve =>
      s!"signed sleeve {DebugText.quoted sleeve} does not name any target sleeve"
  | badMaxAbsWeight sleeve max =>
      s!"signed sleeve {DebugText.quoted sleeve}: max_abs_weight {max.display} must be in (0, {maxAbsWeightCap.display}]"
  | badSignedWeight sleeve symbol max =>
      s!"sleeve {DebugText.quoted sleeve}: |weight| of {symbol} exceeds the sleeve's max_abs_weight {max.display}"
  | buyingPowerRequired gross =>
      s!"the targets need margin (a short, or gross {gross.display} above equity) and no buying_power was supplied"
  | grossAboveCap gross cap =>
      s!"target gross {gross.display} exceeds the mandate's gross cap {cap.display}"
  | math .overflow => "decimal arithmetic overflow"
  | math .badDivisor => "division by a non-positive number"
  | math (.badRatio value why) => s!"ratio {value} cannot be converted: {why}"

/-- Arithmetic errors pass through. -/
instance : MonadLift (Except MathError) (Except PlanError) := ⟨Except.mapError .math⟩

theorem lift_eq_ok {α : Type} {x : Except MathError α} {a : α} :
    (liftM x : Except PlanError α) = .ok a ↔ x = .ok a := by
  cases x <;> simp [liftM, monadLift, MonadLift.monadLift, Except.mapError]

/-- What names an instrument and says where it trades. -/
structure Instrument where
  symbol : String
  venue : String
  assetClass : String
  deriving DecidableEq

structure Managed extends Instrument where
  sleeves : Std.ExtTreeSet String
  /-- Sum over the sleeves of share times weight. -/
  weight : Dec
  /-- At least one sleeve that names the instrument is signed. -/
  signed : Bool

def Managed.sleeveLabel (m : Managed) : String := "+".intercalate m.sleeves.toList

section Validate

variable [UnicodeCase]

def validateParams (account : AccountView) (cfg : PlanConfig) : Except PlanError Unit :=
  if cfg.riskScale ≤ Dec.zero ∨ Dec.one < cfg.riskScale then .error (.badRiskScale cfg.riskScale)
  else if cfg.minTradeAbs.isNegative then .error (.badParam "min_trade_abs must not be negative")
  else if cfg.minTradePct.isNegative ∨ Dec.one ≤ cfg.minTradePct then
    .error (.badParam "min_trade_pct must be in [0, 1)")
  else if cfg.feeRate.isNegative ∨ Dec.one ≤ cfg.feeRate then
    .error (.badParam "fee_rate must be in [0, 1)")
  else if !account.equity.isPositive then .error (.equityInvalid account.equity)
  else if cfg.buyingPower.any Dec.isNegative then
    .error (.badParam "buying_power must not be negative")
  else .ok ()

def validateSigned (targets : List SleeveTarget) (entry : String × Dec) : Except PlanError Unit :=
  if !targets.any fun (t : SleeveTarget) => trimmed t.sleeve == entry.1 then
    .error (.unknownSignedSleeve entry.1)
  else if entry.2 ≤ Dec.zero ∨ maxAbsWeightCap < entry.2 then
    .error (.badMaxAbsWeight entry.1 entry.2)
  else .ok ()

def validateWeight (sleeve : String) (bounds : WeightBounds) (w : TargetWeight) :
    Except PlanError Unit :=
  match bounds with
  | .longOnlyUnit =>
      if w.weight.isNegative ∨ Dec.one < w.weight then .error (.badWeight sleeve w.symbol)
      else .ok ()
  | .signed maxAbsWeight => do
      let size ← DecMath.abs w.weight
      if maxAbsWeight < size then .error (.badSignedWeight sleeve w.symbol maxAbsWeight)
      else .ok ()

/-- The symbols seen in the sleeve so far and the sum of their weights. -/
def validateWeights (sleeve : String) (bounds : WeightBounds) (seen : Std.ExtTreeSet String)
    (total : Dec) : List TargetWeight → Except PlanError Dec
  | [] => .ok total
  | w :: ws => do
      validateWeight sleeve bounds w
      if seen.contains (upperName w.symbol) then .error (.duplicateWeight sleeve w.symbol)
      else do
        let total ← DecMath.add total w.weight
        validateWeights sleeve bounds (seen.insert (upperName w.symbol)) total ws

def validateSleeve (cfg : PlanConfig) (t : SleeveTarget) : Except PlanError Unit := do
  let bounds := cfg.boundsFor t.sleeve
  let total ← validateWeights t.sleeve bounds ∅ Dec.zero t.weights
  if bounds = .longOnlyUnit ∧ Dec.one < total then .error (.weightsExceedOne t.sleeve) else .ok ()

/-- The sleeves seen so far and the sum of their shares. -/
def validateSleeves (cfg : PlanConfig) (seen : Std.ExtTreeSet String) (total : Dec) :
    List SleeveTarget → Except PlanError Dec
  | [] => .ok total
  | t :: ts =>
      if seen.contains (trimmed t.sleeve) then .error (.duplicateSleeve t.sleeve)
      else if t.share ≤ Dec.zero ∨ Dec.one < t.share then .error (.badShare t.sleeve)
      else do
        let total ← DecMath.add total t.share
        validateSleeve cfg t
        validateSleeves cfg (seen.insert (trimmed t.sleeve)) total ts

def validate (targets : List SleeveTarget) (account : AccountView) (cfg : PlanConfig) :
    Except PlanError Unit := do
  validateParams account cfg
  cfg.signedSleeves.toList.forM (validateSigned targets)
  let total ← validateSleeves cfg ∅ Dec.zero targets
  if Dec.one < total then .error (.sharesExceedOne total) else .ok ()

end Validate

section Aggregate

variable [UnicodeCase]

/-- One weight of a sleeve joins what other sleeves want of the instrument. -/
def aggregateWeight (cfg : PlanConfig) (t : SleeveTarget) (managed : Std.ExtTreeMap String Managed)
    (w : TargetWeight) : Except PlanError (Std.ExtTreeMap String Managed) := do
  let contribution ← DecMath.mul t.share w.weight
  let signed := decide (cfg.boundsFor t.sleeve ≠ .longOnlyUnit)
  let symbol := upperName w.symbol
  let venue := lowerName t.venue
  let assetClass := lowerName t.assetClass
  match managed[symbol]? with
  | some m =>
      if m.venue ≠ venue ∨ m.assetClass ≠ assetClass then .error (.instrumentConflict symbol)
      else do
        let weight ← DecMath.add m.weight contribution
        .ok (managed.insert symbol
          { m with weight, signed := m.signed || signed,
                   sleeves := m.sleeves.insert (trimmed t.sleeve) })
  | none =>
      .ok (managed.insert symbol
        { symbol, venue, assetClass, sleeves := .ofList [trimmed t.sleeve],
          weight := contribution, signed })

def aggregate (targets : List SleeveTarget) (cfg : PlanConfig) :
    Except PlanError (Std.ExtTreeMap String Managed) :=
  targets.foldlM (fun managed t => t.weights.foldlM (aggregateWeight cfg t) managed) ∅

/-- The entry of an instrument that no sleeve wanted before. -/
def Managed.wanted (cfg : PlanConfig) (t : SleeveTarget) (w : TargetWeight) (contribution : Dec) : Managed where
  symbol := upperName w.symbol
  venue := lowerName t.venue
  assetClass := lowerName t.assetClass
  sleeves := .ofList [trimmed t.sleeve]
  weight := contribution
  signed := decide (cfg.boundsFor t.sleeve ≠ .longOnlyUnit)

/-- The entry of an instrument that another sleeve wants too. -/
def Managed.join (m : Managed) (cfg : PlanConfig) (t : SleeveTarget) (weight : Dec) : Managed :=
  { m with
    weight
    signed := m.signed || decide (cfg.boundsFor t.sleeve ≠ .longOnlyUnit)
    sleeves := m.sleeves.insert (trimmed t.sleeve) }

variable {cfg : PlanConfig} {t : SleeveTarget} {managed managed' : Std.ExtTreeMap String Managed} {w : TargetWeight}

theorem aggregateWeight_cases (h : aggregateWeight cfg t managed w = .ok managed') :
    ∃ contribution, DecMath.mul t.share w.weight = .ok contribution ∧
      ((∃ m weight, managed[upperName w.symbol]? = some m ∧ m.venue = lowerName t.venue ∧
          m.assetClass = lowerName t.assetClass ∧ DecMath.add m.weight contribution = .ok weight ∧
          managed' = managed.insert (upperName w.symbol) (m.join cfg t weight)) ∨
        managed[upperName w.symbol]? = none ∧
          managed' = managed.insert (upperName w.symbol) (.wanted cfg t w contribution)) := by
  obtain ⟨contribution, product, h⟩ := bind_eq_ok.1 h
  rw [lift_eq_ok] at product
  refine ⟨contribution, product, ?_⟩
  simp only at h
  split at h
  next m known =>
    split at h
    next => cases h
    next same =>
      obtain ⟨weight, added, h⟩ := bind_eq_ok.1 h
      rw [lift_eq_ok] at added
      rw [not_or, not_not, not_not] at same
      exact .inl ⟨m, weight, known, same.1, same.2, added, (Except.ok.inj h).symm⟩
  next absent => exact .inr ⟨absent, (Except.ok.inj h).symm⟩

/-- What holds of the entries so far and of the new one holds of all. -/
theorem aggregateWeight_entries {P : String → Managed → Prop} (h : aggregateWeight cfg t managed w = .ok managed')
    (kept : ∀ k m, managed[k]? = some m → P k m)
    (joined : ∀ m contribution weight, managed[upperName w.symbol]? = some m →
      DecMath.mul t.share w.weight = .ok contribution → DecMath.add m.weight contribution = .ok weight →
        P (upperName w.symbol) (m.join cfg t weight))
    (first : ∀ contribution, DecMath.mul t.share w.weight = .ok contribution →
      P (upperName w.symbol) (.wanted cfg t w contribution)) :
    ∀ k m, managed'[k]? = some m → P k m := by
  have entry : ∃ m', managed' = managed.insert (upperName w.symbol) m' ∧ P (upperName w.symbol) m' := by
    obtain ⟨contribution, product, ⟨m, weight, known, -, -, added, same⟩ | ⟨-, same⟩⟩ := aggregateWeight_cases h
    · exact ⟨_, same, joined m contribution weight known product added⟩
    · exact ⟨_, same, first contribution product⟩
  obtain ⟨m', rfl, holds⟩ := entry
  intro k m found
  rw [Std.ExtTreeMap.getElem?_insert] at found
  split at found
  next same =>
    obtain rfl := Option.some.inj found
    exact Std.LawfulEqCmp.eq_of_compare same ▸ holds
  next => exact kept k m found

theorem aggregate_entries {targets : List SleeveTarget} {P : String → Managed → Prop}
    (h : aggregate targets cfg = .ok managed)
    (joined : ∀ t ∈ targets, ∀ w ∈ t.weights, ∀ m weight, P (upperName w.symbol) m →
      P (upperName w.symbol) (m.join cfg t weight))
    (first : ∀ t ∈ targets, ∀ w ∈ t.weights, ∀ contribution, P (upperName w.symbol) (.wanted cfg t w contribution)) :
    ∀ k m, managed[k]? = some m → P k m := by
  refine foldlM_invariant (P := fun managed => ∀ k m, managed[k]? = some m → P k m) (by simp) ?_ h
  intro t target start finish before step
  refine foldlM_invariant (P := fun managed => ∀ k m, managed[k]? = some m → P k m) before ?_ step
  intro w weight start' finish' before' step'
  refine aggregateWeight_entries step' before' (fun m _ sum known _ _ => ?_) fun contribution _ => ?_
  · exact joined t target w weight m sum (before' _ m known)
  · exact first t target w weight contribution

end Aggregate

/-- Round to 8 decimals toward zero, so that a short is not made bigger. -/
def roundTowardZero (v : Dec) : Except MathError Dec :=
  if v.isNegative then do
    let size ← DecMath.abs v
    let down ← DecMath.roundDp size 8 .floor
    DecMath.neg down
  else DecMath.roundDp v 8 .floor

def targetNotional (cfg : PlanConfig) (capitalBase : Dec) (m : Managed) : Except MathError Dec := do
  let wanted ← DecMath.mul capitalBase m.weight
  let scaled ← DecMath.mul wanted cfg.riskScale
  roundTowardZero scaled

def feeFor (notional rate : Dec) : Except MathError Dec := do
  let fee ← DecMath.mul notional rate
  DecMath.roundDp fee 8 .ceil

end RebalancerCore
