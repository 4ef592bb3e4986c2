import SignalEngine.RebalancerStore.AccountSource

/-! # From rows to accounts

A point is run only inside the envelope of its entry and a cell only as the platform
registered it. The mode is derived from the mandate. Every pair of the scope is decided
once, from its own rows.
-/

open BrokerAdapters Text MandateCore Ascending

namespace RebalancerStore.AccountSource

open RebalancerCore (Instant MandateHash MandateEnvelope MandateStatus)
open RebalancerRun (SleeveKind SleeveSpec ExecutionMode)

section Decision

variable [UnicodeCase] [DebugText] [ExternalDecimal] [MandateHash] [UuidReader] [JsonDisplay]

/-! ## Points and cells -/

/-- The largest tranche that is ever honoured, whatever an envelope says. -/
def maxTrancheSessions : Nat := 5

def lookbackKey : SleeveKind → String
  | .etfTrend => "sma_month_ends"
  | .cryptoTrend => "sma_days"
  | .etfMomentum => "lookback_bars"

def plainTicker (inst : String) : Bool :=
  !inst.isEmpty && inst.toList.all fun c => c.isUpper || c.isDigit || c == '.'

/-- Nothing overridden, or overridden by what is published. -/
def lookbackPublished (overridden published : Option Json) : Bool :=
  match overridden, published with
  | none, _ => true
  | some v, some p => v.same p
  | some _, none => false

def lookbackOf (v : Json) : Option Nat := v.asU64.filter fun n => 1 ≤ n ∧ n ≤ 500

/-- The lookback that is run: the published one, or the value that overrides it. -/
def overrideLookback (bad : Json → ExclusionReason) (published : Bool) : Option Json → Checked (Option Nat)
  | none => .ok none
  | some v => if published then .ok none else (orRefuse (bad v) (lookbackOf v)).map some

/-- A check that is skipped where the condition holds. -/
def checkUnless (skip : Bool) (check : Checked Unit) : Checked Unit := if skip then .ok () else check

/-- What the runtime has data and a venue for. -/
def checkPointInstrument (spec : SleeveSpec) (inst : String) : Checked Unit :=
  let out (m : String) : ExclusionReason := .pointOutsideEnvelope s!"sleeve {spec.id}: {m}"
  match spec.kind with
  | .etfTrend => refuseIf (plainTicker inst = false) (out s!"'{inst}' is not a plain exchange-traded ticker")
  | .etfMomentum => .error (out "a momentum rule runs only as a registered cell, never at an implementation point")
  | .cryptoTrend =>
      match splitFirst (· == '/') inst.toList with
      | none => .error (out s!"'{inst}' is not a BASE/QUOTE pair")
      | some (base, quote) =>
          refuseIf (base = [] ∨ String.ofList quote ≠ spec.quote)
            (out s!"'{inst}': quote substitution is not served by this runtime (the sleeve's quote is {spec.quote})")

/-- The sleeve at a point that is shown to be covered; the published point changes nothing. -/
def applyPoint (platform : Platform) (spec : SleeveSpec) (point : PlanPoint) : Checked SleeveSpec := do
  let out (m : String) : ExclusionReason := .pointOutsideEnvelope s!"sleeve {spec.id}: {m}"
  let lib ← loadLibrary platform
  let entry ← orRefuse (.entryMismatch s!"the platform has no library entry {point.entryId} version {point.entryVersion}")
    (lib.find? fun e => e.id == point.entryId && e.version == point.entryVersion)
  refuseIf (point.instruments.length ≠ entry.instruments.length)
    (out s!"the point names {point.instruments.length} instrument(s) but the entry has {entry.instruments.length} slot(s)")
  let key := lookbackKey spec.kind
  refuseOther [key] (fun extra => out s!"the point overrides '{extra}', which this runtime does not honour (only '{key}')")
    point.parameters
  let overridden := point.parameters.lookup key
  let lookbackIsPublished := lookbackPublished overridden (entry.parameters.lookup key)
  let instrumentsArePublished := point.instruments == entry.instruments
  if instrumentsArePublished && point.trancheSessions == 0 && lookbackIsPublished then
    return spec
  else do
    refuseIf (maxTrancheSessions < point.trancheSessions)
      (out s!"tranche {point.trancheSessions} exceeds the maximum of {maxTrancheSessions} sessions")
    orReason out (platform.envelopes point)
    let lookback ← overrideLookback
      (fun v => out s!"'{key}' = {JsonDisplay.display v} is not a lookback in 1..=500") lookbackIsPublished overridden
    checkUnless instrumentsArePublished (point.instruments.forM (checkPointInstrument spec))
    return { spec with
      instruments := if instrumentsArePublished then [] else point.instruments
      trancheSessions := point.trancheSessions
      lookback }

/-- The registered form of the cells of a kind, and the fewest instruments it runs on. -/
def checkCellForm (spec : SleeveSpec) (verified : VerifiedCell) : Checked Unit :=
  let notExecutable (m : String) : ExclusionReason := .cellNotExecutable s!"sleeve {spec.id}: {m}"
  match spec.kind with
  | .etfTrend => do
      refuseIf (verified.weightPolicy ≠ .equalOverN)
        (notExecutable s!"weight policy {verified.weightPolicy.debug} is not applied by this runtime (only equal_1_over_N)")
      refuseIf (verified.instruments.length < 5)
        (notExecutable s!"a trend cell needs at least 5 instruments, the registered universe has {verified.instruments.length}")
  | .etfMomentum => do
      refuseIf (verified.weightPolicy ≠ .fixedConstant)
        (notExecutable
          s!"a momentum cell has no weight policy to apply; {verified.weightPolicy.debug} is not its registered form (fixed_constant)")
      refuseIf (verified.instruments.length < 2)
        (notExecutable s!"a momentum cell ranks at least 2 instruments, the registered universe has {verified.instruments.length}")
  | .cryptoTrend => .error (notExecutable "only long-only ETF cells execute")

def checkCellInstrument (spec : SleeveSpec) (inst : String) : Checked Unit :=
  refuseIf (plainTicker inst = false)
    (.cellNotExecutable s!"sleeve {spec.id}: '{inst}' is not a plain exchange-traded ticker")

def cellClaim (entry : PinnedEntry) (cell : PlanCell) : CellClaim :=
  ⟨entry.entryId, entry.entryVersion, entry.entryHash, cell.universeHash, cell.cellHash, cell.weightPolicy⟩

/-- The sleeve on the instruments the platform registered for its cell. -/
def applyCell (platform : Platform) (spec : SleeveSpec) (entry : PinnedEntry) (cell : PlanCell) : Checked SleeveSpec := do
  let verified ← orReason .cellRefused (platform.cells (cellClaim entry cell))
  checkCellForm spec verified
  verified.instruments.forM (checkCellInstrument spec)
  return { spec with instruments := verified.instruments, trancheSessions := 0, lookback := none }

def pointed (platform : Platform) (p : ParsedSleeve) : Checked ParsedSleeve :=
  match p.point with
  | none => .ok p
  | some point => do
      let spec ← applyPoint platform p.spec point
      return { p with spec }

def celled (platform : Platform) (p : ParsedSleeve) : Checked ParsedSleeve :=
  match p.cell with
  | none => .ok p
  | some cell => do
      let spec ← applyCell platform p.spec p.entry cell
      return { p with spec }

/-! ## The gross of a plan -/

section Gross

open FloatLike
open RebalancerCore.DecMath (F64)

/-- `to_f64` -/
def toF64 (d : Dec) : Double := (ofRat d.units.val : Double) / ofRat (10 ^ d.scale)

/-- The double whose shortest text this is. -/
def double (v : F64) : Double :=
  match v.shown with
  | .nan => FloatArg.nan
  | .infinite negative => .infinite negative
  | .finite .. => ofRat v.value

def sixPlaces : Double → String
  | .nan => "NaN"
  | .infinite negative => if negative then "-inf" else "inf"
  | .finite q =>
      let millionths := (Binary64.nearestEven (|q| * 1000000)).toNat
      let digits := toString (millionths % 1000000)
      let sign := if q < 0 then "-" else ""
      let zeros := String.ofList (List.replicate (6 - digits.length) '0')
      s!"{sign}{millionths / 1000000}.{zeros}{digits}"

def trendWeightPolicy (sleeve : SleeveSpec) : WeightPolicy :=
  if sleeve.instruments.isEmpty then .fixedConstant else .equalOverN

def longWeight (policy : WeightPolicy) (n : Nat) (fixedConstant : Double) : Double :=
  match policy with
  | .fixedConstant => fixedConstant
  | .equalOverN => (ofRat 1 : Double) / ofRat n

def trendMaxGross (policy : WeightPolicy) (n : Nat) (fixedConstant : Double) : Double :=
  longWeight policy n fixedConstant * ofRat n

/-- The instruments a sleeve holds under a published rule. -/
def PublishedRule.held (rule : PublishedRule) (sleeve : SleeveSpec) : Nat :=
  if sleeve.instruments.isEmpty then rule.symbols else sleeve.instruments.length

def sleeveMaxGross (platform : Platform) (sleeve : SleeveSpec) : Double :=
  let perUnit := match sleeve.kind with
    | .etfTrend =>
        trendMaxGross (trendWeightPolicy sleeve) (platform.etf.held sleeve) platform.etf.weightPerInstrument
    | .cryptoTrend => platform.crypto.weightPerInstrument * ofRat (platform.crypto.held sleeve)
    | .etfMomentum => ofRat 1
  perUnit * toF64 sleeve.share

def checkCellGross (platform : Platform) (sleeves : List SleeveSpec) (body : MandateBody) : Checked Unit :=
  let planned := (sleeves.map (sleeveMaxGross platform)).foldl (· + ·) 0
  let cap := body.exposure.maxGross
  refuseIf (double cap + ofRat (1 / 10 ^ 9) < planned) (.cellGrossExceedsMandate
    s!"the plan can reach {sixPlaces planned}x gross but the mandate's exposure.max_gross is {cap.display}")

end Gross

/-! ## The mode -/

def deriveMode (body : MandateBody) (execution : PlanExecution) : Checked ExecutionMode :=
  match body.autonomy.level with
  | .l3 => .error .autonomyL3
  | .l0 | .l1 => .ok .assisted
  | .l2 =>
      match execution with
      | .assisted => .ok .assisted
      | .paperOrders => if .placeOrders ∈ body.autonomy.may then .ok .live else .error .ordersNotGranted

/-- A proposal asks for orders when the mandate grants them. -/
def askedExecution (body : MandateBody) : PlanExecution :=
  if body.autonomy.level = .l2 ∧ .placeOrders ∈ body.autonomy.may then .paperOrders else .assisted

/-! ## One account -/

structure CheckedMandate where
  row : MandateRow
  body : MandateBody
  version : Nat
  effectiveFrom : Instant
  reviewBy : Instant

/-- `validate_json`, with the violations written out. -/
def validateJson (platform : Platform) (value : Json) : Checked MandateBody :=
  match platform.mandateFromValue value with
  | .error e => .error (.mandateBodyInvalid s!"mandate: could not be read: {e}")
  | .ok body =>
      match validate body with
      | [] => .ok body
      | violations => .error (.mandateBodyInvalid ("; ".intercalate (violations.map fun v => s!"{v.field}: {v.message}")))

def checkCredential (target : Target) (rows : Rows) : Checked CredentialRow := do
  let cred ← orRefuse .credentialNotFound
    (rows.credentials.find? fun c => c.id == target.accountId && c.tenantId == target.tenantId)
  refuseIf cred.deletedAt.isSome .credentialDeleted
  refuseIf (¬ cred.isEnabled) .credentialDisabled
  refuseIf (¬ cred.isTestnet) .notPaperCredential
  refuseIf (toAsciiLowercase cred.exchange ∉ alpacaExchanges) (.notAlpaca cred.exchange)
  return cred

def checkMandate (platform : Platform) (target : Target) (rows : Rows) : Checked CheckedMandate := do
  let row ← orRefuse .noActiveMandate
    (rows.mandates.find? fun m => m.accountId == target.accountId && m.tenantId == target.tenantId && m.status == "active")
  match row.grantedAt, row.effectiveFrom, row.reviewBy with
  | some _, some effectiveFrom, some reviewBy => do
      let body ← validateJson platform row.body
      refuseIf (MandateHash.canonicalHash body ≠ row.bodyHash) .mandateHashMismatch
      refuseIf (row.version < 0) (.mandateBodyInvalid "negative mandate version")
      return ⟨row, body, row.version.toNat, effectiveFrom, reviewBy⟩
  | _, _, _ => .error .mandateNotSigned

def activeAccount (target : Target) (mandate : CheckedMandate) (sleeves : List SleeveSpec) (mode : ExecutionMode) :
    ActiveAccount where
  accountId := Uuid.display target.accountId
  tenantId := Uuid.display target.tenantId
  mandate := mandate.body
  envelope := ⟨mandate.version, .active, mandate.effectiveFrom, mandate.reviewBy⟩
  planApproved := true
  sleeves
  mode

def evaluatePilotPlan (platform : Platform) (target : Target) (cred : CredentialRow) (mandate : CheckedMandate)
    (plan : PlanRow) (proposalPlansPresent : Bool) : Checked PilotAccount := do
  refuseIf (plan.venueEnvironment ≠ "paper") (.planNotPaper plan.venueEnvironment)
  refuseIf (plan.origin ≠ "owner_pilot") (.planNotPilotOrigin plan.origin)
  refuseIf (plan.mandateId ≠ mandate.row.id ∨ plan.mandateVersion ≠ mandate.row.version)
    (.planBoundToOtherMandate plan.mandateVersion mandate.row.version)
  refuseIf proposalPlansPresent .strategyPlanPresent
  let execution ← orRefuse (.planBodyInvalid s!"unknown execution {DebugText.quoted plan.execution}")
    (PlanExecution.parse plan.execution)
  let sleeves ← parseSleeves plan
  checkEntry platform plan.entryId plan.entryVersion plan.entryHash
  let mode ← deriveMode mandate.body execution
  return {
    active := activeAccount target mandate sleeves mode
    origin := .ownerPilot
    planId := plan.id
    execution
    credentialLabel := cred.label
    credentialFingerprint := some plan.credentialFingerprint
    entries := [⟨plan.entryId, plan.entryVersion.toNat, plan.entryHash⟩] }

/-- `i32::try_from(v).unwrap_or(i32::MAX)` -/
def clampVersion (v : Nat) : Int := min v (2 ^ 31 - 1)

def checkPinned (platform : Platform) (p : ParsedSleeve) : Checked Unit :=
  checkProposalEntry platform p.entry.entryId (clampVersion p.entry.entryVersion) p.entry.entryHash

def evaluateProposalPlan (platform : Platform) (target : Target) (cred : CredentialRow) (mandate : CheckedMandate)
    (plan : ProposalPlanRow) (others : List ProposalPlanRow) : Checked PilotAccount := do
  refuseIf (others ≠ []) (.ambiguousProposalPlans (others.length + 1))
  refuseIf (plan.mode ≠ servablePlanMode ∨ plan.state ≠ servablePlanState) (.proposalPlanNotServable plan.mode plan.state)
  refuseIf (plan.mandateId ≠ mandate.row.id ∨ plan.mandateVersion ≠ mandate.row.version)
    (.planBoundToOtherMandate plan.mandateVersion mandate.row.version)
  let parsed ← parseProposalSleeves plan
  parsed.forM (checkPinned platform)
  let parsed ← parsed.mapM (pointed platform)
  let parsed ← parsed.mapM (celled platform)
  let sleeves := parsed.map ParsedSleeve.spec
  checkUnless (!parsed.any fun p => p.cell.isSome) (checkCellGross platform sleeves mandate.body)
  let execution := askedExecution mandate.body
  let mode ← deriveMode mandate.body execution
  return {
    active := activeAccount target mandate sleeves mode
    origin := .proposal
    planId := plan.id
    execution
    credentialLabel := cred.label
    credentialFingerprint := none
    entries := parsed.map ParsedSleeve.entry }

/-- The plan with the highest number, the last of several. -/
def newestPlan (plans : List PlanRow) : Option PlanRow :=
  plans.foldl (fun best p => match best with
    | none => some p
    | some b => if b.seq ≤ p.seq then some p else some b) none

def pilotPlan (target : Target) (rows : Rows) : Option PlanRow :=
  newestPlan (rows.plans.filter fun p => p.accountId == target.accountId && p.tenantId == target.tenantId)

def openProposals (target : Target) (rows : Rows) : List ProposalPlanRow :=
  rows.proposalPlans.filter fun p => p.accountId == target.accountId && p.tenantId == target.tenantId && p.state != "closed"

def evaluateOne (platform : Platform) (rows : Rows) (serveProposalPlans : Bool) (target : Target) : Checked PilotAccount := do
  let cred ← checkCredential target rows
  let mandate ← checkMandate platform target rows
  match pilotPlan target rows, openProposals target rows with
  | some plan, proposals => evaluatePilotPlan platform target cred mandate plan (!proposals.isEmpty)
  | none, plan :: others =>
      if serveProposalPlans then evaluateProposalPlan platform target cred mandate plan others else .error .noPilotPlan
  | none, [] => .error .noPilotPlan

/-! ## The enumeration -/

/-- The outcome of a pair is added to the accounts or to the exclusions. -/
def Enumeration.push (out : Enumeration) (target : Target) : Checked PilotAccount → Enumeration
  | .ok a => { out with accounts := out.accounts ++ [a] }
  | .error reason => { out with exclusions := out.exclusions ++ [⟨target.tenantId, target.accountId, reason⟩] }

def evaluateWithCells (platform : Platform) (targets : List Target) (rows : Rows) (serveProposalPlans : Bool) : Enumeration :=
  targets.foldl (fun out target => out.push target (evaluateOne platform rows serveProposalPlans target)) ⟨[], []⟩

def ProposalPlanRow.target (p : ProposalPlanRow) : Target := ⟨p.tenantId, p.accountId⟩

def targetsFor (scope : AccountScope) (proposalPlans : List ProposalPlanRow) : List Target :=
  let proposed := if scope.servesProposalPlans then
      (proposalPlans.filter fun p => p.state != "closed").map ProposalPlanRow.target
    else []
  ascending (scope.pilotTargets ++ proposed)

/-- The tables, each in the order in which its query answers. -/
structure Database where
  exchangeCredentials : List CredentialRow
  mandates : List MandateRow
  rebalancerPilotPlans : List PlanRow
  strategyPlans : List ProposalPlanRow

def CredentialRow.target (c : CredentialRow) : Target := ⟨c.tenantId, c.id⟩

def MandateRow.target (m : MandateRow) : Target := ⟨m.tenantId, m.accountId⟩

def PlanRow.target (p : PlanRow) : Target := ⟨p.tenantId, p.accountId⟩

/-- The plans of every tenant where proposals are served, else those of the pairs of the pilot. -/
def fetchProposalPlans (scope : AccountScope) (db : Database) : List ProposalPlanRow :=
  if scope.servesProposalPlans then db.strategyPlans.filter fun p => p.state != "closed"
  else db.strategyPlans.filter fun p => scope.pilotTargets.elem p.target && p.state != "closed"

/-- Every other query is bound to the pairs. -/
def fetch (scope : AccountScope) (db : Database) : List Target × Rows :=
  let proposalPlans := fetchProposalPlans scope db
  let targets := targetsFor scope proposalPlans
  (targets, {
    credentials := db.exchangeCredentials.filter fun c => targets.elem c.target
    mandates := db.mandates.filter fun m => targets.elem m.target && m.status == "active"
    plans := db.rebalancerPilotPlans.filter fun p => targets.elem p.target
    proposalPlans })

def enumerate (platform : Platform) (scope : AccountScope) (db : Database) : Enumeration :=
  let read := fetch scope db
  evaluateWithCells platform read.1 read.2 scope.servesProposalPlans

/-- What the driver is handed. -/
def activeAccounts (platform : Platform) (scope : AccountScope) (db : Database) : List ActiveAccount :=
  (enumerate platform scope db).accounts.map PilotAccount.active

end Decision

end RebalancerStore.AccountSource
