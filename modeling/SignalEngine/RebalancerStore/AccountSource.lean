import SignalEngine.Lib.Ascending
import SignalEngine.Lib.FloatLike
import SignalEngine.Lib.Hex
import SignalEngine.RebalancerCore.Compile
import SignalEngine.RebalancerRun.Decision
import Mathlib.Data.Prod.Lex

/-! # Which accounts are run

Rows in, the accounts that may be run and the reasons of those that may not be out. An
account runs on a paper credential of its own tenant, under the active signed mandate of
that account, by exactly one plan that is bound to that version of the mandate.
-/

open BrokerAdapters Text MandateCore Ascending Hex

namespace RebalancerStore.AccountSource

open RebalancerCore (Instant MandateHash MandateEnvelope MandateStatus)
open RebalancerCore.DecMath (F64)
open RebalancerRun (SleeveKind SleeveSpec ExecutionMode)

/-! ## JSON, as the plans carry it -/

/-- As a number; the order of the bytes is the order of the numbers. -/
abbrev Uuid := Fin (2 ^ 128)

instance (priority := high) uuids_ne : NeZero (2 ^ 128 : Nat) := ⟨by decide⟩

def Uuid.display (id : Uuid) : String := String.ofList (hyphenated [8, 4, 4, 4] (hexDigits 32 id.val))

theorem Uuid.display_injective {a b : Uuid} (same : Uuid.display a = Uuid.display b) : a = b := by
  have digits := hyphenated_injective (by simp) (String.ofList_injective same)
  exact Fin.ext (hexDigits_injective (by simp) (by simp) digits)

/-- The texts an identifier is read from. -/
class UuidReader where
  parse : String → Option Uuid

/-- The integer, where the number is written as one, and the float nearest to it. -/
structure JsonNumber where
  int : Option Int
  float : F64
  deriving DecidableEq

inductive Json where
  | null
  | bool (b : Bool)
  | number (n : JsonNumber)
  | string (s : String)
  | array (items : List Json)
  /-- In the order of the keys. -/
  | object (fields : List (String × Json))

/-- How a value is written. -/
class JsonDisplay where
  display : Json → String

namespace Json

def get : Json → String → Option Json
  | object fields, key => fields.lookup key
  | _, _ => none

def asStr : Json → Option String
  | string s => some s
  | _ => none

def asArray : Json → Option (List Json)
  | array items => some items
  | _ => none

def asObject : Json → Option (List (String × Json))
  | object fields => some fields
  | _ => none

def asI64 : Json → Option Int
  | number n => n.int.filter fun i => -2 ^ 63 ≤ i ∧ i < 2 ^ 63
  | _ => none

def asU64 : Json → Option Nat
  | number n => (n.int.filter fun i => 0 ≤ i ∧ i < 2 ^ 64).map Int.toNat
  | _ => none

def asF64 : Json → Option F64
  | number n => some n.float
  | _ => none

mutual
def same : Json → Json → Bool
  | null, null => true
  | bool a, bool b => a == b
  | number a, number b => a == b
  | string a, string b => a == b
  | array a, array b => sameItems a b
  | object a, object b => sameFields a b
  | _, _ => false

def sameItems : List Json → List Json → Bool
  | [], [] => true
  | a :: as, b :: bs => same a b && sameItems as bs
  | _, _ => false

def sameFields : List (String × Json) → List (String × Json) → Bool
  | [], [] => true
  | (k, a) :: as, (l, b) :: bs => k == l && same a b && sameFields as bs
  | _, _ => false
end

def missing : Option Json → Option Json
  | none | some null => none
  | some v => some v

end Json

/-! ## Scope -/

structure Target where
  tenantId : Uuid
  accountId : Uuid
  deriving DecidableEq

def Target.key (t : Target) : Uuid ×ₗ Uuid := toLex (t.tenantId, t.accountId)

theorem Target.key_injective : Function.Injective Target.key := by
  intro a b same
  have parts := Prod.ext_iff.1 (toLex.injective same)
  cases a
  cases b
  simp only [Target.mk.injEq]
  exact parts

/-- By tenant, then by account. -/
instance : LinearOrder Target := .lift' Target.key Target.key_injective

structure PilotAllowList where
  tenantId : Uuid
  accountIds : List Uuid
  tenant_ne : tenantId ≠ 0
  ids_ne : accountIds ≠ []
  proper : ∀ a ∈ accountIds, a ≠ 0

namespace PilotAllowList

/-- An empty list is an error, and never stands for all accounts. -/
def new (tenantId : Uuid) (ids : List Uuid) : Except String PilotAllowList :=
  let accountIds := ascending ids
  if tenant : tenantId = 0 then .error "the pilot tenant id must not be the nil UUID"
  else if empty : accountIds = [] then
    .error "the pilot allow-list names no account; an empty list never means \"all accounts\""
  else if proper : ∀ a ∈ accountIds, a ≠ 0 then .ok ⟨tenantId, accountIds, tenant, empty, proper⟩
  else .error "the pilot account list contains the nil UUID"

def targets (p : PilotAllowList) : List Target := p.accountIds.map fun a => ⟨p.tenantId, a⟩

end PilotAllowList

inductive AccountScope where
  | pilot (allow : PilotAllowList)
  | pilotAndProposals (pilot : Option PilotAllowList)

namespace AccountScope

def servesProposalPlans : AccountScope → Bool
  | pilot _ => false
  | pilotAndProposals _ => true

def allowed : AccountScope → Option PilotAllowList
  | pilot allow => some allow
  | pilotAndProposals allow => allow

def pilotTargets (scope : AccountScope) : List Target := (scope.allowed.map PilotAllowList.targets).getD []

end AccountScope

/-! ## Rows -/

structure CredentialRow where
  id : Uuid
  tenantId : Uuid
  exchange : String
  label : String
  isTestnet : Bool
  isEnabled : Bool
  deletedAt : Option Instant

structure MandateRow where
  id : Uuid
  tenantId : Uuid
  accountId : Uuid
  version : Int
  status : String
  body : Json
  bodyHash : String
  grantedAt : Option Instant
  effectiveFrom : Option Instant
  reviewBy : Option Instant

/-- A plan its owner wrote. -/
structure PlanRow where
  id : Uuid
  seq : Int
  tenantId : Uuid
  accountId : Uuid
  mandateId : Uuid
  mandateVersion : Int
  origin : String
  venueEnvironment : String
  execution : String
  body : Json
  entryId : String
  entryVersion : Int
  entryHash : String
  credentialFingerprint : String

/-- A plan made of an approved proposal. -/
structure ProposalPlanRow where
  id : Uuid
  tenantId : Uuid
  proposalId : Uuid
  accountId : Uuid
  mandateId : Uuid
  mandateVersion : Int
  mode : String
  state : String
  body : Json

structure Rows where
  credentials : List CredentialRow
  mandates : List MandateRow
  plans : List PlanRow
  proposalPlans : List ProposalPlanRow

/-! ## Outcomes -/

inductive WeightPolicy where
  | fixedConstant
  | equalOverN
  deriving DecidableEq

/-- `{:?}` -/
def WeightPolicy.debug : WeightPolicy → String
  | fixedConstant => "FixedConstant"
  | equalOverN => "EqualOverN"

inductive PlanExecution where
  | assisted
  | paperOrders
  deriving DecidableEq

def PlanExecution.parse (s : String) : Option PlanExecution :=
  if s = "assisted" then some assisted else if s = "paper_orders" then some paperOrders else none

inductive CellRefusal where
  | notRegistered (detail : String)
  | notRunnable (detail : String)

inductive ExclusionReason where
  | credentialNotFound
  | credentialDeleted
  | credentialDisabled
  | notPaperCredential
  | notAlpaca (exchange : String)
  | noActiveMandate
  | mandateNotSigned
  | mandateBodyInvalid (why : String)
  | mandateHashMismatch
  | autonomyL3
  | ordersNotGranted
  | noPilotPlan
  | planBoundToOtherMandate (planVersion activeVersion : Int)
  | planNotPaper (environment : String)
  | planNotPilotOrigin (origin : String)
  | strategyPlanPresent
  | planBodyInvalid (why : String)
  | unsupportedSleeve (why : String)
  | entryMismatch (why : String)
  | ambiguousProposalPlans (count : Nat)
  | proposalPlanNotServable (mode state : String)
  | pointOutsideEnvelope (why : String)
  | cellRefused (refusal : CellRefusal)
  | cellNotExecutable (why : String)
  | cellGrossExceedsMandate (why : String)

abbrev Checked (α : Type) := Except ExclusionReason α

structure Exclusion where
  tenantId : Uuid
  accountId : Uuid
  reason : ExclusionReason

structure PinnedEntry where
  entryId : String
  entryVersion : Nat
  entryHash : String

inductive PlanOrigin where
  | ownerPilot
  | proposal
  deriving DecidableEq

structure ActiveAccount where
  accountId : String
  tenantId : String
  mandate : MandateBody
  envelope : MandateEnvelope
  planApproved : Bool
  sleeves : List SleeveSpec
  mode : ExecutionMode

structure PilotAccount where
  active : ActiveAccount
  origin : PlanOrigin
  planId : Uuid
  execution : PlanExecution
  credentialLabel : String
  credentialFingerprint : Option String
  /-- In the order of the sleeves. -/
  entries : List PinnedEntry

structure Enumeration where
  accounts : List PilotAccount
  exclusions : List Exclusion

/-! ## What the platform itself knows -/

structure LibraryEntry where
  id : String
  version : Nat
  hash : String
  instruments : List String
  parameters : List (String × Json)

structure PlanPoint where
  entryId : String
  entryVersion : Nat
  envelopeHash : String
  trancheSessions : Nat
  instruments : List String
  parameters : List (String × Json)
  cellKey : String

structure PlanCell where
  universeHash : String
  cellHash : String
  weightPolicy : WeightPolicy

structure CellClaim where
  ruleEntryId : String
  ruleEntryVersion : Nat
  ruleEntryHash : String
  universeHash : String
  cellHash : String
  weightPolicy : WeightPolicy

structure VerifiedCell where
  weightPolicy : WeightPolicy
  instruments : List String

/-- How many names a published rule holds, and the weight of each. -/
structure PublishedRule where
  symbols : Nat
  weightPerInstrument : Double

/-- The files that are compiled in, the verifiers that are wired in, the reader of mandates, and
    the constants of the rules library. -/
structure Platform where
  mandateFromValue : Json → Except String MandateBody
  pilotLibrary : Except String (List (String × Nat × String))
  library : Except String (List LibraryEntry)
  envelopes : PlanPoint → Except String Unit
  cells : CellClaim → Except CellRefusal VerifiedCell
  etf : PublishedRule
  crypto : PublishedRule

def alpacaExchanges : List String := ["alpaca_paper", "alpaca"]

def planVenue : String := "alpaca"

def servablePlanMode : String := "paper"

def servablePlanState : String := "paper"

/-- `to_ascii_lowercase` -/
def toAsciiLowercase (s : String) : String := String.ofList (s.toList.map Char.toLower)

def one : Dec := ⟨⟨1, Dec.fits_one⟩, 0, Dec.scale_zero⟩

/-- What the weights of a proposal may sum to: they are floats that sum to 1 up to the last bit. -/
def weightCap : Dec := (Dec.parse "1.000000001").toOption.getD one

/-- `?`, with the reason of the caller. -/
def orRefuse {α : Type} (reason : ExclusionReason) : Option α → Checked α
  | some a => .ok a
  | none => .error reason

/-- `map_err` and `?` -/
def orReason {ε α : Type} (reason : ε → ExclusionReason) : Except ε α → Checked α
  | .ok a => .ok a
  | .error e => .error (reason e)

def refuseIf (bad : Prop) [Decidable bad] (reason : ExclusionReason) : Checked Unit :=
  if bad then .error reason else .ok ()

section Plans

variable [DebugText] [UuidReader] [JsonDisplay]

/-! ## The sleeves of a plan of the owner -/

def sleeveText (i : Nat) (s : Json) (key : String) : Checked String :=
  orRefuse (.planBodyInvalid s!"sleeve {i}: {key} missing or not a string") ((s.get key).bind Json.asStr)

/-- One sleeve, after those before it, with the sum of the shares so far. -/
def parseSleeve (i : Nat) (s : Json) (before : List SleeveSpec) (total : Dec) : Checked (SleeveSpec × Dec) := do
  let id ← sleeveText i s "sleeve_id"
  refuseIf (trimmed id = "" ∨ '+' ∈ id.toList)
    (.planBodyInvalid s!"sleeve {i}: sleeve_id must be non-empty and contain no '+'")
  refuseIf (id ∈ before.map SleeveSpec.id) (.planBodyInvalid s!"sleeve id {id} appears twice")
  let kind ← sleeveText i s "kind"
  refuseIf (kind ≠ "etf_trend")
    (.unsupportedSleeve s!"sleeve {id}: kind {DebugText.quoted kind} cannot run in the paper pilot (ETF sleeve on Alpaca only)")
  let venue ← sleeveText i s "venue"
  refuseIf (eqIgnoreAsciiCase venue planVenue = false)
    (.unsupportedSleeve s!"sleeve {id}: venue {DebugText.quoted venue} is not alpaca")
  let assetClass ← sleeveText i s "asset_class"
  let quote := ((s.get "quote").bind Json.asStr).getD ""
  let shareText ← sleeveText i s "share"
  let share ← orReason (fun e => .planBodyInvalid s!"sleeve {id}: share is not a decimal: {e.display}")
    (Dec.parse (trimmed shareText))
  refuseIf (share ≤ Dec.zero ∨ one < share) (.planBodyInvalid s!"sleeve {id}: share {share.display} is not in (0, 1]")
  let total ← orRefuse (.planBodyInvalid "the sleeve shares overflow") (total.checkedAdd share)
  return (⟨id, .etfTrend, share, venue, assetClass, quote, [], 0, none⟩, total)

def parseSleevesFrom (i : Nat) (before : List SleeveSpec) (total : Dec) : List Json → Checked (List SleeveSpec × Dec)
  | [] => .ok (before, total)
  | s :: rest => do
      let (sleeve, total) ← parseSleeve i s before total
      parseSleevesFrom (i + 1) (before ++ [sleeve]) total rest

/-- The columns of the plan repeat the entry of its first sleeve. -/
def mirrorsFirst (plan : PlanRow) (first : Json) : Prop :=
  (first.get "entry_id").bind Json.asStr = some plan.entryId ∧
    (first.get "entry_version").bind Json.asI64 = some plan.entryVersion ∧
    (first.get "entry_hash").bind Json.asStr = some plan.entryHash

instance (plan : PlanRow) (first : Json) : Decidable (mirrorsFirst plan first) :=
  inferInstanceAs (Decidable (_ ∧ _ ∧ _))

def parseSleeves (plan : PlanRow) : Checked (List SleeveSpec) := do
  let arr ← orRefuse (.planBodyInvalid "body.sleeves is not an array") ((plan.body.get "sleeves").bind Json.asArray)
  match arr with
  | [] => .error (.planBodyInvalid "body.sleeves is empty")
  | first :: rest => do
      let (sleeves, total) ← parseSleevesFrom 0 [] Dec.zero (first :: rest)
      refuseIf (one < total) (.planBodyInvalid s!"the sleeve shares sum to {total.display}, above 1")
      refuseIf (¬ mirrorsFirst plan first)
        (.planBodyInvalid "the entry_id/entry_version/entry_hash columns do not match body.sleeves[0]")
      return sleeves

/-! ## The pinned entries -/

/-- The platform holds the pinned entry, at the pinned hash. -/
def checkEntryIn (lib : List (String × Nat × String)) (entryId : String) (entryVersion : Int) (pinnedHash : String) :
    Checked Unit := do
  refuseIf (entryVersion < 0) (.entryMismatch "negative entry version")
  let version := entryVersion.toNat
  let ours ← orRefuse (.entryMismatch s!"the platform has no library entry {entryId} version {version}")
    (lib.find? fun e => e.1 == entryId && e.2.1 == version)
  refuseIf (ours.2.2 ≠ pinnedHash)
    (.entryMismatch s!"entry {entryId} v{version}: the plan pins hash {pinnedHash} but the platform's is {ours.2.2}")

def checkEntry (platform : Platform) (entryId : String) (entryVersion : Int) (pinnedHash : String) : Checked Unit := do
  let lib ← orReason (fun e => .entryMismatch s!"the pilot library did not load: {e}") platform.pilotLibrary
  checkEntryIn lib entryId entryVersion pinnedHash

def loadLibrary (platform : Platform) : Checked (List LibraryEntry) :=
  orReason (fun e => .entryMismatch s!"the platform library did not load: {e}") platform.library

def checkProposalEntry (platform : Platform) (entryId : String) (entryVersion : Int) (pinnedHash : String) : Checked Unit := do
  let lib ← loadLibrary platform
  checkEntryIn (lib.map fun e => (e.id, e.version, e.hash)) entryId entryVersion pinnedHash

/-! ## The sleeves of an approved proposal -/

def entrySleeveKinds : List (String × SleeveKind) := [("etf_trend_faber", .etfTrend), ("crypto_trend_100d", .cryptoTrend)]

def sleeveKindForEntry (entryId : String) : Option SleeveKind := (entrySleeveKinds.find? fun e => e.1 == entryId).map Prod.snd

def cellOnlySleeveKinds : List (String × SleeveKind) := [("etf_cross_sectional_momentum", .etfMomentum)]

def cellOnlyKindForEntry (entryId : String) : Option SleeveKind :=
  (cellOnlySleeveKinds.find? fun e => e.1 == entryId).map Prod.snd

def sleeveShape : SleeveKind → String × String
  | .etfTrend | .etfMomentum => ("us_etf", "")
  | .cryptoTrend => ("crypto_spot", "USD")

/-- A float by its shortest text, so that a quarter stays a quarter. -/
def decFromF64 (name : String) (v : F64) : Checked Dec := do
  refuseIf (v.isFinite = false) (.planBodyInvalid s!"{name} is not a finite number")
  orReason (fun e => .planBodyInvalid s!"{name} {v.display} is not representable as a decimal: {e.display}") (Dec.parse v.display)

def isSha256Hex (s : String) : Bool :=
  s.utf8ByteSize == 64 && s.toList.all fun c => c.isDigit || ('a' ≤ c && c ≤ 'f')

def WeightPolicy.fromName (s : String) : Option WeightPolicy :=
  if s = "fixed_constant" then some .fixedConstant else if s = "equal_1_over_N" then some .equalOverN else none

/-- By its name, or as the only key of an object, with nothing in it. -/
def WeightPolicy.fromValue : Json → Option WeightPolicy
  | .string s => fromName s
  | .object [(s, .null)] => fromName s
  | _ => none

def cellKeys : List String := ["universe_hash", "cell_hash", "weight_policy"]

def badCell (i : Nat) (m : String) : ExclusionReason := .planBodyInvalid s!"sleeve {i}: cell: {m}"

def cellHash (i : Nat) (c : Json) (key : String) : Checked String := do
  let h ← orRefuse (badCell i s!"{key} missing or not a string") ((c.get key).bind Json.asStr)
  refuseIf (isSha256Hex h = false) (badCell i s!"{key} is not 64 lowercase hex characters")
  return h

/-- The keys of an object are among the given ones. -/
def refuseOther (keys : List String) (reason : String → ExclusionReason) (fields : List (String × Json)) : Checked Unit :=
  match (fields.map Prod.fst).find? fun k => !keys.elem k with
  | some extra => .error (reason extra)
  | none => .ok ()

/-- The cell a sleeve names, with exactly the three keys; absent or null where it names none. -/
def parseCellRef (i : Nat) (s : Json) : Checked (Option PlanCell) :=
  match Json.missing (s.get "cell") with
  | none => .ok none
  | some c => do
      let fields ← orRefuse (badCell i "not an object") c.asObject
      refuseOther cellKeys (fun extra => badCell i s!"unknown key {DebugText.quoted extra}") fields
      let policy ← orRefuse (badCell i "weight_policy missing") (c.get "weight_policy")
      let weightPolicy ← orRefuse
        (badCell i s!"weight_policy {JsonDisplay.display policy} is not one of fixed_constant, equal_1_over_N")
        (WeightPolicy.fromValue policy)
      let universeHash ← cellHash i c "universe_hash"
      let cellHash ← cellHash i c "cell_hash"
      return some ⟨universeHash, cellHash, weightPolicy⟩

def badPoint (i : Nat) (m : String) : ExclusionReason := .planBodyInvalid s!"sleeve {i}: point: {m}"

def pointText (i : Nat) (p : Json) (key : String) : Checked String :=
  orRefuse (badPoint i s!"{key} missing or not a string") ((p.get key).bind Json.asStr)

def pointInstrument (i : Nat) (v : Json) : Checked String := orRefuse (badPoint i "an instrument is not a string") v.asStr

/-- The point a sleeve is frozen at; absent or null is the published one. -/
def parsePoint (i : Nat) (entryId : String) (entryVersion : Nat) (s : Json) : Checked (Option PlanPoint) :=
  match Json.missing (s.get "point") with
  | none => .ok none
  | some p => do
      let tranche ← orRefuse (badPoint i "tranche_sessions missing or not an unsigned integer")
        ((p.get "tranche_sessions").bind Json.asU64)
      refuseIf (2 ^ 8 ≤ tranche) (badPoint i s!"tranche_sessions {tranche} out of range")
      let items ← orRefuse (badPoint i "instruments missing or not an array") ((p.get "instruments").bind Json.asArray)
      let instruments ← items.mapM (pointInstrument i)
      let parameters ← orRefuse (badPoint i "parameters missing or not an object") ((p.get "parameters").bind Json.asObject)
      let envelopeHash ← pointText i p "envelope_hash"
      let cellKey ← pointText i p "cell_key"
      return some ⟨entryId, entryVersion, envelopeHash, tranche, instruments, parameters, cellKey⟩

/-- What is read of one sleeve: an element of each of the four parallel lists. -/
structure ParsedSleeve where
  spec : SleeveSpec
  entry : PinnedEntry
  point : Option PlanPoint
  cell : Option PlanCell

/-- A sleeve with a cell runs a long-only rule; a rule that runs only as a cell needs one. -/
def proposalKind (entryId : String) (hasCell : Bool) : Checked SleeveKind :=
  match sleeveKindForEntry entryId, cellOnlyKindForEntry entryId, hasCell with
  | some k, _, false => .ok k
  | some .etfTrend, _, true => .ok .etfTrend
  | some _, _, true => .error (.cellNotExecutable s!"sleeve {entryId}: only long-only ETF cells execute")
  | none, some k, true => .ok k
  | none, some _, false =>
      .error (.unsupportedSleeve s!"sleeve {entryId}: this rule executes only as a registered R41 cell, and the plan names no cell")
  | none, none, true =>
      .error (.cellNotExecutable s!"sleeve {entryId}: no executable rule family is registered for this cell's rule")
  | none, none, false =>
      .error (.unsupportedSleeve s!"sleeve {entryId}: no sleeve kind is registered for this library entry (ENTRY_SLEEVE_KINDS)")

/-- One sleeve, after those before it, with the sum of the weights so far. -/
def parseProposalSleeve (i : Nat) (s : Json) (riskScale : Dec) (before : List ParsedSleeve) (total : Dec) :
    Checked (ParsedSleeve × Dec) := do
  let entryId ← sleeveText i s "entry_id"
  let entryVersion ← orRefuse (.planBodyInvalid s!"sleeve {i}: entry_version missing or not an integer")
    ((s.get "entry_version").bind Json.asI64)
  refuseIf (entryVersion < -2 ^ 31 ∨ 2 ^ 31 ≤ entryVersion)
    (.planBodyInvalid s!"sleeve {i}: entry_version {entryVersion} out of range")
  let entryHash ← sleeveText i s "entry_hash"
  let weightF ← orRefuse (.planBodyInvalid s!"sleeve {i}: weight missing or not a number") ((s.get "weight").bind Json.asF64)
  refuseIf (trimmed entryId = "" ∨ '+' ∈ entryId.toList)
    (.planBodyInvalid s!"sleeve {i}: entry_id must be non-empty and contain no '+'")
  refuseIf (entryId ∈ before.map fun o => o.spec.id) (.planBodyInvalid s!"entry {entryId} appears twice")
  let cell ← parseCellRef i s
  let kind ← proposalKind entryId cell.isSome
  let weight ← decFromF64 s!"sleeve {entryId}: weight" weightF
  refuseIf (weight ≤ Dec.zero ∨ one < weight) (.planBodyInvalid s!"sleeve {entryId}: weight {weight.display} is not in (0, 1]")
  let share ← orRefuse (.planBodyInvalid s!"sleeve {entryId}: share overflows") (weight.checkedMul riskScale)
  refuseIf (share ≤ Dec.zero ∨ one < share) (.planBodyInvalid s!"sleeve {entryId}: share {share.display} is not in (0, 1]")
  let total ← orRefuse (.planBodyInvalid "the sleeve weights overflow") (total.checkedAdd weight)
  let shape := sleeveShape kind
  refuseIf (entryVersion < 0) (.entryMismatch "negative entry version")
  let point ← parsePoint i entryId entryVersion.toNat s
  refuseIf (point.isSome ∧ cell.isSome)
    (.planBodyInvalid s!"sleeve {i}: names both a point and a cell; a sleeve is one or the other")
  return (⟨⟨entryId, kind, share, planVenue, shape.1, shape.2, [], 0, none⟩,
    ⟨entryId, entryVersion.toNat, entryHash⟩, point, cell⟩, total)

def parseProposalSleevesFrom (riskScale : Dec) (i : Nat) (before : List ParsedSleeve) (total : Dec) :
    List Json → Checked (List ParsedSleeve × Dec)
  | [] => .ok (before, total)
  | s :: rest => do
      let (sleeve, total) ← parseProposalSleeve i s riskScale before total
      parseProposalSleevesFrom riskScale (i + 1) (before ++ [sleeve]) total rest

def parseProposalSleeves (plan : ProposalPlanRow) : Checked (List ParsedSleeve) := do
  let bodyProposal ← orRefuse (.planBodyInvalid "body.proposal_id missing or not a string")
    ((plan.body.get "proposal_id").bind Json.asStr)
  refuseIf (UuidReader.parse bodyProposal ≠ some plan.proposalId)
    (.planBodyInvalid s!"body.proposal_id {DebugText.quoted bodyProposal} does not match the row's proposal_id {Uuid.display plan.proposalId}")
  let riskScaleF ← orRefuse (.planBodyInvalid "body.risk_scale missing or not a number")
    ((plan.body.get "risk_scale").bind Json.asF64)
  let riskScale ← decFromF64 "risk_scale" riskScaleF
  refuseIf (riskScale ≤ Dec.zero ∨ one < riskScale) (.planBodyInvalid s!"risk_scale {riskScale.display} is not in (0, 1]")
  let arr ← orRefuse (.planBodyInvalid "body.sleeves is not an array") ((plan.body.get "sleeves").bind Json.asArray)
  refuseIf (arr = []) (.planBodyInvalid "body.sleeves is empty")
  let (sleeves, total) ← parseProposalSleevesFrom riskScale 0 [] Dec.zero arr
  refuseIf (weightCap < total) (.planBodyInvalid s!"the sleeve weights sum to {total.display}, above 1")
  return sleeves

end Plans

end RebalancerStore.AccountSource
