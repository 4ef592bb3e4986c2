import SignalEngine.RebalancerRisk.MandateAgreement
import SignalEngine.RebalancerStore.AccountSleeves

/-! # What an account is served on

An account is handed to the driver on a paper credential of its own tenant, under its
active signed mandate, by one plan bound to that version of the mandate, and in no mode
the mandate does not grant.
-/

open BrokerAdapters Text MandateCore Outcome Ascending

namespace RebalancerStore.AccountSource

open RebalancerCore (MandateHash)
open RebalancerCore.DecMath (F64)
open RebalancerRun (SleeveKind SleeveSpec ExecutionMode)

/-! ## What is required -/

structure PaperCredential (target : Target) (c : CredentialRow) : Prop where
  own : c.target = target
  kept : c.deletedAt = none
  enabled : c.isEnabled = true
  testnet : c.isTestnet = true
  alpaca : toAsciiLowercase c.exchange ∈ alpacaExchanges

/-- Orders are placed only where the mandate grants it, and only at its second level. -/
structure WithinAutonomy (body : MandateBody) (mode : ExecutionMode) : Prop where
  notThird : body.autonomy.level ≠ .l3
  notPaper : mode ≠ .paper
  live : mode = .live → body.autonomy.level = .l2 ∧ .placeOrders ∈ body.autonomy.may

def Pinned (lib : List (String × Nat × String)) (e : PinnedEntry) : Prop := (e.entryId, e.entryVersion, e.entryHash) ∈ lib

structure NewestPlan (rows : Rows) (target : Target) (plan : PlanRow) : Prop where
  mem : plan ∈ rows.plans
  own : plan.target = target
  highest : ∀ p ∈ rows.plans, p.target = target → p.seq ≤ plan.seq

def NoPlan (rows : Rows) (target : Target) : Prop := ∀ p ∈ rows.plans, p.target ≠ target

def NoProposal (rows : Rows) (target : Target) : Prop := ∀ p ∈ rows.proposalPlans, p.target = target → p.state = "closed"

structure OnlyProposal (rows : Rows) (target : Target) (plan : ProposalPlanRow) : Prop where
  mem : plan ∈ rows.proposalPlans
  own : plan.target = target
  only : ∀ p ∈ rows.proposalPlans, p.target = target → p.state ≠ "closed" → p = plan

inductive OnePlan (platform : Platform) (rows : Rows) (target : Target) (m : CheckedMandate) (a : PilotAccount) : Prop where
  | owner (plan : PlanRow) (lib : List (String × Nat × String)) (origin : a.origin = .ownerPilot) (planId : a.planId = plan.id)
      (newest : NewestPlan rows target plan) (noProposal : NoProposal rows target)
      (paper : plan.venueEnvironment = "paper") (byOwner : plan.origin = "owner_pilot")
      (bound : plan.mandateId = m.row.id ∧ plan.mandateVersion = m.row.version)
      (library : platform.pilotLibrary = .ok lib) (pinned : ∀ e ∈ a.entries, Pinned lib e)
      (sleeves : SoundSleeves a.active.sleeves (10 ^ maxScale)) (published : ∀ s ∈ a.active.sleeves, Published s)
  | proposal (plan : ProposalPlanRow) (lib : List LibraryEntry) (origin : a.origin = .proposal) (planId : a.planId = plan.id)
      (noPilot : NoPlan rows target) (only : OnlyProposal rows target plan)
      (paper : plan.mode = servablePlanMode ∧ plan.state = servablePlanState)
      (bound : plan.mandateId = m.row.id ∧ plan.mandateVersion = m.row.version)
      (library : platform.library = .ok lib) (pinned : ∀ e ∈ a.entries, Pinned (lib.map fun e => (e.id, e.version, e.hash)) e)
      (covered : List.Forall₂ (fun e s => e.entryId = s.id ∧ Covered platform e s) a.entries a.active.sleeves)
      (sleeves : SoundSleeves a.active.sleeves sumCap)

/-! ## What is checked -/

theorem own_iff {tenantId accountId : Uuid} {target : Target} :
    (accountId == target.accountId && tenantId == target.tenantId) = true ↔ Target.mk tenantId accountId = target := by
  cases target
  rw [Bool.and_eq_true, beq_iff_eq, beq_iff_eq, Target.mk.injEq, and_comm]

theorem checkCredential_ok {target : Target} {rows : Rows} {c : CredentialRow} (checked : checkCredential target rows = .ok c) :
    c ∈ rows.credentials ∧ PaperCredential target c := by
  unfold checkCredential at checked
  obtain ⟨c', found, checked⟩ := bind_eq_ok.1 checked
  obtain ⟨_, kept, checked⟩ := bind_eq_ok.1 checked
  obtain ⟨_, enabled, checked⟩ := bind_eq_ok.1 checked
  obtain ⟨_, testnet, checked⟩ := bind_eq_ok.1 checked
  obtain ⟨_, alpaca, checked⟩ := bind_eq_ok.1 checked
  obtain rfl := pure_eq_ok.1 checked
  have found := orRefuse_eq_ok.1 found
  have holds := List.find?_some found
  refine ⟨List.mem_of_find?_eq_some found, own_iff.1 holds, ?_, ?_, ?_, ?_⟩
  · simpa using refuseIf_eq_ok.1 kept
  · exact not_not.1 (refuseIf_eq_ok.1 enabled)
  · exact not_not.1 (refuseIf_eq_ok.1 testnet)
  · exact not_not.1 (refuseIf_eq_ok.1 alpaca)

theorem deriveMode_ok {body : MandateBody} {execution : PlanExecution} {mode : ExecutionMode}
    (derived : deriveMode body execution = .ok mode) : WithinAutonomy body mode := by
  unfold deriveMode at derived
  cases level : body.autonomy.level with
  | l0 | l1 =>
      rw [level] at derived
      obtain rfl := Except.ok.inj derived
      exact ⟨by simp [level], by decide, by simp⟩
  | l2 =>
      rw [level] at derived
      cases execution with
      | assisted =>
          obtain rfl := Except.ok.inj derived
          exact ⟨by simp [level], by decide, by simp⟩
      | paperOrders =>
          dsimp only at derived
          split at derived
          next granted =>
            obtain rfl := Except.ok.inj derived
            exact ⟨by simp [level], by decide, fun _ => ⟨level, granted⟩⟩
          next => cases derived
  | l3 =>
      rw [level] at derived
      cases derived

theorem checkEntryIn_ok {lib : List (String × Nat × String)} {id hash : String} {version : Int} {u : Unit}
    (checked : checkEntryIn lib id version hash = .ok u) : 0 ≤ version ∧ (id, version.toNat, hash) ∈ lib := by
  unfold checkEntryIn at checked
  obtain ⟨_, nonneg, checked⟩ := bind_eq_ok.1 checked
  obtain ⟨ours, found, checked⟩ := bind_eq_ok.1 checked
  have found := orRefuse_eq_ok.1 found
  have holds := List.find?_some found
  obtain ⟨sameId, sameVersion⟩ := Bool.and_eq_true_iff.1 holds
  have sameHash := not_not.1 (refuseIf_eq_ok.1 checked)
  have member := List.mem_of_find?_eq_some found
  rw [← eq_of_beq sameId, ← eq_of_beq sameVersion, ← sameHash]
  exact ⟨not_lt.1 (refuseIf_eq_ok.1 nonneg), member⟩

theorem pinned_ok {platform : Platform} {parsed : List ParsedSleeve} (some : parsed ≠ [])
    (read : ∀ p ∈ parsed, Read p) (checked : ∀ p ∈ parsed, checkPinned platform p = .ok ()) :
    ∃ lib, platform.library = .ok lib ∧ ∀ p ∈ parsed, Pinned (lib.map fun e => (e.id, e.version, e.hash)) p.entry := by
  obtain ⟨first, member⟩ := List.exists_mem_of_ne_nil parsed some
  obtain ⟨lib, loaded, -⟩ := bind_eq_ok.1 (checked first member)
  have loaded := orReason_eq_ok.1 loaded
  refine ⟨lib, loaded, fun p member => ?_⟩
  have entry := checked p member
  rw [checkPinned, checkProposalEntry, loadLibrary, loaded] at entry
  have found := (checkEntryIn_ok entry).2
  have version : (clampVersion p.entry.entryVersion).toNat = p.entry.entryVersion := by
    have small := (read p member).version
    unfold clampVersion
    omega
  rwa [version] at found

/-! ## The plans -/

theorem newestPlan_concat (plans : List PlanRow) (p : PlanRow) : newestPlan (plans ++ [p]) =
    match newestPlan plans with
    | none => some p
    | some b => if b.seq ≤ p.seq then some p else some b := by
  rw [newestPlan, List.foldl_append]
  rfl

/-- One of several plans, and none has a higher number. -/
theorem newestPlan_spec (plans : List PlanRow) :
    (newestPlan plans = none ↔ plans = []) ∧ ∀ plan ∈ newestPlan plans, plan ∈ plans ∧ ∀ p ∈ plans, p.seq ≤ plan.seq := by
  induction plans using List.reverseRecOn with
  | nil => simp [newestPlan]
  | append_singleton plans p ih =>
      rw [newestPlan_concat]
      cases best : newestPlan plans with
      | none =>
          obtain rfl := ih.1.1 best
          simp
      | some b =>
          obtain ⟨member, highest⟩ := ih.2 b best
          dsimp only
          split
          next le =>
            refine ⟨by simp, fun plan chosen => ?_⟩
            obtain rfl := Option.some.inj chosen
            refine ⟨by simp, fun q listed => ?_⟩
            rcases List.mem_append.1 listed with old | new
            · exact (highest q old).trans le
            · rw [List.mem_singleton.1 new]
          next gt =>
            refine ⟨by simp, fun plan chosen => ?_⟩
            obtain rfl := Option.some.inj chosen
            refine ⟨List.mem_append_left _ member, fun q listed => ?_⟩
            rcases List.mem_append.1 listed with old | new
            · exact highest q old
            · rw [List.mem_singleton.1 new]
              exact (not_le.1 gt).le

section Plans

variable {rows : Rows} {target : Target}

theorem pilotPlan_eq_some {plan : PlanRow} (newest : pilotPlan target rows = some plan) : NewestPlan rows target plan := by
  obtain ⟨member, highest⟩ := (newestPlan_spec _).2 plan newest
  obtain ⟨known, own⟩ := List.mem_filter.1 member
  exact ⟨known, own_iff.1 own, fun p listed same => highest p (List.mem_filter.2 ⟨listed, own_iff.2 same⟩)⟩

theorem pilotPlan_eq_none (nothing : pilotPlan target rows = none) : NoPlan rows target := by
  intro p listed same
  have empty := (newestPlan_spec _).1.1 nothing
  exact List.filter_eq_nil_iff.1 empty p listed (own_iff.2 same)

theorem mem_openProposals {p : ProposalPlanRow} :
    p ∈ openProposals target rows ↔ p ∈ rows.proposalPlans ∧ p.target = target ∧ p.state ≠ "closed" := by
  rw [openProposals, List.mem_filter, Bool.and_eq_true, own_iff, bne_iff_ne, ProposalPlanRow.target]

theorem openProposals_eq_nil (nothing : openProposals target rows = []) : NoProposal rows target := by
  intro p listed same
  by_contra opened
  have member := mem_openProposals.2 ⟨listed, same, opened⟩
  rw [nothing] at member
  cases member

theorem openProposals_eq_singleton {plan : ProposalPlanRow} (single : openProposals target rows = [plan]) :
    OnlyProposal rows target plan := by
  obtain ⟨known, own, -⟩ := mem_openProposals.1 (single ▸ List.mem_singleton_self plan)
  refine ⟨known, own, fun p listed same opened => ?_⟩
  have member := mem_openProposals.2 ⟨listed, same, opened⟩
  rw [single] at member
  exact List.mem_singleton.1 member

end Plans

section Decided

variable [DebugText] {platform : Platform} {rows : Rows} {target : Target} {c : CredentialRow}
  {m : CheckedMandate} {a : PilotAccount}

theorem evaluatePilotPlan_ok {plan : PlanRow} {present : Bool} (newest : pilotPlan target rows = some plan)
    (presence : present = !(openProposals target rows).isEmpty)
    (served : evaluatePilotPlan platform target c m plan present = .ok a) :
    a.active = activeAccount target m a.active.sleeves a.active.mode ∧ WithinAutonomy m.body a.active.mode ∧
      OnePlan platform rows target m a := by
  unfold evaluatePilotPlan at served
  obtain ⟨_, paper, served⟩ := bind_eq_ok.1 served
  obtain ⟨_, byOwner, served⟩ := bind_eq_ok.1 served
  obtain ⟨_, bound, served⟩ := bind_eq_ok.1 served
  obtain ⟨_, absent, served⟩ := bind_eq_ok.1 served
  obtain ⟨execution, -, served⟩ := bind_eq_ok.1 served
  obtain ⟨sleeves, parsed, served⟩ := bind_eq_ok.1 served
  obtain ⟨_, entry, served⟩ := bind_eq_ok.1 served
  obtain ⟨mode, derived, served⟩ := bind_eq_ok.1 served
  obtain rfl := pure_eq_ok.1 served
  unfold checkEntry at entry
  obtain ⟨lib, loaded, entry⟩ := bind_eq_ok.1 entry
  obtain ⟨some, shared, published⟩ := parseSleeves_ok parsed
  have bound := not_or.1 (refuseIf_eq_ok.1 bound)
  have none : openProposals target rows = [] := by
    have absent := refuseIf_eq_ok.1 absent
    rw [presence, Bool.not_eq_true, Bool.not_eq_false', List.isEmpty_iff] at absent
    exact absent
  refine ⟨rfl, deriveMode_ok derived, .owner plan lib rfl rfl (pilotPlan_eq_some newest) (openProposals_eq_nil none) (not_not.1 (refuseIf_eq_ok.1 paper))
    (not_not.1 (refuseIf_eq_ok.1 byOwner)) ⟨not_not.1 bound.1, not_not.1 bound.2⟩ (orReason_eq_ok.1 loaded) ?_ ?_ fun s member => (published s member).1⟩
  · intro e member
    obtain rfl := List.mem_singleton.1 member
    exact (checkEntryIn_ok entry).2
  · refine ⟨some, shared, fun s member => (published s member).1.honoured, fun s member momentum => ?_⟩
    rw [(published s member).2] at momentum
    cases momentum

theorem evaluateProposalPlan_ok [UuidReader] [JsonDisplay] {plan : ProposalPlanRow} {others : List ProposalPlanRow}
    (noPilot : pilotPlan target rows = none) (listed : openProposals target rows = plan :: others)
    (served : evaluateProposalPlan platform target c m plan others = .ok a) :
    a.active = activeAccount target m a.active.sleeves a.active.mode ∧ WithinAutonomy m.body a.active.mode ∧
      OnePlan platform rows target m a := by
  unfold evaluateProposalPlan at served
  obtain ⟨_, alone, served⟩ := bind_eq_ok.1 served
  obtain ⟨_, paper, served⟩ := bind_eq_ok.1 served
  obtain ⟨_, bound, served⟩ := bind_eq_ok.1 served
  obtain ⟨parsed, readAll, served⟩ := bind_eq_ok.1 served
  obtain ⟨_, pinned, served⟩ := bind_eq_ok.1 served
  obtain ⟨atPoints, points, served⟩ := bind_eq_ok.1 served
  obtain ⟨onCells, cells, served⟩ := bind_eq_ok.1 served
  obtain ⟨_, -, served⟩ := bind_eq_ok.1 served
  obtain ⟨mode, derived, served⟩ := bind_eq_ok.1 served
  obtain rfl := pure_eq_ok.1 served
  obtain ⟨some, shared, read⟩ := parseProposalSleeves_ok readAll
  have tuned := tuned_ok read points cells
  have bound := not_or.1 (refuseIf_eq_ok.1 bound)
  have paper := not_or.1 (refuseIf_eq_ok.1 paper)
  have alone := not_not.1 (refuseIf_eq_ok.1 alone)
  rw [alone] at listed
  obtain ⟨lib, loaded, pinned⟩ := pinned_ok some read (forM_eq_ok.1 pinned)
  refine ⟨rfl, deriveMode_ok derived, .proposal plan lib rfl rfl (pilotPlan_eq_none noPilot) (openProposals_eq_singleton listed) ⟨not_not.1 paper.1, not_not.1 paper.2⟩
    ⟨not_not.1 bound.1, not_not.1 bound.2⟩ loaded ?_ (covered_of_tuned tuned read) (soundSleeves_of_tuned tuned some shared read)⟩
  intro e member
  rw [entries_of_tuned tuned] at member
  obtain ⟨p, listed, rfl⟩ := List.mem_map.1 member
  exact pinned p listed

end Decided

/-! ## The enumeration -/

def Database.rows (db : Database) : Rows := ⟨db.exchangeCredentials, db.mandates, db.rebalancerPilotPlans, db.strategyPlans⟩

/-- A pair of the pilot, or, where proposals are served, one with a plan that is not closed. -/
def InScope (scope : AccountScope) (db : Database) (target : Target) : Prop :=
  target ∈ scope.pilotTargets ∨
    scope.servesProposalPlans = true ∧ ∃ p ∈ db.strategyPlans, p.state ≠ "closed" ∧ p.target = target

theorem mem_fetch_targets {scope : AccountScope} {db : Database} {target : Target} :
    target ∈ (fetch scope db).1 ↔ InScope scope db target := by
  rw [fetch, targetsFor, mem_ascending, List.mem_append, InScope]
  refine or_congr_right ?_
  cases serves : scope.servesProposalPlans with
  | false => simp
  | true => simp [fetchProposalPlans, serves, and_assoc]

section Parts

variable {α : Type} {p q : α → Bool} (xs : List α)

theorem filter_part (inside : ∀ a, q a = true → p a = true) : (xs.filter p).filter q = xs.filter q := by
  rw [List.filter_filter]
  congr 1
  funext a
  by_cases wanted : q a = true
  · simp [wanted, inside a wanted]
  · simp [wanted]

theorem find?_part (inside : ∀ a, q a = true → p a = true) : (xs.filter p).find? q = xs.find? q := by
  rw [List.find?_filter]
  congr 1
  funext a
  by_cases wanted : q a = true
  · simp [wanted, inside a wanted]
  · simp [wanted]

end Parts

section Fetched

variable {scope : AccountScope} {db : Database} {target : Target}

theorem pilotPlan_fetch (known : target ∈ (fetch scope db).1) :
    pilotPlan target (fetch scope db).2 = pilotPlan target db.rows := by
  rw [pilotPlan, pilotPlan, fetch]
  dsimp only
  rw [filter_part]
  · rfl
  intro p wanted
  have pair : p.target = target := own_iff.1 wanted
  rw [List.elem_eq_true_of_mem]
  rw [pair]
  exact known

theorem openProposals_fetch (known : target ∈ (fetch scope db).1) :
    openProposals target (fetch scope db).2 = openProposals target db.rows := by
  have inScope := mem_fetch_targets.1 known
  rw [openProposals, openProposals, fetch]
  dsimp only
  rw [fetchProposalPlans]
  split
  next =>
    rw [filter_part]
    · rfl
    intro p wanted
    exact (Bool.and_eq_true_iff.1 wanted).2
  next only =>
    rw [filter_part]
    · rfl
    intro p wanted
    obtain ⟨own, kept⟩ := Bool.and_eq_true_iff.1 wanted
    have pair : p.target = target := own_iff.1 own
    have listed : target ∈ scope.pilotTargets := inScope.resolve_right fun served => only served.1
    rw [kept, Bool.and_true, List.elem_eq_true_of_mem]
    rwa [pair]

end Fetched

def refusal (target : Target) : Checked PilotAccount → Option Exclusion
  | .ok _ => none
  | .error reason => some ⟨target.tenantId, target.accountId, reason⟩

theorem foldl_push (decide' : Target → Checked PilotAccount) (targets : List Target) (out : Enumeration) :
    targets.foldl (fun out target => out.push target (decide' target)) out =
      ⟨out.accounts ++ targets.filterMap fun target => (decide' target).toOption,
        out.exclusions ++ targets.filterMap fun target => refusal target (decide' target)⟩ := by
  induction targets generalizing out with
  | nil => simp
  | cons target rest ih =>
      rw [List.foldl_cons, ih]
      cases decided : decide' target with
      | ok a => simp [Enumeration.push, refusal, decided, Except.toOption]
      | error reason => simp [Enumeration.push, refusal, decided, Except.toOption]

/-! ## What is granted -/

section Grants

variable [UnicodeCase] [DebugText] [ExternalDecimal]

theorem validateJson_ok {platform : Platform} {value : Json} {body : MandateBody} (read : validateJson platform value = .ok body) :
    platform.mandateFromValue value = .ok body ∧ validate body = [] := by
  unfold validateJson at read
  split at read
  next => cases read
  next body' parsed =>
    split at read
    next valid =>
      obtain rfl := Except.ok.inj read
      exact ⟨parsed, valid⟩
    next => cases read

variable [MandateHash]

structure SignedMandate (platform : Platform) (target : Target) (m : CheckedMandate) : Prop where
  own : m.row.target = target
  active : m.row.status = "active"
  granted : m.row.grantedAt.isSome
  effective : m.row.effectiveFrom = some m.effectiveFrom
  review : m.row.reviewBy = some m.reviewBy
  body : platform.mandateFromValue m.row.body = .ok m.body
  valid : validate m.body = []
  hash : MandateHash.canonicalHash m.body = m.row.bodyHash
  version : (m.version : Int) = m.row.version

theorem checkMandate_ok {platform : Platform} {target : Target} {rows : Rows} {m : CheckedMandate}
    (checked : checkMandate platform target rows = .ok m) : m.row ∈ rows.mandates ∧ SignedMandate platform target m := by
  unfold checkMandate at checked
  obtain ⟨row, found, checked⟩ := bind_eq_ok.1 checked
  split at checked
  next granted effective review =>
    obtain ⟨body, read, checked⟩ := bind_eq_ok.1 checked
    obtain ⟨_, hash, checked⟩ := bind_eq_ok.1 checked
    obtain ⟨_, nonneg, checked⟩ := bind_eq_ok.1 checked
    obtain rfl := pure_eq_ok.1 checked
    have found := orRefuse_eq_ok.1 found
    have holds := List.find?_some found
    obtain ⟨pair, active⟩ := Bool.and_eq_true_iff.1 holds
    obtain ⟨body, valid⟩ := validateJson_ok read
    refine ⟨List.mem_of_find?_eq_some found, own_iff.1 pair, eq_of_beq active, ?_, effective, review, body, valid,
      not_not.1 (refuseIf_eq_ok.1 hash), ?_⟩
    · rw [granted]
      rfl
    · exact Int.toNat_of_nonneg (not_lt.1 (refuseIf_eq_ok.1 nonneg))
  next => cases checked

variable [UuidReader]

structure Granted (platform : Platform) (rows : Rows) (target : Target) (c : CredentialRow) (m : CheckedMandate)
    (a : PilotAccount) : Prop where
  credential : PaperCredential target c
  mandate : SignedMandate platform target m
  /-- The driver is handed the mandate that was checked. -/
  active : a.active = activeAccount target m a.active.sleeves a.active.mode
  autonomy : WithinAutonomy m.body a.active.mode
  plan : OnePlan platform rows target m a

/-! ## One account -/

variable [JsonDisplay]

theorem evaluateOne_ok {platform : Platform} {rows all : Rows} {serve : Bool} {target : Target} {a : PilotAccount}
    (pilot : pilotPlan target rows = pilotPlan target all) (proposals : openProposals target rows = openProposals target all)
    (served : evaluateOne platform rows serve target = .ok a) :
    ∃ c ∈ rows.credentials, ∃ m : CheckedMandate, m.row ∈ rows.mandates ∧ Granted platform all target c m a := by
  unfold evaluateOne at served
  rw [pilot, proposals] at served
  obtain ⟨c, credential, served⟩ := bind_eq_ok.1 served
  obtain ⟨m, mandate, served⟩ := bind_eq_ok.1 served
  obtain ⟨known, paper⟩ := checkCredential_ok credential
  obtain ⟨active, signed⟩ := checkMandate_ok mandate
  refine ⟨c, known, m, active, ?_⟩
  cases newest : pilotPlan target all with
  | some plan =>
      rw [newest] at served
      obtain ⟨same, autonomy, one⟩ := evaluatePilotPlan_ok newest rfl served
      exact ⟨paper, signed, same, autonomy, one⟩
  | none =>
      rw [newest] at served
      cases listed : openProposals target all with
      | nil =>
          rw [listed] at served
          cases served
      | cons plan others =>
          rw [listed] at served
          dsimp only at served
          split at served
          next =>
            obtain ⟨same, autonomy, one⟩ := evaluateProposalPlan_ok newest listed served
            exact ⟨paper, signed, same, autonomy, one⟩
          next => cases served

theorem evaluateWithCells_eq (platform : Platform) (targets : List Target) (rows : Rows) (serve : Bool) :
    evaluateWithCells platform targets rows serve =
      ⟨targets.filterMap fun target => (evaluateOne platform rows serve target).toOption,
        targets.filterMap fun target => refusal target (evaluateOne platform rows serve target)⟩ := by
  rw [evaluateWithCells, foldl_push]
  rfl

/-- Every account that is run is in scope, on a paper credential and a signed mandate of its own,
    by the only plan there is, of either source, and in no mode and with no sleeve the two do not grant. -/
theorem served_granted {platform : Platform} {scope : AccountScope} {db : Database} {a : PilotAccount}
    (served : a ∈ (enumerate platform scope db).accounts) :
    ∃ target, InScope scope db target ∧ ∃ c ∈ db.exchangeCredentials, ∃ m : CheckedMandate, m.row ∈ db.mandates ∧
      Granted platform db.rows target c m a := by
  rw [enumerate, evaluateWithCells_eq] at served
  obtain ⟨target, known, run⟩ := List.mem_filterMap.1 served
  obtain ⟨c, credential, m, mandate, granted⟩ :=
    evaluateOne_ok (pilotPlan_fetch known) (openProposals_fetch known) (toOption_eq_some.1 run)
  exact ⟨target, mem_fetch_targets.1 known, c, List.mem_of_mem_filter credential, m, List.mem_of_mem_filter mandate, granted⟩

end Grants

namespace Sample

open RebalancerRisk.ClassMandate (quotedText exactDecimal tenths)

attribute [local instance] asciiCase

@[reducible] def signedHash : MandateHash := ⟨fun _ => "5f3c"⟩

@[reducible] def proposalNine : UuidReader := ⟨fun s => if s = Uuid.display 9 then some 9 else none⟩

@[reducible] def unread : JsonDisplay := ⟨fun _ => ""⟩

attribute [local instance] quotedText exactDecimal signedHash proposalNine unread

def body : MandateBody where
  basis := ⟨.own, "US-GA", [⟨"own_capital_attestation", "2026-10", "user_1"⟩, ⟨"risk_disclosure", "2026-10", "user_1"⟩]⟩
  capital := ⟨⟨"5000.00", "USD"⟩, tenths 1⟩
  «universe» := ⟨["alpaca"], ["us_etf"], ["SPY", "EFA"], [], false, false, .one⟩
  exposure := ⟨tenths 2, ∅, .one, .one, ⟨"1500.00", "USD"⟩, 20, tenths 5⟩
  loss := ⟨tenths 1, [⟨tenths 1, .shrink, some (tenths 5)⟩, ⟨tenths 2, .haltFlatten, none⟩]⟩
  autonomy := ⟨.l2, [.placeOrders, .halt], [.addStrategy], requiredNever⟩
  reporting := ⟨["email"]⟩

def number (v : F64) : Json := .number ⟨none, v⟩

def strings (items : List String) : Json := .array (items.map .string)

def money (amount : String) : Json := .object [("amount", .string amount), ("ccy", .string "USD")]

def accepted (doc : String) : Json :=
  .object [("at", .string "2026-09-21T12:00:00Z"), ("by", .string "user_1"), ("doc", .string doc), ("doc_version", .string "2026-10")]

def rung (trigger : F64) (action : String) (scale : Json) : Json :=
  .object [("action", .string action), ("at", number trigger), ("scale", scale)]

def stored : Json := .object [
  ("autonomy", .object [("level", .string "L2"), ("may", strings ["place_orders", "halt"]),
    ("needs_confirmation", strings ["add_strategy"]),
    ("never", strings ["change_limits", "resume_after_halt", "change_credentials", "withdraw"])]),
  ("basis", .object [("acknowledgements", .array [accepted "own_capital_attestation", accepted "risk_disclosure"]),
    ("capital_source", .string "own"), ("jurisdiction", .string "US-GA")]),
  ("capital", .object [("allocated", money "5000.00"), ("min_cash_reserve", number (tenths 1))]),
  ("exposure", .object [("max_asset_class", .object []), ("max_gross", number .one), ("max_net", number .one),
    ("max_order_notional", money "1500.00"), ("max_orders_per_day", .number ⟨some 20, .one⟩), ("max_position", number (tenths 2)),
    ("max_turnover_per_day", number (tenths 5))]),
  ("loss", .object [("daily_loss_limit", number (tenths 1)),
    ("drawdown_ladder", .array [rung (tenths 1) "shrink" (number (tenths 5)), rung (tenths 2) "halt_flatten" .null]),
    ("resume_after_halt", .string "human_only")]),
  ("reporting", .object [("alert_channels", strings ["email"]), ("digest", .string "daily")]),
  ("universe", .object [("asset_classes", strings ["us_etf"]), ("derivatives", .bool false),
    ("instrument_allow", strings ["SPY", "EFA"]), ("instrument_deny", strings []), ("leverage_max_gross", number .one),
    ("shorting", .bool false), ("venues", strings ["alpaca"])])]

def platform : Platform where
  mandateFromValue v := if v.same stored then .ok body else .error "another mandate"
  pilotLibrary := .ok []
  library := .ok [⟨"etf_trend_faber", 1, "aa", ["SPY", "EFA"], [("sma_month_ends", .number ⟨some 10, .one⟩)]⟩]
  envelopes _ := .ok ()
  cells claim := .error (.notRegistered s!"this build registers no R41 cells (claimed cell {claim.cellHash})")
  etf := ⟨5, FloatLike.ofRat (1 / 5)⟩
  crypto := ⟨2, FloatLike.ofRat (1 / 2)⟩

def planBody : Json := .object [
  ("proposal_id", .string (Uuid.display 9)), ("risk_scale", number (tenths 5)),
  ("sleeves", .array [.object [("entry_hash", .string "aa"), ("entry_id", .string "etf_trend_faber"),
    ("entry_version", .number ⟨some 1, .one⟩),
    ("point", .object [("cell_key", .string "k"), ("envelope_hash", .string "bb"), ("instruments", strings ["SPY", "VEA"]),
      ("parameters", .object []), ("tranche_sessions", .number ⟨some 2, .one⟩)]),
    ("weight", number .one)]])]

def plan : ProposalPlanRow := ⟨5, 1, 9, 2, 3, 1, "paper", "paper", planBody⟩

/-- The account 2 of the tenant 1, and the rows of another tenant. -/
def database (others : List ProposalPlanRow) : Database where
  exchangeCredentials := [⟨2, 1, "Alpaca_Paper", "main", true, true, none⟩]
  mandates := [⟨3, 1, 2, 1, "active", stored, "5f3c", some 0, some 0, some 1⟩]
  rebalancerPilotPlans := []
  strategyPlans := plan :: others

/-- The account is run, at half of its capital and on the instruments of its point. -/
theorem proposal_granted : ∃ a ∈ (enumerate platform (.pilotAndProposals none) (database [])).accounts,
    ∃ target, InScope (.pilotAndProposals none) (database []) target ∧ ∃ c ∈ (database []).exchangeCredentials,
      ∃ m : CheckedMandate, m.row ∈ (database []).mandates ∧ Granted platform (database []).rows target c m a := by
  have one : 0 < (enumerate platform (.pilotAndProposals none) (database [])).accounts.length := by decide +kernel
  obtain ⟨a, served⟩ := List.exists_mem_of_length_pos one
  exact ⟨a, served, served_granted served⟩

end Sample

end RebalancerStore.AccountSource
