import SignalEngine.RebalancerStore.AccountGrants

/-! # Tenants do not see each other

What is decided about the accounts of a tenant depends on the rows of that tenant only.
-/

open BrokerAdapters Text MandateCore Outcome Ascending

namespace RebalancerStore.AccountSource

open RebalancerCore (MandateHash)

/-! ## The part of a tenant -/

def Database.ofTenant (db : Database) (t : Uuid) : Database where
  exchangeCredentials := db.exchangeCredentials.filter fun c => c.tenantId == t
  mandates := db.mandates.filter fun m => m.tenantId == t
  rebalancerPilotPlans := db.rebalancerPilotPlans.filter fun p => p.tenantId == t
  strategyPlans := db.strategyPlans.filter fun p => p.tenantId == t

def Rows.ofTenant (rows : Rows) (t : Uuid) : Rows where
  credentials := rows.credentials.filter fun c => c.tenantId == t
  mandates := rows.mandates.filter fun m => m.tenantId == t
  plans := rows.plans.filter fun p => p.tenantId == t
  proposalPlans := rows.proposalPlans.filter fun p => p.tenantId == t

def Enumeration.ofTenant (e : Enumeration) (t : Uuid) : Enumeration where
  accounts := e.accounts.filter fun a => a.active.tenantId == Uuid.display t
  exclusions := e.exclusions.filter fun x => x.tenantId == t

/-! ## The rows -/

section Fetch

variable (scope : AccountScope) (db : Database) (t : Uuid)

theorem filter_comm {α : Type} (p q : α → Bool) (xs : List α) : (xs.filter p).filter q = (xs.filter q).filter p := by
  rw [List.filter_filter, List.filter_filter]
  congr 1
  funext a
  exact Bool.and_comm _ _

theorem filter_own {α : Type} {own p q : α → Bool} (xs : List α) (agree : ∀ a, own a = true → p a = q a) :
    ((xs.filter own).filter p).filter own = (xs.filter q).filter own := by
  rw [List.filter_filter, List.filter_filter, List.filter_filter]
  congr 1
  funext a
  cases ours : own a with
  | true => simp [agree a ours]
  | false => simp

theorem fetchProposalPlans_ofTenant : fetchProposalPlans scope (db.ofTenant t) =
    (fetchProposalPlans scope db).filter fun p => p.tenantId == t := by
  unfold fetchProposalPlans
  split
  next => exact filter_comm _ _ _
  next => exact filter_comm _ _ _

theorem targetsFor_ofTenant (plans : List ProposalPlanRow) :
    (targetsFor scope (plans.filter fun p => p.tenantId == t)).filter (fun target => target.tenantId == t) =
      (targetsFor scope plans).filter fun target => target.tenantId == t := by
  rw [targetsFor, targetsFor, filter_ascending, filter_ascending, List.filter_append, List.filter_append]
  congr 2
  split
  next =>
    rw [List.filter_map, List.filter_map, filter_comm (fun p : ProposalPlanRow => p.tenantId == t)]
    congr 1
    rw [List.filter_filter]
    congr 1
    funext p
    exact Bool.and_self _
  next => rfl

theorem fetch_targets_ofTenant :
    (fetch scope (db.ofTenant t)).1.filter (fun target => target.tenantId == t) =
      (fetch scope db).1.filter fun target => target.tenantId == t := by
  rw [fetch, fetch, fetchProposalPlans_ofTenant]
  exact targetsFor_ofTenant scope t _

theorem elem_targets_ofTenant {target : Target} (own : target.tenantId = t) :
    (fetch scope (db.ofTenant t)).1.elem target = (fetch scope db).1.elem target := by
  have same : target ∈ (fetch scope (db.ofTenant t)).1 ↔ target ∈ (fetch scope db).1 := by
    have whole := fetch_targets_ofTenant scope db t
    have mark : (target.tenantId == t) = true := beq_iff_eq.2 own
    constructor
    · intro member
      have kept : target ∈ (fetch scope (db.ofTenant t)).1.filter fun target => target.tenantId == t :=
        List.mem_filter.2 ⟨member, mark⟩
      rw [whole] at kept
      exact List.mem_of_mem_filter kept
    · intro member
      have kept : target ∈ (fetch scope db).1.filter fun target => target.tenantId == t := List.mem_filter.2 ⟨member, mark⟩
      rw [← whole] at kept
      exact List.mem_of_mem_filter kept
  rw [Bool.eq_iff_iff, List.elem_eq_mem, List.elem_eq_mem, decide_eq_true_iff, decide_eq_true_iff, same]

theorem fetch_rows_ofTenant : (fetch scope (db.ofTenant t)).2.ofTenant t = (fetch scope db).2.ofTenant t := by
  have agree {α : Type} (target : α → Target) (a : α) (own : ((target a).tenantId == t) = true) :
      (fetch scope (db.ofTenant t)).1.elem (target a) = (fetch scope db).1.elem (target a) :=
    elem_targets_ofTenant scope db t (eq_of_beq own)
  have credentials := filter_own db.exchangeCredentials (agree CredentialRow.target)
  have mandates := filter_own db.mandates fun (m : MandateRow) own =>
    congrArg (· && m.status == "active") (agree MandateRow.target m own)
  have plans := filter_own db.rebalancerPilotPlans (agree PlanRow.target)
  have proposals : (fetchProposalPlans scope (db.ofTenant t)).filter (fun p => p.tenantId == t) =
      (fetchProposalPlans scope db).filter fun p => p.tenantId == t := by
    rw [fetchProposalPlans_ofTenant, List.filter_filter]
    congr 1
    funext p
    exact Bool.and_self _
  rw [Rows.ofTenant, Rows.ofTenant, Rows.mk.injEq]
  exact ⟨credentials, mandates, plans, proposals⟩

end Fetch

/-! ## The outcomes -/

section Outcomes

variable (rows : Rows) (target : Target)

theorem checkCredential_ofTenant : checkCredential target (rows.ofTenant target.tenantId) = checkCredential target rows := by
  rw [checkCredential, checkCredential, Rows.ofTenant, find?_part]
  intro c wanted
  exact (Bool.and_eq_true_iff.1 wanted).2

theorem pilotPlan_ofTenant : pilotPlan target (rows.ofTenant target.tenantId) = pilotPlan target rows := by
  rw [pilotPlan, pilotPlan, Rows.ofTenant, filter_part]
  intro p wanted
  exact (Bool.and_eq_true_iff.1 wanted).2

theorem openProposals_ofTenant : openProposals target (rows.ofTenant target.tenantId) = openProposals target rows := by
  rw [openProposals, openProposals, Rows.ofTenant, filter_part]
  intro p wanted
  exact (Bool.and_eq_true_iff.1 (Bool.and_eq_true_iff.1 wanted).1).2

variable [UnicodeCase] [DebugText] [ExternalDecimal] [MandateHash] (platform : Platform)

theorem checkMandate_ofTenant :
    checkMandate platform target (rows.ofTenant target.tenantId) = checkMandate platform target rows := by
  rw [checkMandate, checkMandate, Rows.ofTenant, find?_part]
  intro m wanted
  exact (Bool.and_eq_true_iff.1 (Bool.and_eq_true_iff.1 wanted).1).2

variable [UuidReader] [JsonDisplay] (serve : Bool)

theorem evaluateOne_ofTenant :
    evaluateOne platform (rows.ofTenant target.tenantId) serve target = evaluateOne platform rows serve target := by
  rw [evaluateOne, evaluateOne, checkCredential_ofTenant, checkMandate_ofTenant, pilotPlan_ofTenant, openProposals_ofTenant]

theorem tenantId_of_served {a : PilotAccount} (served : evaluateOne platform rows serve target = .ok a) :
    a.active.tenantId = Uuid.display target.tenantId := by
  obtain ⟨_, _, _, _, granted⟩ := evaluateOne_ok rfl rfl served
  rw [granted.active]
  rfl

theorem evaluateWithCells_ofTenant (targets : List Target) (t : Uuid) :
    (evaluateWithCells platform targets rows serve).ofTenant t =
      evaluateWithCells platform (targets.filter fun target => target.tenantId == t) (rows.ofTenant t) serve := by
  rw [evaluateWithCells_eq, evaluateWithCells_eq, Enumeration.ofTenant]
  dsimp only
  rw [List.filter_filterMap, List.filter_filterMap, List.filterMap_filter, List.filterMap_filter]
  have named (target : Target) {a : PilotAccount} (served : evaluateOne platform rows serve target = .ok a) :
      a.active.tenantId = Uuid.display t ↔ target.tenantId = t := by
    rw [tenantId_of_served rows target platform serve served]
    exact ⟨fun same => Uuid.display_injective same, congrArg _⟩
  congr 2 <;> funext target
  all_goals
    by_cases own : target.tenantId = t
    · subst own
      rw [evaluateOne_ofTenant, if_pos (beq_self_eq_true _)]
      cases served : evaluateOne platform rows serve target with
      | ok a => simp [Except.toOption, refusal, named _ served]
      | error reason => simp [Except.toOption, refusal]
    · rw [if_neg (by simpa using own)]
      cases served : evaluateOne platform rows serve target with
      | ok a => simp [Except.toOption, refusal, named _ served, own]
      | error reason => simp [Except.toOption, refusal, own]

theorem enumerate_ofTenant (scope : AccountScope) (db : Database) (t : Uuid) :
    (enumerate platform scope (db.ofTenant t)).ofTenant t = (enumerate platform scope db).ofTenant t := by
  rw [enumerate, enumerate, evaluateWithCells_ofTenant, evaluateWithCells_ofTenant, fetch_targets_ofTenant, fetch_rows_ofTenant]

/-- Two databases with the same rows of a tenant give the same accounts and the same exclusions of
    that tenant, whatever either holds of others. -/
theorem tenants_isolated (scope : AccountScope) (t : Uuid) {db db' : Database} (same : db.ofTenant t = db'.ofTenant t) :
    (enumerate platform scope db).ofTenant t = (enumerate platform scope db').ofTenant t := by
  rw [← enumerate_ofTenant, ← enumerate_ofTenant platform scope db', same]

end Outcomes

namespace Sample

open RebalancerRisk.ClassMandate (quotedText exactDecimal)

attribute [local instance] asciiCase quotedText exactDecimal signedHash proposalNine unread

def foreign : ProposalPlanRow := ⟨6, 7, 9, 2, 3, 1, "live", "live", planBody⟩

theorem foreign_plan_isolated : (enumerate platform (.pilotAndProposals none) (database [])).ofTenant 1 =
    (enumerate platform (.pilotAndProposals none) (database [foreign])).ofTenant 1 :=
  tenants_isolated platform (.pilotAndProposals none) 1 rfl

end Sample

end RebalancerStore.AccountSource
