import SignalEngine.RebalancerRisk.Lifecycle

/-! # The state store

Compare-and-swap persistence of account states. A save names the version it was
computed from; it is refused when another save came first, and when it would
leave a halt without a recorded resume. Calls of any number of clients reach the
store one at a time, so a history is a list of calls.
-/

open BrokerAdapters RebalancerCore

namespace RebalancerRisk

inductive StoreError where
  | versionConflict (expected actual : Nat)
  | illegalTransition (what : String)
  | unavailable (what : String)
  deriving DecidableEq

def StoreError.display : StoreError → String
  | versionConflict expected actual =>
      s!"STORE_VERSION_CONFLICT: expected version {expected} but the stored version is {actual}"
  | illegalTransition what => s!"STORE_ILLEGAL_TRANSITION: {what}"
  | unavailable what => s!"STORE_UNAVAILABLE: {what}"

def sameAmount : Option Dec → Option Dec → Bool
  | some a, some b => a.eq b
  | none, none => true
  | _, _ => false

/-- Decimals are compared by value, not by how they are written. -/
def ResumeRecord.same (a b : ResumeRecord) : Bool :=
  a.approver == b.approver && a.at' == b.at' && a.note == b.note &&
    a.equityAtResume.eq b.equityAtResume && sameAmount a.hwmBefore b.hwmBefore &&
    a.haltReason == b.haltReason && a.haltedAt == b.haltedAt

def sameResumes : List ResumeRecord → List ResumeRecord → Bool
  | [], [] => true
  | a :: as, b :: bs => a.same b && sameResumes as bs
  | _, _ => false

def HaltRecord.same (a b : HaltRecord) : Bool :=
  a.reason == b.reason && a.at' == b.at' && a.detail == b.detail &&
    sameAmount a.equityAtHalt b.equityAtHalt && sameAmount a.hwmAtHalt b.hwmAtHalt &&
    a.failedFlattenAttempts == b.failedFlattenAttempts

def sameHalt : Option HaltRecord → Option HaltRecord → Bool
  | some a, some b => a.same b
  | none, none => true
  | _, _ => false

namespace AccountState

def same (a b : AccountState) : Bool :=
  a.accountId == b.accountId && a.version == b.version && a.status == b.status &&
    a.riskScale.eq b.riskScale && a.shrinkRung == b.shrinkRung && sameAmount a.hwm b.hwm &&
    sameAmount a.dayStartEquity b.dayStartEquity && a.tradingDay == b.tradingDay &&
    sameAmount a.lastEquity b.lastEquity && a.lastEquityAt == b.lastEquityAt &&
    sameHalt a.halt b.halt && sameResumes a.resumes b.resumes

theorem status_of_same {a b : AccountState} (same : a.same b = true) : a.status = b.status := by
  simp only [AccountState.same, Bool.and_eq_true, beq_iff_eq] at same
  exact same.1.1.1.1.1.1.1.1.1.2

theorem lastEquityAt_of_same {a b : AccountState} (same : a.same b = true) :
    a.lastEquityAt = b.lastEquityAt := by
  simp only [AccountState.same, Bool.and_eq_true, beq_iff_eq] at same
  exact same.1.1.2

/-- Whether a store may replace `old` by `new`. -/
def transitionAllowed (old new : AccountState) : Bool :=
  if old.accountId ≠ new.accountId then false
  else if old.status.isHalt && new.status.mayAddRisk then
    new.resumes.length == old.resumes.length + 1 &&
      sameResumes old.resumes (new.resumes.take old.resumes.length)
  else if old.status == .halted && new.status == .flattening then false
  else
    old.resumes.length ≤ new.resumes.length &&
      sameResumes old.resumes (new.resumes.take old.resumes.length)

end AccountState

structure StateStore where
  states : Std.ExtTreeMap String AccountState
  /-- The next calls that fail. -/
  failNext : Nat
  saves : Nat

namespace StateStore

def new : StateStore := ⟨∅, 0, 0⟩

def load (store : StateStore) (accountId : String) :
    StateStore × Except StoreError (Option AccountState) :=
  if 0 < store.failNext then
    ({ store with failNext := store.failNext - 1 }, .error (.unavailable "injected failure"))
  else (store, .ok store.states[accountId]?)

/-- The stored version; a never-saved account is at version 0. -/
def versionOf (store : StateStore) (accountId : String) : Nat :=
  (store.states[accountId]?.map AccountState.version).getD 0

def refuses (store : StateStore) (new : AccountState) : Option StoreError :=
  match store.states[new.accountId]? with
  | none => none
  | some old =>
      if !AccountState.transitionAllowed old new then
        some (.illegalTransition
          s!"{old.status.asStr} to {new.status.asStr} without a recorded human resume")
      else none

def save (store : StateStore) (expected : Nat) (new : AccountState) :
    StateStore × Except StoreError AccountState :=
  if 0 < store.failNext then
    ({ store with failNext := store.failNext - 1 }, .error (.unavailable "injected failure"))
  else if store.versionOf new.accountId ≠ expected then
    (store, .error (.versionConflict expected (store.versionOf new.accountId)))
  else
    match store.refuses new with
    | some e => (store, .error e)
    | none =>
        let stored := { new with version := expected + 1 }
        ({ store with
            states := store.states.insert new.accountId stored
            saves := store.saves + 1 },
          .ok stored)

def failNextCalls (store : StateStore) (n : Nat) : StateStore := { store with failNext := n }

end StateStore

inductive StoreCall where
  | load (accountId : String)
  | save (expected : Nat) (new : AccountState)
  | failNextCalls (n : Nat)

/-- A save that went through: what it expected, and what is stored since. -/
structure Saved where
  expected : Nat
  stored : AccountState

namespace StateStore

def call (store : StateStore) : StoreCall → StateStore
  | .load accountId => (store.load accountId).1
  | .save expected new => (store.save expected new).1
  | .failNextCalls n => store.failNextCalls n

/-- The save of `accountId` that the call is, if it goes through. -/
def savedBy (store : StateStore) (accountId : String) : StoreCall → Option Saved
  | .save expected new =>
      match (store.save expected new).2 with
      | .ok stored => if new.accountId = accountId then some ⟨expected, stored⟩ else none
      | .error _ => none
  | _ => none

/-- The saves of one account that went through, in their order. -/
def history (accountId : String) : StateStore → List StoreCall → List Saved
  | _, [] => []
  | store, c :: calls =>
      (store.savedBy accountId c).toList ++ history accountId (store.call c) calls

end StateStore

/-- `new` continues the resume history of `old`, and leaves a halt only with exactly
    one resume more. -/
structure Follows (old new : AccountState) : Prop where
  appended : ∃ kept added, new.resumes = kept ++ added ∧ sameResumes old.resumes kept = true
  resumed : old.status.isHalt = true → new.status.mayAddRisk = true →
    new.resumes.length = old.resumes.length + 1

/-- The states a client can compute from a state it has loaded. -/
inductive Successor (s : AccountState) : AccountState → Prop where
  | observe (snapshot : EquitySnapshot) (day : NaiveDate) : Successor s (s.observe snapshot day)
  | observeAnchored (snapshot : EquitySnapshot) (maxLagSecs : Int) :
      Successor s (s.observeAnchored snapshot maxLagSecs)
  | halt (reason : HaltReason) (detail : String) (at' : Timestamp) :
      Successor s (s.haltNow reason detail at').1
  | beginFlatten (reason : HaltReason) (detail : String) (at' : Timestamp) :
      Successor s (s.beginFlatten reason detail at').1
  | completeFlatten (verifiedFlat : Bool) : Successor s (s.completeFlatten verifiedFlat).1
  | resume {approval : HumanApproval} {equity : EquitySnapshot} {day : NaiveDate}
      {resumed : AccountState} {t : Transition}
      (ok : s.resume approval equity day = .ok (resumed, t)) : Successor s resumed
  | applyDecision (decision : RiskDecision) (at' : Timestamp) :
      Successor s (RebalancerRisk.applyDecision s decision at').1

/-! ## Resume histories -/

theorem ResumeRecord.same_refl (r : ResumeRecord) : r.same r = true := by
  have amount : sameAmount r.hwmBefore r.hwmBefore = true := by
    cases r.hwmBefore with
    | none => rfl
    | some d => exact Dec.eq_iff.2 rfl
  simp [ResumeRecord.same, amount, Dec.eq_iff.2]

theorem sameResumes_refl (resumes : List ResumeRecord) : sameResumes resumes resumes = true := by
  induction resumes with
  | nil => rfl
  | cons r resumes ih => simp [sameResumes, r.same_refl, ih]

theorem Follows.of_allowed {old new : AccountState}
    (allowed : AccountState.transitionAllowed old new = true) : Follows old new := by
  have kept : sameResumes old.resumes (new.resumes.take old.resumes.length) = true ∧
      (old.status.isHalt = true → new.status.mayAddRisk = true →
        new.resumes.length = old.resumes.length + 1) := by
    unfold AccountState.transitionAllowed at allowed
    split at allowed
    · cases allowed
    split at allowed
    · rw [Bool.and_eq_true, beq_iff_eq] at allowed
      exact ⟨allowed.2, fun _ _ => allowed.1⟩
    next staying =>
        split at allowed
        · cases allowed
        · rw [Bool.and_eq_true] at allowed
          refine ⟨allowed.2, fun halted adding => ?_⟩
          exact absurd (by rw [halted, adding]; rfl) staying
  exact ⟨⟨_, _, (List.take_append_drop _ _).symm, kept.1⟩, kept.2⟩

/-- What a transition other than a resume does: the history stays, a halt is kept,
    and a finished halt does not start to flatten again. -/
structure Kept (s s' : AccountState) : Prop where
  account : s'.accountId = s.accountId
  resumes : s'.resumes = s.resumes
  halt : s.status.isHalt = true → s'.status.isHalt = true
  ended : s.status = .halted → s'.status = .halted

namespace Kept

variable {s s' : AccountState}

theorem refl (s : AccountState) : Kept s s := ⟨rfl, rfl, id, id⟩

theorem allowed (kept : Kept s s') : AccountState.transitionAllowed s s' = true := by
  have noExit : (s.status.isHalt && s'.status.mayAddRisk) = false := by
    have halt := kept.halt
    cases status : s.status <;> cases status' : s'.status <;>
      simp_all [AccountStatus.isHalt, AccountStatus.mayAddRisk]
  have noReturn : (s.status == .halted && s'.status == .flattening) = false := by
    have ended := kept.ended
    cases status : s.status <;> simp_all
  simp [AccountState.transitionAllowed, kept.account, noExit, noReturn, kept.resumes,
    sameResumes_refl]

theorem observe (s : AccountState) (snapshot : EquitySnapshot) (day : NaiveDate) :
    Kept s (s.observe snapshot day) := by
  unfold AccountState.observe
  split <;> exact ⟨rfl, rfl, id, id⟩

theorem observeAnchored (s : AccountState) (snapshot : EquitySnapshot) (maxLagSecs : Int) :
    Kept s (s.observeAnchored snapshot maxLagSecs) := by
  simp only [AccountState.observeAnchored]
  cases s.isNewDay (dateNaive snapshot.at') <;> exact ⟨rfl, rfl, id, id⟩

theorem of_running (account : s'.accountId = s.accountId) (resumes : s'.resumes = s.resumes)
    (running : s.status.isHalt = false) : Kept s s' := by
  refine ⟨account, resumes, fun halted => ?_, fun ended => ?_⟩
  · rw [running] at halted
    cases halted
  · rw [ended] at running
    cases running

theorem enterHalt (s : AccountState) (target : AccountStatus) (reason : HaltReason)
    (detail : String) (at' : Timestamp) : Kept s (s.enterHalt target reason detail at').1 := by
  unfold AccountState.enterHalt
  split
  · exact refl s
  next running => exact of_running rfl rfl (by simpa using running)

theorem completeFlatten (s : AccountState) (verifiedFlat : Bool) :
    Kept s (s.completeFlatten verifiedFlat).1 := by
  unfold AccountState.completeFlatten
  split
  · exact refl s
  split
  · exact ⟨rfl, rfl, fun _ => rfl, fun _ => rfl⟩
  · exact ⟨rfl, rfl, id, id⟩

theorem applyDecision (s : AccountState) (decision : RiskDecision) (at' : Timestamp) :
    Kept s (RebalancerRisk.applyDecision s decision at').1 := by
  unfold RebalancerRisk.applyDecision
  split
  · exact refl s
  next running =>
      have open' : s.status.isHalt = false := by simpa using running
      split
      · unfold AccountState.withFullSize
        split
        · exact refl s
        · exact of_running rfl rfl open'
      · split
        · unfold AccountState.withShrink
          split
          · exact refl s
          · exact of_running rfl rfl open'
        · exact enterHalt s _ _ _ _
      · exact enterHalt s _ _ _ _

end Kept

theorem resume_allowed {s resumed : AccountState} {approval : HumanApproval}
    {equity : EquitySnapshot} {day : NaiveDate} {t : Transition}
    (ok : s.resume approval equity day = .ok (resumed, t)) :
    AccountState.transitionAllowed s resumed = true := by
  unfold AccountState.resume at ok
  split at ok
  · cases ok
  · cases ok
  · cases ok
  next halted =>
      split at ok
      · cases ok
      split at ok
      · cases ok
      · cases ok
        simp [AccountState.transitionAllowed, halted, AccountStatus.isHalt, AccountStatus.mayAddRisk,
          sameResumes_refl]

theorem Successor.allowed {s s' : AccountState} (successor : Successor s s') :
    AccountState.transitionAllowed s s' = true := by
  cases successor with
  | observe snapshot day => exact (Kept.observe s snapshot day).allowed
  | observeAnchored snapshot maxLagSecs => exact (Kept.observeAnchored s snapshot maxLagSecs).allowed
  | halt reason detail at' => exact (Kept.enterHalt s _ reason detail at').allowed
  | beginFlatten reason detail at' => exact (Kept.enterHalt s _ reason detail at').allowed
  | completeFlatten verifiedFlat => exact (Kept.completeFlatten s verifiedFlat).allowed
  | resume ok => exact resume_allowed ok
  | applyDecision decision at' => exact (Kept.applyDecision s decision at').allowed

/-! ## Saves -/

namespace StateStore

/-- A save is refused and changes no state, or it is computed from the stored
    version, follows the stored state, and is all that changes. -/
theorem save_cases (store : StateStore) (expected : Nat) (new : AccountState) :
    (∃ store' e, store.save expected new = (store', .error e) ∧ store'.states = store.states) ∨
    ∃ store' stored, store.save expected new = (store', .ok stored) ∧
      store.versionOf new.accountId = expected ∧ stored.version = expected + 1 ∧
      store'.states = store.states.insert new.accountId stored ∧
      ∀ old, store.states[new.accountId]? = some old → Follows old stored := by
  unfold save
  split
  · exact .inl ⟨_, _, rfl, rfl⟩
  split
  · exact .inl ⟨_, _, rfl, rfl⟩
  next fresh =>
      split
      · exact .inl ⟨_, _, rfl, rfl⟩
      next accepted =>
          refine .inr ⟨_, _, rfl, not_not.1 fresh, rfl, rfl, fun old held => ?_⟩
          rw [refuses, held] at accepted
          dsimp only at accepted
          split at accepted
          · cases accepted
          next allowed =>
              have follows : Follows old new := Follows.of_allowed (by simpa using allowed)
              exact ⟨follows.appended, follows.resumed⟩

theorem save_error {store : StateStore} {expected : Nat} {new : AccountState} {e : StoreError}
    (refused : (store.save expected new).2 = .error e) :
    (store.save expected new).1.states = store.states := by
  obtain ⟨store', e', saved, same⟩ | ⟨store', stored, saved, -⟩ := store.save_cases expected new
  · rw [saved]
    exact same
  · rw [saved] at refused
    cases refused

variable {store : StateStore} {accountId : String} {c : StoreCall}

theorem call_unsaved (unsaved : store.savedBy accountId c = none) :
    (store.call c).states[accountId]? = store.states[accountId]? := by
  cases c with
  | load id =>
      simp only [call, load]
      split <;> rfl
  | failNextCalls n => rfl
  | save expected new =>
      simp only [savedBy] at unsaved
      simp only [call]
      obtain ⟨store', e, saved, same⟩ | ⟨store', stored, saved, -, -, states, -⟩ :=
        store.save_cases expected new
      · rw [saved]
        exact congrArg (·[accountId]?) same
      · rw [saved] at unsaved ⊢
        dsimp only at unsaved ⊢
        split at unsaved
        · cases unsaved
        next other =>
            rw [states, Std.ExtTreeMap.getElem?_insert, if_neg (by simpa using other)]

theorem call_saved {s : Saved} (saves : store.savedBy accountId c = some s) :
    s.expected = store.versionOf accountId ∧ s.stored.version = s.expected + 1 ∧
      (store.call c).states[accountId]? = some s.stored ∧
      ∀ old, store.states[accountId]? = some old → Follows old s.stored := by
  cases c with
  | load id => cases saves
  | failNextCalls n => cases saves
  | save expected new =>
      simp only [savedBy] at saves
      simp only [call]
      obtain ⟨store', e, saved, -⟩ | ⟨store', stored, saved, version, bumped, states, follows⟩ :=
        store.save_cases expected new
      · rw [saved] at saves
        cases saves
      · rw [saved] at saves ⊢
        dsimp only at saves ⊢
        split at saves
        next same =>
            cases saves
            subst same
            exact ⟨version.symm, bumped, by rw [states, Std.ExtTreeMap.getElem?_insert_self], follows⟩
        next => cases saves

theorem versionOf_eq {store store' : StateStore}
    (same : store.states[accountId]? = store'.states[accountId]?) :
    store.versionOf accountId = store'.versionOf accountId := by
  unfold versionOf
  rw [same]

theorem versionOf_saved {stored : AccountState} (held : store.states[accountId]? = some stored) :
    store.versionOf accountId = stored.version := by
  unfold versionOf
  rw [held]
  rfl

theorem history_expected (accountId : String) (calls : List StoreCall) : ∀ store : StateStore,
    (store.history accountId calls).map Saved.expected =
      List.range' (store.versionOf accountId) (store.history accountId calls).length := by
  induction calls with
  | nil =>
      intro store
      rfl
  | cons c calls ih =>
      intro store
      have later := ih (store.call c)
      cases saves : store.savedBy accountId c with
      | none =>
          simp only [history, saves, Option.toList_none, List.nil_append]
          rw [later, versionOf_eq (call_unsaved saves)]
      | some s =>
          obtain ⟨expected, bumped, held, -⟩ := call_saved saves
          simp only [history, saves, Option.toList_some, List.singleton_append, List.map_cons,
            List.length_cons, List.range'_succ]
          rw [later, versionOf_saved held, bumped, expected]

theorem history_version (accountId : String) (calls : List StoreCall) : ∀ store : StateStore,
    ∀ s ∈ store.history accountId calls, s.stored.version = s.expected + 1 := by
  induction calls with
  | nil => simp [history]
  | cons c calls ih =>
      intro store s among
      simp only [history, List.mem_append, Option.mem_toList] at among
      obtain now | later := among
      · exact (call_saved now).2.1
      · exact ih (store.call c) s later

theorem history_follows (accountId : String) (calls : List StoreCall) : ∀ store : StateStore,
    List.IsChain Follows (store.states[accountId]?.toList ++
      (store.history accountId calls).map Saved.stored) := by
  induction calls with
  | nil =>
      intro store
      cases store.states[accountId]? with
      | none => exact .nil
      | some old => exact .singleton old
  | cons c calls ih =>
      intro store
      have later := ih (store.call c)
      cases saves : store.savedBy accountId c with
      | none =>
          simp only [history, saves, Option.toList_none, List.nil_append]
          rw [← call_unsaved saves]
          exact later
      | some s =>
          obtain ⟨-, -, held, follows⟩ := call_saved saves
          rw [held, Option.toList_some, List.singleton_append] at later
          simp only [history, saves, Option.toList_some, List.singleton_append, List.map_cons]
          cases before : store.states[accountId]? with
          | none => exact later
          | some old => exact later.cons_cons (follows old before)

theorem stored_last (accountId : String) (calls : List StoreCall) : ∀ store : StateStore,
    (Runs.run call store calls).states[accountId]? =
      ((store.history accountId calls).getLast?.map Saved.stored).or store.states[accountId]? := by
  induction calls with
  | nil =>
      intro store
      rfl
  | cons c calls ih =>
      intro store
      rw [Runs.run_cons, ih (store.call c)]
      cases saves : store.savedBy accountId c with
      | none =>
          simp only [history, saves, Option.toList_none, List.nil_append]
          rw [call_unsaved saves]
      | some s =>
          obtain ⟨-, -, held, -⟩ := call_saved saves
          simp only [history, saves, Option.toList_some, List.singleton_append, held]
          cases rest : (store.call c).history accountId calls with
          | nil => simp
          | cons s' rest => simp [List.getLast?_cons]

/-- Whatever any number of clients load and save, in whatever order: the saves of an
    account that go through have the versions after one another, no two of them
    expect the same version, a refused save changes nothing, the stored states
    continue one resume history and leave a halt only with one more resume, and
    what a client computes from a stored state is never an illegal transition. -/
theorem compare_and_swap (store : StateStore) (calls : List StoreCall) (accountId : String) :
    (store.history accountId calls).map (fun s => s.stored.version) =
        List.range' (store.versionOf accountId + 1) (store.history accountId calls).length ∧
      ((store.history accountId calls).map Saved.expected).Nodup ∧
      (∀ (any : StateStore) expected new e, (any.save expected new).2 = .error e →
        (any.save expected new).1.states = any.states) ∧
      List.IsChain Follows (store.states[accountId]?.toList ++
        (store.history accountId calls).map Saved.stored) ∧
      (Runs.run call store calls).states[accountId]? =
        ((store.history accountId calls).getLast?.map Saved.stored).or store.states[accountId]? ∧
      ∀ s s', Successor s s' → AccountState.transitionAllowed s s' = true := by
  have expected := history_expected accountId calls store
  refine ⟨?_, ?_, fun _ _ _ _ => save_error, history_follows accountId calls store,
    stored_last accountId calls store, fun _ _ => Successor.allowed⟩
  · have versions : (store.history accountId calls).map (fun s => s.stored.version) =
        ((store.history accountId calls).map Saved.expected).map (· + 1) := by
      rw [List.map_map]
      exact List.map_congr_left (history_version accountId calls store)
    rw [versions, expected, List.range'_succ_left]
  · rw [expected]
    exact List.nodup_range'

end StateStore

end RebalancerRisk
