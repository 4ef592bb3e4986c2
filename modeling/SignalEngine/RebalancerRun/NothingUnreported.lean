import SignalEngine.RebalancerRun.Reported

/-! # The last look at the orders

The step after trading looks once more for orders it knows nothing of, and
halts on an order that is still live, could not be read, or left a trace of
trouble. A run it lets pass has the end of every order it followed.
-/

open BrokerAdapters Interaction Text

namespace RebalancerRun

open RebalancerCore (InstantText PlannedOrder Sha256)
open RebalancerRisk (AccountState StoreError)

/-- The run ended with a halt: the account had halted, or its halt was given to the store. -/
inductive Halts (run : Run) (log : Trace) : Prop where
  | already (outcome : run.record.outcome.kind = .halted) (halted : run.state.status.isHalt = true)
  | stored (outcome : run.record.outcome.kind = .halted) (expected : Nat) (next saved : AccountState)
      (halted : next.status.isHalt = true) (answered : Said log (.saveState expected next) (.ok saved))
  /-- The store did not take it: the run failed closed. -/
  | refused (expected : Nat) (next : AccountState) (e : StoreError) (halted : next.status.isHalt = true)
      (answered : Said log (.saveState expected next) (.error e))

theorem Halts.later {run : Run} (before : Trace) {after : Trace} (halts : Halts run after) : Halts run (before ++ after) := by
  cases halts with
  | already outcome halted => exact .already outcome halted
  | stored outcome expected next saved halted answered =>
      exact .stored outcome expected next saved halted (answered.append_right before)
  | refused expected next e halted answered => exact .refused expected next e halted (answered.append_right before)

theorem haltNow_isHalt (s : AccountState) (reason : RebalancerRisk.HaltReason) (detail : String) (at' : RebalancerCore.Instant) :
    (s.haltNow reason detail at').1.status.isHalt = true := by
  unfold AccountState.haltNow AccountState.enterHalt
  split
  · assumption
  · rfl

/-- Neither a look-up under a tag nor a new order. -/
def RunOp.mute : RunOp → Bool
  | .broker (.findByTag _) | .broker (.place _) => false
  | _ => true

def Asked.mute (asked : Asked) : Prop := asked.op.mute = true

theorem RunOp.mute.nothing {op : RunOp} (mute : op.mute = true) (answer : op.Answer) :
    (∀ tag, sighted tag op answer = []) ∧ isUnknown op answer = false := by
  constructor
  · intro tag
    unfold sighted
    split
    · cases mute
    · cases mute
    · rfl
  · unfold isUnknown
    split
    · cases mute
    · rfl

theorem wordless_of_mute {trace : Trace} (mute : ∀ made ∈ trace, Asked.mute made.1) : Wordless trace := by
  constructor
  · exact fun tag => List.flatMap_eq_nil_iff.2 fun made member => (RunOp.mute.nothing (mute made member) made.2).1 tag
  · rw [sentUnknown, List.any_eq_false]
    intro made member
    simp [(RunOp.mute.nothing (mute made member) made.2).2]

namespace Run

section Halting

theorem endWith_traced {α : Type} {last : RunM Unit} {run : Run} {stop : Run → Trace → Prop}
    (traced : Traced run last fun _ run' log => stop run' log) :
    TracedStep run (endWith last : StepM α) stop fun _ _ _ => False := by
  apply TracedStep.bind (TracedStep.lift traced)
  intro _ run' log final
  apply TracedStep.failure
  rwa [List.append_nil]

theorem askingStep {α : Type} {run : Run} (op : RunOp) {f : op.Answer → StepM α} {stop : Run → Trace → Prop}
    {final : α → Run → Trace → Prop}
    (each : ∀ answer, TracedStep run (f answer) (fun run' later => stop run' (⟨⟨run, op⟩, answer⟩ :: later))
      fun a run' later => final a run' (⟨⟨run, op⟩, answer⟩ :: later)) :
    TracedStep run (liftM (askFor op) >>= f) stop final := TracedStep.call (⟨run, op⟩ : Asked) rfl each

variable [InstantText] {ctx : RunContext}

theorem alert_traced (code : AlertCode) (severity : AlertSeverity) (message dedupe : String) (run : Run) :
    Traced run (alert ctx code severity message dedupe) fun _ run' _ => run'.state = run.state := by
  refine asking (.broker .now) fun at' => ?_
  refine asking (.notify _) fun answer => ?_
  match answer with
  | .ok () => exact Traced.modify rfl
  | .error e => exact Traced.modify rfl

theorem saveState_traced {next : AccountState} (halted : next.status.isHalt = true) (run : Run) :
    TracedStep run (saveState ctx next) (fun run' log => Halts run' log) fun _ run' log =>
      run'.state.status.isHalt = true ∨ ∃ expected saved, Said log (.saveState expected next) (.ok saved) := by
  apply TracedStep.get
  by_cases same : next.same run.state = true
  · rw [if_pos same]
    apply TracedStep.pure
    rw [← RebalancerRisk.AccountState.status_of_same same]
    exact .inl halted
  · rw [if_neg same]
    refine askingStep (.saveState run.state.version next) fun answer => ?_
    match answer with
    | .ok saved => exact TracedStep.lift (Traced.modify (.inr ⟨_, saved, said_now []⟩))
    | .error e =>
        have failing : ∀ text : String, TracedStep run (failRun ctx .stateStoreError text : StepM Unit)
            (fun run' log => Halts run' (⟨⟨run, .saveState run.state.version next⟩, .error e⟩ :: log)) fun _ _ _ => False := by
          intro text
          apply endWith_traced
          exact (Traced.of_only (failClosed_quiet ctx _ _ run ())).mono fun _ _ log _ => .refused _ next e halted (said_now log)
        cases e with
        | versionConflict | illegalTransition | unavailable =>
            exact (failing _).mono (fun _ _ stopped => stopped) fun _ _ _ => False.elim

theorem haltReconciliation_traced {α : Type} (detail : String) (run : Run) :
    TracedStep run (haltReconciliation ctx detail : StepM α) (fun run' log => Halts run' log) fun _ _ _ => False := by
  refine askingStep (.broker .now) fun at' => ?_
  apply TracedStep.get
  apply TracedStep.done rfl
  have halts : (run.state.haltNow .reconciliation detail at').1.status.isHalt = true := haltNow_isHalt _ _ _ _
  apply TracedStep.bind ((saveState_traced halts _).mono (fun _ _ stopped => stopped.later [_]) fun _ _ _ saved => saved)
  intro _ run' log saved
  apply endWith_traced
  apply Traced.bind (alert_traced _ _ _ _ run')
  intro _ run'' later same
  apply Traced.modify
  rcases saved with halted | ⟨expected, saved, answered⟩
  · exact .already rfl (same ▸ halted)
  · exact .stored rfl expected _ saved halts ((answered.append_left _).append_right [_])

end Halting

/-! ## The last look-up -/

/-- An order after the last look-up: what had been followed is as it was. -/
structure LookedAgain (p p' : PlacedOrder) : Prop where
  tag : p'.tag = p.tag
  outcome : p'.outcome = p.outcome
  anomalies : p'.anomalies = p.anomalies
  reports : p.outcome ≠ .unknownNotFound → p'.reports = p.reports

/-- The broker listed the order under the tag, and its report is kept. -/
def Lists (tag : String) (trace : Trace) (id : String) (p : PlacedOrder) : Prop :=
  p.tag = tag ∧ p.outcome = .unknownNotFound ∧ ∃ r ∈ p.reports, r.brokerOrderId = id ∧
    ∃ found, r ∈ found ∧ Said trace (.broker (.findByTag tag)) (.ok found)

theorem lookAgain_traced (p : PlacedOrder) (run : Run) : Traced run (lookAgain p) fun p' run' seen =>
    run' = run ∧ LookedAgain p p' ∧ ∀ tag, ∀ id ∈ sightings tag seen, Lists tag seen id p' := by
  have same : LookedAgain p p := ⟨rfl, rfl, rfl, fun _ => rfl⟩
  unfold lookAgain
  split
  · exact Traced.pure ⟨rfl, same, fun tag id member => absurd member (List.not_mem_nil)⟩
  · rename_i unknown
    refine asking (.broker (.findByTag p.tag)) fun answer => ?_
    match answer with
    | .error e => exact Traced.pure ⟨rfl, same, fun tag id member => absurd member (List.not_mem_nil)⟩
    | .ok [] =>
        refine Traced.pure ⟨rfl, same, fun tag id member => ?_⟩
        simp [sightings, sighted] at member
    | .ok (first :: others) =>
        refine Traced.pure ⟨rfl, ⟨rfl, rfl, rfl, fun known => absurd (not_not.1 unknown) known⟩, fun tag id member => ?_⟩
        by_cases named : p.tag = tag
        · subst named
          simp only [sightings, sighted, List.flatMap_cons, List.flatMap_nil, List.append_nil, if_true, List.mem_map] at member
          obtain ⟨r, listed, named⟩ := member
          exact ⟨rfl, not_not.1 unknown, r, listed, named, first :: others, listed, said_now []⟩
        · simp [sightings, sighted, named] at member

theorem Lists.append_left {tag id : String} {before : Trace} (after : Trace) {p : PlacedOrder} (lists : Lists tag before id p) :
    Lists tag (before ++ after) id p := by
  obtain ⟨same, unknown, r, reported, named, found, listed, answered⟩ := lists
  exact ⟨same, unknown, r, reported, named, found, listed, answered.append_left after⟩

theorem Lists.append_right {tag id : String} (before : Trace) {after : Trace} {p : PlacedOrder} (lists : Lists tag after id p) :
    Lists tag (before ++ after) id p := by
  obtain ⟨same, unknown, r, reported, named, found, listed, answered⟩ := lists
  exact ⟨same, unknown, r, reported, named, found, listed, answered.append_right before⟩

theorem lookAllAgain_traced (placed : List PlacedOrder) : ∀ run : Run, Traced run (lookAllAgain placed) fun placed' run' seen =>
    run' = run ∧ List.Forall₂ LookedAgain placed placed' ∧
      ∀ tag, ∀ id ∈ sightings tag seen, ∃ q ∈ placed', Lists tag seen id q := by
  induction placed with
  | nil => exact fun run => Traced.pure ⟨rfl, .nil, fun tag id member => absurd member (List.not_mem_nil)⟩
  | cons p ps ih =>
      intro run
      apply Traced.bind (lookAgain_traced p run)
      rintro p' _ seen ⟨rfl, looked, lists⟩
      apply Traced.bind (ih _)
      rintro ps' _ later ⟨rfl, all, others⟩
      apply Traced.pure
      rw [List.append_nil]
      refine ⟨rfl, .cons looked all, ?_⟩
      intro tag id member
      rw [sightings_append, List.mem_append] at member
      rcases member with now | then'
      · exact ⟨p', List.mem_cons_self, (lists tag id now).append_left later⟩
      · obtain ⟨q, member, listed⟩ := others tag id then'
        exact ⟨q, List.mem_cons_of_mem _ member, listed.append_right seen⟩

/-! ## Reconciliation -/

theorem calm_of_verdict {findings : List ReconFinding} (passes : reconVerdictOf findings ≠ .haltAndAlert) :
    ∀ f ∈ findings, f.severity ≠ .halt := by
  intro f member halts
  apply passes
  unfold reconVerdictOf
  rw [if_pos]
  exact List.any_eq_true.2 ⟨f, member, by simp [halts]⟩

theorem untroubled_of_calm {live : Bool} {p : PlacedOrder} (calm : ∀ f ∈ orderFindings (expectedFrom live p), f.severity ≠ .halt) :
    p.anomalies = [] := by
  by_contra trouble
  obtain ⟨a, rest, split⟩ := List.exists_cons_of_ne_nil trouble
  have expected : (expectedFrom live p).expectExists = true := by simp [expectedFrom, split]
  apply calm (haltFinding .duplicateFill (some p.symbol) s!"{p.tag}: {a}")
  · unfold orderFindings
    rw [expected]
    apply List.mem_append_left
    exact List.mem_map.2 ⟨a, by simp [expectedFrom, split], rfl⟩
  · rfl

section ReconPost

variable [InstantText] [UnicodeCase] [DebugText] {ctx : RunContext}

omit [UnicodeCase] in
theorem rereadPost_traced (run : Run) :
    TracedStep run (rereadPost ctx) (fun run' log => Halts run' log) fun _ run' _ => run' = run := by
  refine askingStep (.broker .now) fun at' => ?_
  refine askingStep (.broker (.snapshot at')) fun answer => ?_
  match answer with
  | .ok s => exact TracedStep.pure rfl
  | .error e =>
      apply TracedStep.bind (TracedStep.lift Traced.any)
      intro _ run' seen _
      exact (haltReconciliation_traced _ run').mono (fun _ log halts => (halts.later seen).later [_, _]) fun _ _ _ => False.elim

omit [DebugText] in
theorem expectedAfter_traced (base : ReconBaseline) (orders : List ExpectedOrder) (run : Run) :
    TracedStep run (expectedAfter ctx base orders) (fun run' log => Halts run' log) fun _ _ _ => True := by
  unfold expectedAfter
  split
  · split
    · exact TracedStep.pure trivial
    · exact (haltReconciliation_traced _ run).mono (fun _ _ halts => halts) fun _ _ _ => False.elim
  · exact TracedStep.pure trivial

theorem reconcilePost_judges (expected : List ExpectedOrder) {run : Run} {base : ReconBaseline} (baseline : run.preBaseline = some base) :
    TracedStep run (reconcilePost ctx expected) (fun run' log => Halts run' log) fun _ _ _ =>
      ∀ o ∈ expected, ∀ f ∈ orderFindings o, f.severity ≠ .halt := by
  apply TracedStep.bind (rereadPost_traced run)
  rintro snap _ read rfl
  apply TracedStep.done rfl
  apply TracedStep.get
  dsimp only
  rw [baseline]
  apply TracedStep.bind ((expectedAfter_traced base _ _).mono (fun _ _ halts => halts.later read) fun _ _ _ done => done)
  intro after run' applied _
  refine askingStep (.broker .now) fun at' => ?_
  apply TracedStep.bind (TracedStep.lift Traced.any)
  intro _ run'' noted _
  apply TracedStep.done rfl
  split
  · exact (haltReconciliation_traced _ _).mono
      (fun _ _ halts => (((halts.later noted).later [_]).later applied).later read) fun _ _ _ => False.elim
  · rename_i passes
    apply TracedStep.lift
    apply Traced.modify
    intro o member f found
    apply calm_of_verdict passes
    exact List.mem_append_right _ (List.mem_flatMap.2 ⟨o, member, found⟩)

omit [UnicodeCase] [DebugText] [InstantText] in
theorem step_any {α : Type} {x : StepM α} {run : Run} : TracedStep run x (fun _ _ => True) fun _ _ _ => True :=
  (Traced.any).mono fun r _ _ _ => by cases r <;> trivial

theorem stepReconPre_baseline (run : Run) :
    TracedStep run (stepReconPre ctx) (fun _ _ => True) fun _ run' _ => ∃ base, run'.preBaseline = some base := by
  apply TracedStep.bind step_any
  intro last run₁ _ _
  apply TracedStep.bind step_any
  intro orders run₂ _ _
  apply TracedStep.bind step_any
  intro _ run₃ _ _
  apply TracedStep.bind step_any
  intro baseline run₄ _ _
  apply TracedStep.get
  apply TracedStep.bind step_any
  intro snap run₅ _ _
  apply TracedStep.bind step_any
  intro at' run₆ _ _
  apply TracedStep.bind step_any
  intro _ run₇ _ _
  apply TracedStep.bind step_any
  intro _ run₈ _ _
  split
  · exact (haltReconciliation_traced _ run₈).mono (fun _ _ _ => trivial) fun _ _ _ => False.elim
  · apply TracedStep.lift
    apply Traced.modify
    exact ⟨_, rfl⟩

/-! The halt and the reconciliation look nothing up. -/

omit [InstantText] [UnicodeCase] [DebugText] in
theorem askFor_mute {op : RunOp} (mute : op.mute = true) : Calls Asked.mute (askFor op) := fun _ _ _ => ⟨mute, fun _ _ _ => trivial⟩

omit [InstantText] [UnicodeCase] [DebugText] in
theorem note_mute (step text : String) : Calls Asked.mute (note step text) := Calls.bind (askFor_mute rfl) fun _ => Calls.modify

omit [UnicodeCase] [DebugText] in
theorem alert_mute (code : AlertCode) (severity : AlertSeverity) (message dedupe : String) :
    Calls Asked.mute (alert ctx code severity message dedupe) := by
  apply Calls.bind (askFor_mute rfl)
  intro at'
  apply Calls.bind (askFor_mute rfl)
  intro answer
  cases answer with
  | ok => exact Calls.modify
  | error e => exact Calls.modify

omit [UnicodeCase] [DebugText] in
theorem failRun_mute {α : Type} (code : RunCode) (message : String) : StepCalls Asked.mute (failRun ctx code message : StepM α) :=
  (StepCalls.lift ((alert_mute _ _ _ _).bind fun _ => Calls.modify)).bind fun _ => StepCalls.failure

omit [UnicodeCase] [DebugText] in
theorem saveState_mute (next : AccountState) : StepCalls Asked.mute (saveState ctx next) := by
  apply StepCalls.bind StepCalls.get
  intro run
  split
  · exact StepCalls.pure
  · apply StepCalls.bind (StepCalls.lift (askFor_mute rfl))
    intro answer
    match answer with
    | .ok saved => exact StepCalls.modify
    | .error (.versionConflict _ _) => exact failRun_mute _ _
    | .error (.illegalTransition _) => exact failRun_mute _ _
    | .error (.unavailable _) => exact failRun_mute _ _

omit [UnicodeCase] [DebugText] in
theorem haltReconciliation_mute {α : Type} (detail : String) : StepCalls Asked.mute (haltReconciliation ctx detail : StepM α) := by
  apply StepCalls.bind (StepCalls.lift (askFor_mute rfl))
  intro at'
  apply StepCalls.bind StepCalls.get
  intro run
  apply StepCalls.bind (StepCalls.lift Calls.modify)
  intro _
  apply StepCalls.bind (saveState_mute _)
  intro _
  exact (StepCalls.lift ((alert_mute _ _ _ _).bind fun _ => Calls.modify)).bind fun _ => StepCalls.failure

omit [UnicodeCase] in
theorem rereadPost_mute : StepCalls Asked.mute (rereadPost ctx) := by
  apply StepCalls.bind (StepCalls.lift (askFor_mute rfl))
  intro at'
  apply StepCalls.bind (StepCalls.lift (askFor_mute rfl))
  intro answer
  match answer with
  | .ok s => exact StepCalls.pure
  | .error e => exact (StepCalls.lift (note_mute _ _)).bind fun _ => haltReconciliation_mute _

omit [DebugText] in
theorem expectedAfter_mute (base : ReconBaseline) (orders : List ExpectedOrder) :
    StepCalls Asked.mute (expectedAfter ctx base orders) := by
  unfold expectedAfter
  split
  · split
    · exact StepCalls.pure
    · exact haltReconciliation_mute _
  · exact StepCalls.pure

theorem reconcilePost_mute (expected : List ExpectedOrder) : StepCalls Asked.mute (reconcilePost ctx expected) := by
  apply StepCalls.bind rereadPost_mute
  intro snap
  apply StepCalls.bind (StepCalls.lift Calls.modify)
  intro _
  apply StepCalls.bind StepCalls.get
  intro run
  apply StepCalls.bind
  · show StepCalls Asked.mute (held run.preBaseline)
    cases run.preBaseline with
    | none => exact StepCalls.failure
    | some base => exact StepCalls.pure
  · intro base
    apply StepCalls.bind (expectedAfter_mute base _)
    intro after
    apply StepCalls.bind (StepCalls.lift (askFor_mute rfl))
    intro at'
    apply StepCalls.bind (StepCalls.lift (note_mute _ _))
    intro _
    apply StepCalls.bind (StepCalls.lift Calls.modify)
    intro _
    split
    · exact haltReconciliation_mute _
    · exact StepCalls.modify

theorem reconcilePost_traced (expected : List ExpectedOrder) {run : Run} {base : ReconBaseline} (baseline : run.preBaseline = some base) :
    TracedStep run (reconcilePost ctx expected) (fun run' log => Halts run' log) fun _ run' log =>
      (∀ o ∈ expected, ∀ f ∈ orderFindings o, f.severity ≠ .halt) ∧ run'.record.placed = run.record.placed ∧ Wordless log := by
  have kept := Traced.of_only (reconcilePost_quiet ctx expected run ())
  have mute : Traced run (reconcilePost ctx expected).run fun _ _ seen => True ∧ ∀ made ∈ seen, Asked.mute made.1 :=
    Traced.of_only (reconcilePost_mute expected run () trivial)
  apply Traced.mono (Traced.and (reconcilePost_judges expected baseline) (Traced.and kept mute))
  rintro (_ | _) run' log ⟨final, ⟨same, -⟩, -, quiet⟩
  · exact final
  · exact ⟨final, same.placed, wordless_of_mute quiet⟩

/-- What the last step leaves of the orders when it does not halt. -/
structure Passed (placed : List PlacedOrder) (trace : Trace) (placed' : List PlacedOrder) : Prop where
  looked : List.Forall₂ LookedAgain placed placed'
  listed : ∀ tag, ∀ id ∈ sightings tag trace, ∃ q ∈ placed', Lists tag trace id q
  settled : ∀ q ∈ placed', q.outcome ≠ .unsettled
  untroubled : ∀ q ∈ placed', q.anomalies = []

theorem stepReconPost_traced (live : ctx.mode = .live) {run : Run} {base : ReconBaseline} (baseline : run.preBaseline = some base) :
    TracedStep run (stepReconPost ctx) (fun run' log => Halts run' log) fun _ run' log =>
      Passed run.record.placed log run'.record.placed := by
  unfold stepReconPost
  rw [if_neg (by simp [live])]
  apply TracedStep.get
  apply TracedStep.done rfl
  apply TracedStep.bind (TracedStep.lift (lookAllAgain_traced run.record.placed _))
  rintro placed _ looks ⟨rfl, looked, listed⟩
  apply TracedStep.done rfl
  dsimp only
  split
  · apply TracedStep.bind (TracedStep.lift Traced.any)
    intro _ run' noted _
    exact (haltReconciliation_traced _ run').mono (fun _ _ halts => (halts.later noted).later looks) fun _ _ _ => False.elim
  · rename_i settled
    have before : Run.preBaseline { run with record := { run.record with placed } } = some base := baseline
    apply (reconcilePost_traced _ before).mono (fun _ _ halts => halts.later looks)
    rintro _ run' log ⟨calm, kept, none, -⟩
    rw [kept]
    refine ⟨looked, ?_, ?_, ?_⟩
    · intro tag id member
      rw [sightings_append, none, List.append_nil] at member
      obtain ⟨q, found, lists⟩ := listed tag id member
      exact ⟨q, found, lists.append_left log⟩
    · intro q member unsettled
      apply settled
      rw [Bool.not_eq_true', List.isEmpty_eq_false_iff]
      exact List.ne_nil_of_mem (List.mem_filter.2 ⟨member, by simp [unsettled]⟩)
    · exact fun q member => untroubled_of_calm (calm _ (List.mem_map_of_mem member))

end ReconPost

end Run

/-! ## Nothing unreported -/

/-- The orders of a tag end as the run sees them: there is one at most when it looks for it, an adopted order has
    ended once its cancel is answered, and one that appears after the run has ended by then. -/
structure Ends (tag : String) (trace last : Trace) : Prop where
  one : ∀ id ∈ sightings tag trace, ∀ id' ∈ sightings tag trace, id = id'
  cancelled : Adopts tag trace → ∀ id cancel r, Said trace (.broker (.cancelAndSettle id)) (.ok (cancel, r)) →
    r.status.isTerminal = true
  late : ∀ found, Said last (.broker (.findByTag tag)) (.ok found) → ∀ r ∈ found, r.status.isTerminal = true

/-- The order's entry says how it ended, and an order that may exist does not pass for one that was not sent. -/
structure Accounted (tag : String) (trace : Trace) (p : PlacedOrder) : Prop where
  tells : ∀ id ∈ sightings tag trace, p.Tells tag trace id
  shown : sightings tag trace ≠ [] ∨ sentUnknown trace = true → p.outcome ≠ .notSent ∧ p.outcome ≠ .rejected

theorem Fate.tells (tag : String) {id : String} {trace : Trace} {was : PlacedOutcome} {p p' : PlacedOrder} (fate : Fate trace id was p)
    (looked : Run.LookedAgain p p') (known : p.outcome ≠ .unknownNotFound) (settled : p'.outcome ≠ .unsettled)
    (untroubled : p'.anomalies = [])
    (ended : was = .adoptedExisting → ∀ cancel r, Said trace (.broker (.cancelAndSettle id)) (.ok (cancel, r)) → r.status.isTerminal = true) :
    p'.Tells tag trace id ∧ p'.outcome ≠ .notSent ∧ p'.outcome ≠ .rejected := by
  cases fate with
  | ended r member terminal answered outcome =>
      rw [looked.outcome]
      exact ⟨⟨r, (looked.reports known).symm ▸ member, terminal, answered tag⟩, outcome⟩
  | doubtful noted => exact absurd (looked.anomalies ▸ untroubled) noted
  | unsettled outcome => exact absurd (looked.outcome.trans outcome) settled
  | lingers adopted outcome cancel r answered live =>
      rw [ended adopted cancel r answered] at live
      cases live

theorem Became.accounted {tag : String} {trace last : Trace} {p p' : PlacedOrder} (became : Became tag p trace)
    (looked : Run.LookedAgain p p') (settled : p'.outcome ≠ .unsettled) (untroubled : p'.anomalies = [])
    (ends : Ends tag trace last) : Accounted tag trace p' := by
  cases became with
  | absent ids surely known =>
      constructor
      · simp [ids]
      · simp [ids, surely]
  | unknown ids outcome =>
      constructor
      · simp [ids]
      · rw [looked.outcome, outcome]
        exact fun _ => ⟨by decide, by decide⟩
  | accepted id ids known fate =>
      obtain ⟨tells, shown⟩ := fate.tells tag looked known settled untroubled (by simp)
      constructor
      · simpa [ids] using tells
      · exact fun _ => shown
  | adopted first others found ids known fate =>
      have once : ∀ id ∈ sightings tag trace, id = first.brokerOrderId :=
        fun id member => ends.one id member _ (by simp [ids])
      obtain ⟨tells, shown⟩ := fate.tells tag looked known settled untroubled
        fun _ cancel r answered => ends.cancelled ⟨first, others, found⟩ _ cancel r answered
      constructor
      · exact fun id member => once id member ▸ tells
      · exact fun _ => shown

theorem looked_at {placed placed' : List PlacedOrder} (looked : List.Forall₂ Run.LookedAgain placed placed') {i : Nat}
    {p : PlacedOrder} (kept : placed[i]? = some p) : ∃ p', placed'[i]? = some p' ∧ Run.LookedAgain p p' := by
  obtain ⟨length, each⟩ := List.forall₂_iff_get.1 looked
  obtain ⟨inside, rfl⟩ := List.getElem?_eq_some_iff.1 kept
  exact ⟨placed'[i], List.getElem?_eq_getElem _, each i inside (length ▸ inside)⟩

section Whole

variable [InstantText] [UnicodeCase] [DebugText] {ctx : RunContext}

/-- The step before trading leaves a baseline or ends the run; with a baseline, the last step
    of a live run knows how an order ended, or the run halts. -/
theorem reported_or_halts (live : ctx.mode = .live) {o : PlannedOrder} {phase : Phase} {run run₁ run₂ run₃ : Run}
    {p : PlacedOrder} {trace last : Trace} (executed : (Run.executeOrder ctx o phase run).Runs trace (.done (p, run₁)))
    {i : Nat} (kept : run₂.record.placed[i]? = some p) {base : ReconBaseline} (baseline : run₂.preBaseline = some base)
    {result : Option Unit} (stepped : ((Run.stepReconPost ctx).run run₂).Runs last (.done (result, run₃)))
    (ends : Ends o.tag trace last) :
    (∀ {before opened : Run} {first : Trace},
      ((Run.stepReconPre ctx).run before).Runs first (.done (some (), opened)) → opened.preBaseline.isSome = true) ∧
    ((result = none ∧ Halts run₃ last) ∨
      (∃ p', run₃.record.placed[i]? = some p' ∧ Accounted o.tag trace p') ∧
      ∀ id ∈ sightings o.tag last, ∃ q ∈ run₃.record.placed, q.tag = o.tag ∧ q.outcome = .unknownNotFound ∧
        q.Tells o.tag last id) := by
  refine ⟨fun came => Option.isSome_iff_exists.2 (Traced.ran (Run.stepReconPre_baseline _) came), ?_⟩
  obtain ⟨-, became⟩ := (Run.executeOrder_traced o phase run).ran executed
  have final := Traced.ran (Run.stepReconPost_traced live baseline) stepped
  match result with
  | none => exact .inl ⟨rfl, final⟩
  | some () =>
      obtain ⟨looked, listed, settled, untroubled⟩ := final
      obtain ⟨p', kept', same⟩ := looked_at looked kept
      have member : p' ∈ run₃.record.placed := List.mem_of_getElem? kept'
      refine .inr ⟨⟨p', kept', became.accounted same (settled p' member) (untroubled p' member) ends⟩, ?_⟩
      intro id sighted
      obtain ⟨q, member, tag, unknown, r, reported, named, found, listed, answered⟩ := listed o.tag id sighted
      exact ⟨q, member, tag, unknown, r, reported, ends.late found answered r listed, .listed found answered listed named⟩

end Whole

/-! An adopted buy that outlives its cancel, and one that fills. -/

namespace LastingOrder

open RebalancerCore (epochText)
open RebalancerCore.Amount (cents)

attribute [local instance] asciiCase epochText Fund.plainQuotes

def buy : PlannedOrder where
  tag := "rb1:buy"
  sleeve := "trend"
  venue := "kraken"
  assetClass := "crypto"
  symbol := "BTC/USD"
  side := .buy
  quantity := cents 100
  price := cents 10000
  notional := cents 10000
  estFee := cents 0

def found (status : OrderStatus) : OrderReport :=
  ⟨"id1", some "rb1:buy", "BTC/USD", some .buy, status, cents 100, cents 0, none, none, none⟩

def start : Run :=
  { Run.init (Fund.context .live) 0 with
    snapshot := some Fund.inCash
    preBaseline := some (ReconBaseline.fromSnapshot Fund.inCash) }

/-- The broker knows the order, which is as the read-out says, and cannot cancel it. -/
def answers (read : OrderStatus) (w : Unit) : (asked : Asked) → asked.Answer × Unit
  | ⟨_, .broker (.findByTag _)⟩ => (.ok [found .open], w)
  | ⟨_, .broker (.getOrder _)⟩ => (.ok (found read), w)
  | ⟨_, .broker (.cancelAndSettle _)⟩ => (.ok (⟨0, false⟩, found read), w)
  | ⟨_, .broker (.snapshot _)⟩ => (.ok { Fund.inCash with openOrders := if read.isTerminal then [] else [found read] }, w)
  | ⟨_, op⟩ => (Fund.calm op, w)

def executing : Prog Asked Asked.Answer (PlacedOrder × Run) := Run.executeOrder (Fund.context .live) buy .buys start

def placedIn (r : PlacedOrder × Run) : Run := { r.2 with record := { r.2.record with placed := r.2.record.placed ++ [r.1] } }

def reconciling (r : PlacedOrder × Run) : Prog Asked Asked.Answer (Option Unit × Run) :=
  (Run.stepReconPost (Fund.context .live)).run (placedIn r)

def executed (read : OrderStatus) : PlacedOrder × Run := executing.resultOf (answers read) ()

def reconciled (read : OrderStatus) : Option Unit × Run := (reconciling (executed read)).resultOf (answers read) ()

/-- The step passes with a buy that is still open in its only report. -/
theorem open_order_passes :
    ∃ trace last, executing.Runs trace (.done (executed .open)) ∧ (reconciling (executed .open)).Runs last (.done (reconciled .open)) ∧
      "id1" ∈ sightings buy.tag trace ∧ (reconciled .open).1 = some () ∧
      ¬ ∃ p', (reconciled .open).2.record.placed[0]? = some p' ∧ p'.Tells buy.tag trace "id1" := by
  have live : ∀ p' ∈ (reconciled .open).2.record.placed, ∀ r ∈ p'.reports, r.status.isTerminal = false := by decide +kernel
  refine ⟨_, _, Prog.runs_traceOf (answers .open) _ (), Prog.runs_traceOf (answers .open) _ (), by decide +kernel,
    by decide +kernel, ?_⟩
  rintro ⟨p', kept, r, member, terminal, -⟩
  rw [live p' (List.mem_of_getElem? kept) r member] at terminal
  cases terminal

/-- Where the same order was canceled, its entry tells so. -/
theorem canceled_order_accounted :
    ∃ trace last, executing.Runs trace (.done (executed .canceled)) ∧
      (reconciling (executed .canceled)).Runs last (.done (reconciled .canceled)) ∧ "id1" ∈ sightings buy.tag trace ∧
      (((reconciled .canceled).1 = none ∧ Halts (reconciled .canceled).2 last) ∨
        (∃ p', (reconciled .canceled).2.record.placed[0]? = some p' ∧ Accounted buy.tag trace p') ∧
        ∀ id ∈ sightings buy.tag last, ∃ q ∈ (reconciled .canceled).2.record.placed, q.tag = buy.tag ∧
          q.outcome = .unknownNotFound ∧ q.Tells buy.tag last id) := by
  have ran := Prog.runs_traceOf (answers .canceled) executing ()
  have stepped := Prog.runs_traceOf (answers .canceled) (reconciling (executed .canceled)) ()
  have kept : (placedIn (executed .canceled)).record.placed[0]? = some (executed .canceled).1 := by decide +kernel
  refine ⟨_, _, ran, stepped, by decide +kernel, (reported_or_halts rfl ran kept rfl stepped ?_).2⟩
  have uncancelled : ∀ made ∈ executing.traceOf (answers .canceled) (), made.1.op.isCancel = false := by decide +kernel
  have unlisted : ∀ made ∈ (reconciling (executed .canceled)).traceOf (answers .canceled) (), made.1.op.mute = true := by
    decide +kernel
  constructor
  · decide +kernel
  · rintro - id cancel r ⟨run, member⟩
    cases uncancelled _ member
  · rintro orders ⟨run, member⟩
    cases unlisted _ member

end LastingOrder

end RebalancerRun
