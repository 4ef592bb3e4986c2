import SignalEngine.RebalancerRun.Pipeline
import SignalEngine.Lib.Effects

/-! # What the steps of a run call

Only the execution of a plan, the clean-up and a flatten touch orders; every
other step is quiet, whatever it is answered.
-/

open BrokerAdapters Interaction Text

namespace RebalancerRun

open RebalancerCore (Instant InstantText Sha256 SleeveTarget)

/-- Calls that neither touch an order nor journal one. -/
def RunOp.quiet : RunOp → Bool
  | broker (.place _) | broker (.getOrder _) | broker (.cancelAndSettle _) | broker (.sleepSecs _)
  | broker .openOrders | journalOrder _ _ => false
  | _ => true

def RunOp.isPlace : RunOp → Bool
  | broker (.place _) => true
  | _ => false

/-- The call sends an order that is not only to be checked. -/
def RunOp.isRealPlace : RunOp → Bool
  | broker (.place req) => !req.validateOnly
  | _ => false

theorem RunOp.isRealPlace_iff {op : RunOp} :
    op.isRealPlace = true ↔ ∃ req, op = broker (.place req) ∧ req.validateOnly = false := by
  unfold isRealPlace
  split
  next req => simp
  next other =>
      simp only [Bool.false_eq_true, false_iff, not_exists, not_and]
      exact fun req sends => absurd sends (other req)

theorem RunOp.isPlace_of_isRealPlace {op : RunOp} (sends : op.isRealPlace = true) : op.isPlace = true := by
  unfold isRealPlace at sends
  split at sends
  · rfl
  · contradiction

def RunOp.isCancel : RunOp → Bool
  | broker (.cancelAndSettle _) => true
  | _ => false

def Asked.quiet (asked : Asked) : Prop := asked.op.quiet = true

/-- A quiet call that does not write the record of the run. -/
def RunOp.midway : RunOp → Bool
  | finish _ => false
  | op => op.quiet

def Asked.midway (asked : Asked) : Prop := asked.op.midway = true

theorem Asked.midway.quiet {asked : Asked} (midway : asked.midway) : asked.quiet := by
  unfold Asked.midway RunOp.midway at midway
  split at midway
  · contradiction
  · exact midway

theorem Asked.midway.unfinished {asked : Asked} (midway : asked.midway) (record : RunRecord) :
    asked.op ≠ .finish record := by
  intro finishes
  unfold Asked.midway at midway
  rw [finishes] at midway
  cases midway

namespace Run

/-- The plans, the orders and the verdict of the run are as they were. -/
structure Kept (r r' : Run) : Prop where
  plan : r'.record.plan = r.record.plan
  replan : r'.record.replan = r.record.replan
  placed : r'.record.placed = r.record.placed
  carried : r'.carried = r.carried

theorem kept_frame : Frame fun (r : Run) (_ : Unit) (r' : Run) (_ : Unit) => Kept r r' where
  refl _ _ := ⟨rfl, rfl, rfl, rfl⟩
  trans first second := ⟨second.plan.trans first.plan, second.replan.trans first.replan,
    second.placed.trans first.placed, second.carried.trans first.carried⟩

/-- Quiet calls before the record is written, and the run is kept. -/
def Quiet {α : Type} (x : RunM α) : Prop :=
  Framed (Law.only Asked.midway) (fun r _ r' _ => Kept r r') x

/-- The same, whether the step ends the run or not. -/
def QuietStep {α : Type} (x : StepM α) : Prop := Quiet x.run

namespace Quiet

variable {α β : Type} {x : RunM α}

theorem pure {value : α} : Quiet (Pure.pure value : RunM α) := fun _ _ => ⟨rfl, rfl, rfl, rfl⟩

theorem get : Quiet (MonadState.get : RunM Run) := fun _ _ => ⟨rfl, rfl, rfl, rfl⟩

theorem modify {f : Run → Run} (kept : ∀ run, Kept run (f run)) :
    Quiet (modifyGet fun run => ((), f run) : RunM Unit) := fun run _ => kept run

theorem bind {f : α → RunM β} (first : Quiet x) (second : ∀ a, Quiet (f a)) : Quiet (x >>= f) :=
  Framed.bind kept_frame first second

theorem forM {γ : Type} {f : γ → RunM PUnit} {items : List γ} (each : ∀ item ∈ items, Quiet (f item)) :
    Quiet (items.forM f) := Framed.forM kept_frame each

theorem calls (quiet : Quiet x) : Calls Asked.quiet x := by
  have within : Calls Asked.midway x := fun s g _ => (quiet s g).mono fun _ _ _ => trivial
  exact within.mono fun _ midway => midway.quiet

theorem triple (quiet : Quiet x) {G : Type} {law : Law Asked Asked.Answer G} {P : G → Prop}
    (calm : ∀ g asked, P g → asked.quiet →
      law.allowed g asked ∧ ∀ answer g', law.next g asked answer g' → P g') :
    Triple law (fun _ g => P g) x fun _ _ g => P g := Calls.triple quiet.calls calm

end Quiet

namespace QuietStep

variable {α β : Type} {x : StepM α}

theorem pure {value : α} : QuietStep (Pure.pure value : StepM α) := fun _ _ => ⟨rfl, rfl, rfl, rfl⟩

theorem get : QuietStep (MonadState.get : StepM Run) := fun _ _ => ⟨rfl, rfl, rfl, rfl⟩

theorem modify {f : Run → Run} (kept : ∀ run, Kept run (f run)) :
    QuietStep (modifyGet fun run => ((), f run) : StepM Unit) := fun run _ => kept run

theorem failure : QuietStep (Alternative.failure : StepM α) := fun _ _ => ⟨rfl, rfl, rfl, rfl⟩

theorem bind {f : α → StepM β} (first : QuietStep x) (second : ∀ a, QuietStep (f a)) :
    QuietStep (x >>= f) := Framed.stepBind kept_frame first second

theorem lift {y : RunM α} (quiet : Quiet y) : QuietStep (liftM y : StepM α) := Framed.stepLift quiet

theorem calls (quiet : QuietStep x) : StepCalls Asked.quiet x := Quiet.calls quiet

theorem stepwise (quiet : QuietStep x) {G : Type} {law : Law Asked Asked.Answer G} {P : G → Prop}
    (calm : ∀ g asked, P g → asked.quiet →
      law.allowed g asked ∧ ∀ answer g', law.next g asked answer g' → P g') :
    Stepwise law (fun _ g => P g) x (fun _ g => P g) fun _ _ g => P g :=
  StepCalls.stepwise quiet.calls calm

end QuietStep

theorem askFor_quiet {op : RunOp} (midway : op.midway = true) : Quiet (askFor op) :=
  fun _ _ => ⟨midway, fun _ _ _ => ⟨rfl, rfl, rfl, rfl⟩⟩

theorem askFor_calls {op : RunOp} (quiet : op.quiet = true) : Calls Asked.quiet (askFor op) :=
  fun _ _ _ => ⟨quiet, fun _ _ _ => trivial⟩

theorem now_quiet : Quiet now := askFor_quiet rfl

theorem modifyRec_quiet (f : RunRecord → RunRecord)
    (kept : ∀ run : Run, Kept run { run with record := f run.record }) : Quiet (modifyRec f) := fun run _ => kept run

theorem modifyRec_calls (f : RunRecord → RunRecord) : Calls Asked.quiet (modifyRec f) := Calls.modify

theorem setOutcome_quiet (kind : OutcomeKind) (code message : String) :
    Quiet (setOutcome kind code message) := modifyRec_quiet _ fun _ => ⟨rfl, rfl, rfl, rfl⟩

theorem note_quiet (step text : String) : Quiet (note step text) :=
  now_quiet.bind fun _ => modifyRec_quiet _ fun _ => ⟨rfl, rfl, rfl, rfl⟩

theorem endWith_quiet {α : Type} {last : RunM Unit} (quiet : Quiet last) :
    QuietStep (endWith last : StepM α) :=
  (QuietStep.lift quiet).bind fun _ => QuietStep.failure

theorem held_quiet {α : Type} (a : Option α) : QuietStep (held a) := by
  cases a with
  | none => exact QuietStep.failure
  | some a => exact QuietStep.pure

section Texts

variable [InstantText] (ctx : RunContext)

theorem alert_quiet (code : AlertCode) (severity : AlertSeverity) (message dedupe : String) :
    Quiet (alert ctx code severity message dedupe) := by
  apply now_quiet.bind
  intro at'
  apply Quiet.bind (askFor_quiet rfl)
  intro answer
  cases answer with
  | ok => exact modifyRec_quiet _ fun _ => ⟨rfl, rfl, rfl, rfl⟩
  | error e => exact modifyRec_quiet _ fun _ => ⟨rfl, rfl, rfl, rfl⟩

theorem failClosed_quiet (code : RunCode) (message : String) : Quiet (failClosed ctx code message) :=
  (alert_quiet ctx _ _ _ _).bind fun _ => setOutcome_quiet _ _ _

theorem failRun_quiet {α : Type} (code : RunCode) (message : String) :
    QuietStep (failRun ctx code message : StepM α) :=
  endWith_quiet (failClosed_quiet ctx code message)

theorem stepVenuePolicy_quiet : QuietStep (stepVenuePolicy ctx) := by
  unfold stepVenuePolicy
  cases ctx.config.venuePolicy with
  | unrestricted => exact QuietStep.pure
  | paperOnly =>
      apply QuietStep.bind (QuietStep.lift (askFor_quiet rfl))
      intro env
      have refused : QuietStep (endWith do
          note "venue_policy"
            s!"paper-only policy: the {ctx.venue} broker reports {env.asStr}: refused"
          failClosed ctx .venueNotPaper
            s!"the paper-only policy is in force and the {ctx.venue} broker connection is not a verified paper connection (it reports {env.asStr})"
          : StepM Unit) :=
        endWith_quiet ((note_quiet _ _).bind fun _ => failClosed_quiet ctx _ _)
      cases env with
      | paper => exact QuietStep.lift (note_quiet _ _)
      | live => exact refused
      | unspecified => exact refused

theorem stepKillFlag_quiet : QuietStep (stepKillFlag ctx) := by
  apply QuietStep.bind (QuietStep.lift (askFor_quiet rfl))
  intro answer
  match answer with
  | .ok false => exact QuietStep.lift (note_quiet _ _)
  | .ok true => exact endWith_quiet ((note_quiet _ _).bind fun _ => setOutcome_quiet _ _ _)
  | .error e => exact endWith_quiet ((note_quiet _ _).bind fun _ => failClosed_quiet ctx _ _)

omit [InstantText] in
theorem setStanding_quiet (standing text : String) : Quiet (setStanding standing text) :=
  Quiet.bind (modifyRec_quiet _ fun _ => ⟨rfl, rfl, rfl, rfl⟩) fun _ => note_quiet _ _

/-- A refusal: one line in the log, an alert, the outcome. -/
theorem refusal_quiet {α : Type} {said : RunM Unit} (quiet : Quiet said) (code : AlertCode)
    (severity : AlertSeverity) (message dedupe : String) (kind : OutcomeKind) (what why : String) :
    QuietStep (endWith (do
      said
      alert ctx code severity message dedupe
      setOutcome kind what why) : StepM α) :=
  endWith_quiet (quiet.bind fun _ => (alert_quiet ctx _ _ _ _).bind fun _ => setOutcome_quiet _ _ _)

theorem stepMandate_quiet [UnicodeCase] : QuietStep (stepMandate ctx) := by
  unfold stepMandate
  cases ctx.mandate with
  | none => exact refusal_quiet ctx (note_quiet _ _) _ _ _ _ _ _ _
  | some m =>
      refine QuietStep.bind (QuietStep.lift (modifyRec_quiet _ fun _ => ⟨rfl, rfl, rfl, rfl⟩)) ?_
      intro _
      apply QuietStep.bind (QuietStep.lift now_quiet)
      intro at'
      apply QuietStep.bind
      · cases (policyFor ctx m).standing at' with
        | invalid => exact refusal_quiet ctx (setStanding_quiet _ _) _ _ _ _ _ _ _
        | notActive why =>
            dsimp only
            split
            · exact QuietStep.bind (QuietStep.lift (setStanding_quiet _ _)) fun _ => QuietStep.pure
            · exact refusal_quiet ctx (setStanding_quiet _ _) _ _ _ _ _ _ _
        | expired =>
            exact QuietStep.bind (QuietStep.lift (setStanding_quiet _ _)) fun _ => QuietStep.pure
        | active =>
            exact QuietStep.bind (QuietStep.lift (setStanding_quiet _ _)) fun _ => QuietStep.pure
      · intro policy
        split
        · exact failRun_quiet ctx _ _
        · exact QuietStep.modify fun _ => ⟨rfl, rfl, rfl, rfl⟩

section Decisions

variable [DateText]

variable (s : SleeveSpec) (asOf : RebalancerRisk.NaiveDate)

theorem recordGate_quiet (gate : Option DataGateReport) : Quiet (recordGate ctx s gate) := by
  cases gate with
  | none => exact Quiet.pure
  | some gate =>
      apply (note_quiet _ _).bind
      intro _
      apply Quiet.forM
      intro r _
      exact alert_quiet ctx _ _ _ _

omit [DateText] in
theorem lastActedFor_quiet : QuietStep (lastActedFor ctx s) := by
  unfold lastActedFor
  cases s.kind.cadence with
  | daily => exact QuietStep.pure
  | onDecision =>
      apply QuietStep.bind (QuietStep.lift (askFor_quiet rfl))
      intro answer
      match answer with
      | .ok date => exact QuietStep.pure
      | .error (.decisionLedgerUnavailable what) =>
          exact endWith_quiet ((note_quiet _ _).bind fun _ => failClosed_quiet ctx _ _)
      | .error (.unavailable what) => exact failRun_quiet ctx _ _
      | .error (.alreadyFinished key) => exact failRun_quiet ctx _ _
      | .error (.notStarted key) => exact failRun_quiet ctx _ _

omit [DateText] in
theorem evaluateSleeve_quiet : QuietStep (evaluateSleeve ctx s asOf) := by
  apply QuietStep.bind (QuietStep.lift (askFor_quiet rfl))
  intro answer
  match answer with
  | .ok eval => exact QuietStep.pure
  | .error (.data e) =>
      exact endWith_quiet ((note_quiet _ _).bind fun _ => failClosed_quiet ctx _ _)
  | .error (.rule e) =>
      exact endWith_quiet ((note_quiet _ _).bind fun _ => failClosed_quiet ctx _ _)

theorem decideSleeve_quiet (idx : Nat) (s : SleeveSpec) : QuietStep (decideSleeve ctx asOf idx s) := by
  apply QuietStep.bind (evaluateSleeve_quiet ctx s asOf)
  intro eval
  refine QuietStep.bind (QuietStep.lift (modifyRec_quiet _ fun _ => ⟨rfl, rfl, rfl, rfl⟩)) ?_
  intro _
  apply QuietStep.bind (lastActedFor_quiet ctx s)
  intro acted
  apply QuietStep.bind
  · apply QuietStep.lift
    unfold noteTranche
    split
    · exact note_quiet _ _
    · exact Quiet.pure
  · intro _
    apply QuietStep.bind (QuietStep.lift (recordGate_quiet ctx s _))
    intro _
    exact QuietStep.modify fun _ => ⟨rfl, rfl, rfl, rfl⟩

theorem decideSleeves_quiet (sleeves : List (Nat × SleeveSpec)) : QuietStep (decideSleeves ctx asOf sleeves) := by
  induction sleeves with
  | nil => exact QuietStep.pure
  | cons s rest ih => exact (decideSleeve_quiet ctx asOf s.1 s.2).bind fun _ => ih

omit [InstantText] [DateText] in
theorem stopIfInGoodStanding_quiet (summary : String) :
    QuietStep (stopIfInGoodStanding ctx summary) := by
  have pending : QuietStep (stopIfInGoodStanding.nothingPending summary) :=
    endWith_quiet ((note_quiet _ _).bind fun _ => setOutcome_quiet _ _ _)
  have onward : QuietStep (stopIfInGoodStanding.carryOn summary) := QuietStep.lift (note_quiet _ _)
  apply QuietStep.bind (QuietStep.lift (askFor_quiet rfl))
  intro answer
  match answer with
  | .ok (some s) =>
      dsimp only
      split
      · exact QuietStep.bind (QuietStep.modify fun _ => ⟨rfl, rfl, rfl, rfl⟩) fun _ => pending
      · exact onward
  | .ok none => exact QuietStep.bind (QuietStep.modify fun _ => ⟨rfl, rfl, rfl, rfl⟩) fun _ => pending
  | .error e => exact onward

theorem stepDecisions_quiet : QuietStep (stepDecisions ctx) := by
  apply QuietStep.bind (decideSleeves_quiet ctx _ _)
  intro _
  apply QuietStep.bind QuietStep.get
  intro run
  dsimp only
  split
  · exact QuietStep.lift (note_quiet _ _)
  · exact stopIfInGoodStanding_quiet ctx _

end Decisions

section Account

variable [UnicodeCase] [DebugText]

omit [UnicodeCase] in
theorem readSnapshot_quiet (step : String) : QuietStep (readSnapshot ctx step) := by
  apply QuietStep.bind (QuietStep.lift now_quiet)
  intro at'
  apply QuietStep.bind (QuietStep.lift (askFor_quiet rfl))
  intro answer
  match answer with
  | .ok s => exact QuietStep.pure
  | .error e => exact endWith_quiet ((note_quiet _ _).bind fun _ => failClosed_quiet ctx _ _)

omit [UnicodeCase] [DebugText] in
theorem loadedState_quiet : QuietStep (loadedState ctx) := by
  apply QuietStep.bind (QuietStep.lift (askFor_quiet rfl))
  intro answer
  match answer with
  | .ok (some s) => exact QuietStep.pure
  | .ok none => exact QuietStep.pure
  | .error e => exact failRun_quiet ctx _ _

theorem stepReadAccount_quiet : QuietStep (stepReadAccount ctx) := by
  apply QuietStep.bind (readSnapshot_quiet ctx _)
  intro snap
  refine QuietStep.bind (QuietStep.lift (modifyRec_quiet _ fun _ => ⟨rfl, rfl, rfl, rfl⟩)) ?_
  intro _
  apply QuietStep.bind (QuietStep.lift (note_quiet _ _))
  intro _
  refine QuietStep.bind (QuietStep.modify fun _ => ⟨rfl, rfl, rfl, rfl⟩) ?_
  intro _
  apply QuietStep.bind (loadedState_quiet ctx)
  intro state
  refine QuietStep.bind (QuietStep.modify fun _ => ⟨rfl, rfl, rfl, rfl⟩) ?_
  intro _
  apply QuietStep.bind (QuietStep.lift (askFor_quiet rfl))
  intro answer
  match answer with
  | .ok ids => exact QuietStep.modify fun _ => ⟨rfl, rfl, rfl, rfl⟩
  | .error e => exact failRun_quiet ctx _ _

theorem stepCleanup_quiet (notLive : ctx.mode ≠ .live) : QuietStep (stepCleanup ctx) := by
  unfold stepCleanup
  rw [if_pos notLive]
  exact QuietStep.lift (note_quiet _ _)

end Account

section Recon

variable [UnicodeCase] [DebugText]

omit [UnicodeCase] [DebugText] in
theorem saveState_quiet (next : RebalancerRisk.AccountState) : QuietStep (saveState ctx next) := by
  apply QuietStep.bind QuietStep.get
  intro run
  split
  · exact QuietStep.pure
  · apply QuietStep.bind (QuietStep.lift (askFor_quiet rfl))
    intro answer
    match answer with
    | .ok saved => exact QuietStep.modify fun _ => ⟨rfl, rfl, rfl, rfl⟩
    | .error (.versionConflict _ _) => exact failRun_quiet ctx _ _
    | .error (.illegalTransition _) => exact failRun_quiet ctx _ _
    | .error (.unavailable _) => exact failRun_quiet ctx _ _

omit [UnicodeCase] [DebugText] in
theorem haltReconciliation_quiet {α : Type} (detail : String) :
    QuietStep (haltReconciliation ctx detail : StepM α) := by
  apply QuietStep.bind (QuietStep.lift now_quiet)
  intro at'
  apply QuietStep.bind QuietStep.get
  intro run
  refine QuietStep.bind (QuietStep.lift (modifyRec_quiet _ fun _ => ⟨rfl, rfl, rfl, rfl⟩)) ?_
  intro _
  apply QuietStep.bind (saveState_quiet ctx _)
  intro _
  exact endWith_quiet ((alert_quiet ctx _ _ _ _).bind fun _ => setOutcome_quiet _ _ _)

omit [UnicodeCase] in
theorem lookUpEntries_quiet (entries : List JournalEntry) : QuietStep (lookUpEntries ctx entries) := by
  induction entries with
  | nil => exact QuietStep.pure
  | cons e entries ih =>
      apply QuietStep.bind (QuietStep.lift (askFor_quiet rfl))
      intro answer
      match answer with
      | .error err => exact failRun_quiet ctx _ _
      | .ok reports =>
          refine QuietStep.bind (QuietStep.modify fun _ => ⟨rfl, rfl, rfl, rfl⟩) ?_
          intro _
          exact ih.bind fun _ => QuietStep.pure

omit [UnicodeCase] in
theorem inFlightOrders_quiet : QuietStep (inFlightOrders ctx) := by
  apply QuietStep.bind (QuietStep.lift (askFor_quiet rfl))
  intro answer
  match answer with
  | .error e => exact failRun_quiet ctx _ _
  | .ok entries => exact lookUpEntries_quiet ctx entries

omit [UnicodeCase] [DebugText] in
theorem lastBaseline_quiet : QuietStep (lastBaseline ctx) := by
  apply QuietStep.bind (QuietStep.lift (askFor_quiet rfl))
  intro answer
  match answer with
  | .ok s => exact QuietStep.pure
  | .error e => exact failRun_quiet ctx _ _

omit [DebugText] in
theorem appliedBaseline_quiet (baseline : Option ReconBaseline) (orders : List ExpectedOrder) :
    QuietStep (appliedBaseline ctx baseline orders) := by
  unfold appliedBaseline
  split
  · exact QuietStep.pure
  · split
    · exact QuietStep.pure
    · exact haltReconciliation_quiet ctx _

theorem stepReconPre_quiet : QuietStep (stepReconPre ctx) := by
  apply QuietStep.bind (lastBaseline_quiet ctx)
  intro last
  apply QuietStep.bind (inFlightOrders_quiet ctx)
  intro orders
  refine QuietStep.bind (QuietStep.modify fun _ => ⟨rfl, rfl, rfl, rfl⟩) ?_
  intro _
  apply QuietStep.bind (appliedBaseline_quiet ctx last orders)
  intro baseline
  apply QuietStep.bind QuietStep.get
  intro run
  apply QuietStep.bind (held_quiet _)
  intro snap
  apply QuietStep.bind (QuietStep.lift now_quiet)
  intro at'
  apply QuietStep.bind (QuietStep.lift (note_quiet _ _))
  intro _
  refine QuietStep.bind (QuietStep.lift (modifyRec_quiet _ fun _ => ⟨rfl, rfl, rfl, rfl⟩)) ?_
  intro _
  split
  · exact haltReconciliation_quiet ctx _
  · exact QuietStep.modify fun _ => ⟨rfl, rfl, rfl, rfl⟩

end Recon

section Risk

variable [UnicodeCase] [DebugText] [DateText] [Sha256]

omit [UnicodeCase] [DebugText] [Sha256] in
theorem pauseBuys_quiet (snap : BrokerSnapshot) (priorDay : Option RebalancerRisk.NaiveDate) :
    Quiet (pauseBuys ctx snap priorDay) := by
  unfold pauseBuys
  split
  · exact Quiet.pure
  · apply Quiet.bind Quiet.get
    intro run
    dsimp only
    split
    · apply (note_quiet _ _).bind
      intro _
      apply Quiet.bind
      · unfold alertAnchorGap
        split
        · exact alert_quiet ctx _ _ _ _
        · exact Quiet.pure
      · intro _
        exact Quiet.modify fun _ => ⟨rfl, rfl, rfl, rfl⟩
    · exact Quiet.pure

omit [DateText] in
theorem stepHaltedCheck_quiet (notLive : ctx.mode ≠ .live) : QuietStep (stepHaltedCheck ctx) := by
  apply QuietStep.bind QuietStep.get
  intro run
  dsimp only
  split
  · exact refusal_quiet ctx (note_quiet _ _) _ _ _ _ _ _ _
  · apply endWith_quiet
    apply (note_quiet _ _).bind
    intro _
    rw [if_neg notLive]
    exact (alert_quiet ctx _ _ _ _).bind fun _ => setOutcome_quiet _ _ _
  · exact QuietStep.pure
  · exact QuietStep.pure

theorem stepRisk_quiet (notLive : ctx.mode ≠ .live) : QuietStep (stepRisk ctx) := by
  apply QuietStep.bind QuietStep.get
  intro run
  apply QuietStep.bind (held_quiet _)
  intro snap
  apply QuietStep.bind (held_quiet _)
  intro riskPolicy
  apply QuietStep.bind (QuietStep.lift (note_quiet _ _))
  intro _
  refine QuietStep.bind (QuietStep.lift (modifyRec_quiet _ fun _ => ⟨rfl, rfl, rfl, rfl⟩)) ?_
  intro _
  refine QuietStep.bind (QuietStep.lift (modifyRec_quiet _ fun _ => ⟨rfl, rfl, rfl, rfl⟩)) ?_
  intro _
  apply QuietStep.bind (saveState_quiet ctx _)
  intro _
  split
  · exact QuietStep.lift (pauseBuys_quiet ctx snap _)
  · apply QuietStep.bind (QuietStep.lift (alert_quiet ctx _ _ _ _))
    intro _
    apply QuietStep.bind QuietStep.get
    intro run
    refine QuietStep.bind (QuietStep.lift (modifyRec_quiet _ fun _ => ⟨rfl, rfl, rfl, rfl⟩)) ?_
    intro _
    apply QuietStep.bind (saveState_quiet ctx _)
    intro _
    exact endWith_quiet ((alert_quiet ctx _ _ _ _).bind fun _ => setOutcome_quiet _ _ _)

end Risk

section Plan

variable [UnicodeCase] [DebugText] [Sha256] [FloatFloor]

omit [UnicodeCase] [DebugText] [Sha256] in
theorem targetsOf_quiet (pending : List (Nat × SleeveSpec × Evaluation)) :
    QuietStep (targetsOf ctx pending) := by
  induction pending with
  | nil => exact QuietStep.pure
  | cons p rest ih =>
      obtain ⟨idx, s, eval⟩ := p
      unfold targetsOf
      split
      · exact failRun_quiet ctx _ _
      · refine QuietStep.bind (QuietStep.lift (modifyRec_quiet _ fun _ => ⟨rfl, rfl, rfl, rfl⟩)) ?_
        intro _
        exact ih.bind fun _ => QuietStep.pure

omit [UnicodeCase] [DebugText] [Sha256] in
theorem stepTargets_quiet : QuietStep (stepTargets ctx) := by
  apply QuietStep.bind QuietStep.get
  intro run
  apply QuietStep.bind (targetsOf_quiet ctx _)
  intro targets
  exact (QuietStep.lift (note_quiet _ _)).bind fun _ => QuietStep.pure

omit [DebugText] [Sha256] [FloatFloor] in
theorem pricesFor_quiet (targets : List SleeveTarget) (snap : BrokerSnapshot) :
    QuietStep (pricesFor ctx targets snap) := by
  apply QuietStep.bind (QuietStep.lift now_quiet)
  intro at'
  apply QuietStep.bind (QuietStep.lift (askFor_quiet rfl))
  intro answer
  match answer with
  | .ok prices => exact QuietStep.pure
  | .error e => exact failRun_quiet ctx _ _

omit [FloatFloor] in
theorem planWith_quiet (targets : List SleeveTarget) (snap : BrokerSnapshot)
    (day : RebalancerCore.DayCounters) (creditSells : Bool) :
    QuietStep (planWith ctx targets snap day creditSells) := by
  apply QuietStep.bind (pricesFor_quiet ctx targets snap)
  intro prices
  apply QuietStep.bind QuietStep.get
  intro run
  apply QuietStep.bind (held_quiet _)
  intro policy
  apply QuietStep.bind (QuietStep.lift now_quiet)
  intro at'
  split
  · exact QuietStep.pure
  · exact failRun_quiet ctx _ _

omit [UnicodeCase] [DebugText] [Sha256] [FloatFloor] in
theorem dayCounters_quiet : QuietStep (dayCounters ctx) := by
  apply QuietStep.bind (QuietStep.lift (askFor_quiet rfl))
  intro answer
  match answer with
  | .ok c => exact QuietStep.pure
  | .error e => exact failRun_quiet ctx _ _

omit [FloatFloor] in
theorem stepPlan_calls (targets : List SleeveTarget) :
    StepCalls Asked.quiet (stepPlan ctx targets) := by
  apply StepCalls.bind QuietStep.get.calls
  intro run
  apply StepCalls.bind (held_quiet _).calls
  intro snap
  apply StepCalls.bind (dayCounters_quiet ctx).calls
  intro day
  apply StepCalls.bind (planWith_quiet ctx targets snap day true).calls
  intro plan
  apply StepCalls.bind (StepCalls.lift (modifyRec_calls _))
  intro _
  exact ((QuietStep.lift (note_quiet _ _)).bind fun _ => QuietStep.pure).calls

end Plan

omit [InstantText] in
theorem writeTickets_quiet (plan : RebalancerCore.OrderPlan) : Quiet (writeTickets plan) := by
  apply Quiet.bind Quiet.get
  intro run
  refine Quiet.bind (Quiet.modify fun _ => ⟨rfl, rfl, rfl, rfl⟩) ?_
  intro _
  exact note_quiet _ _

section ReconPost

variable [UnicodeCase] [DebugText]

omit [InstantText] [UnicodeCase] [DebugText] in
theorem lookAllAgain_quiet (placed : List PlacedOrder) : Quiet (lookAllAgain placed) := by
  induction placed with
  | nil => exact Quiet.pure
  | cons p ps ih =>
      apply Quiet.bind
      · unfold lookAgain
        split
        · exact Quiet.pure
        · apply Quiet.bind (askFor_quiet rfl)
          intro answer
          match answer with
          | .ok [] => exact Quiet.pure
          | .ok (first :: others) => exact Quiet.pure
          | .error e => exact Quiet.pure
      · intro _
        exact ih.bind fun _ => Quiet.pure

omit [UnicodeCase] in
theorem rereadPost_quiet : QuietStep (rereadPost ctx) := by
  apply QuietStep.bind (QuietStep.lift now_quiet)
  intro at'
  apply QuietStep.bind (QuietStep.lift (askFor_quiet rfl))
  intro answer
  match answer with
  | .ok s => exact QuietStep.pure
  | .error e =>
      exact (QuietStep.lift (note_quiet _ _)).bind fun _ => haltReconciliation_quiet ctx _

omit [DebugText] in
theorem expectedAfter_quiet (base : ReconBaseline) (orders : List ExpectedOrder) :
    QuietStep (expectedAfter ctx base orders) := by
  unfold expectedAfter
  split
  · split
    · exact QuietStep.pure
    · exact haltReconciliation_quiet ctx _
  · exact QuietStep.pure

theorem reconcilePost_quiet (expected : List ExpectedOrder) :
    QuietStep (reconcilePost ctx expected) := by
  apply QuietStep.bind (rereadPost_quiet ctx)
  intro snap
  refine QuietStep.bind (QuietStep.lift (modifyRec_quiet _ fun _ => ⟨rfl, rfl, rfl, rfl⟩)) ?_
  intro _
  apply QuietStep.bind QuietStep.get
  intro run
  apply QuietStep.bind (held_quiet _)
  intro base
  apply QuietStep.bind (expectedAfter_quiet ctx base _)
  intro after
  apply QuietStep.bind (QuietStep.lift now_quiet)
  intro at'
  apply QuietStep.bind (QuietStep.lift (note_quiet _ _))
  intro _
  refine QuietStep.bind (QuietStep.lift (modifyRec_quiet _ fun _ => ⟨rfl, rfl, rfl, rfl⟩)) ?_
  intro _
  split
  · exact haltReconciliation_quiet ctx _
  · exact QuietStep.modify fun _ => ⟨rfl, rfl, rfl, rfl⟩

theorem stepReconPost_calls : StepCalls Asked.quiet (stepReconPost ctx) := by
  unfold stepReconPost
  split
  · exact (QuietStep.lift (note_quiet _ _)).calls
  · apply StepCalls.bind QuietStep.get.calls
    intro run
    apply StepCalls.bind (StepCalls.lift (modifyRec_calls _))
    intro _
    apply StepCalls.bind (QuietStep.lift (lookAllAgain_quiet _)).calls
    intro placed
    apply StepCalls.bind (StepCalls.lift (modifyRec_calls _))
    intro _
    dsimp only
    split
    · exact ((QuietStep.lift (note_quiet _ _)).bind fun _ => haltReconciliation_quiet ctx _).calls
    · exact (reconcilePost_quiet ctx _).calls

omit [UnicodeCase] in
theorem stepAssess_calls : Calls Asked.quiet (stepAssess ctx) := by
  apply Calls.bind Quiet.get.calls
  intro run
  dsimp only
  split
  · exact Calls.bind Calls.modify fun _ => (setOutcome_quiet _ _ _).calls
  · apply Calls.bind (note_quiet _ _).calls
    intro _
    exact ((alert_quiet ctx _ _ _ _).bind fun _ => setOutcome_quiet _ _ _).calls

end ReconPost

theorem finish_calls : Calls Asked.quiet (finish ctx) := by
  apply Calls.bind now_quiet.calls
  intro at'
  apply Calls.bind Calls.modify
  intro _
  apply Calls.bind Quiet.get.calls
  intro run
  apply Calls.bind (askFor_calls rfl)
  intro answer
  match answer with
  | .ok () => exact Calls.pure
  | .error e =>
      apply Calls.bind (modifyRec_calls _)
      intro _
      apply Calls.bind (alert_quiet ctx _ _ _ _).calls
      intro _
      exact Calls.bind Calls.get fun _ => Calls.pure

omit [InstantText] in
theorem refusedKey_quiet (outcome : RunOutcome) : Quiet (refusedKey outcome) := by
  apply now_quiet.bind
  intro at'
  apply Quiet.bind
  · exact modifyRec_quiet _ fun _ => ⟨rfl, rfl, rfl, rfl⟩
  intro _
  exact Quiet.get.bind fun _ => Quiet.pure

end Texts

/-! ## The whole run, around the steps that touch orders -/

section Whole

variable [InstantText] [UnicodeCase] [DebugText] [DateText] [Sha256] [FloatFloor]
  {G : Type} {law : Law Asked Asked.Answer G} {P : G → Prop} {ctx : RunContext}

theorem execute_around
    (quiet : ∀ g asked, P g → asked.quiet →
      law.allowed g asked ∧ ∀ answer g', law.next g asked answer g' → P g')
    (halted : Stepwise law (fun _ g => P g) (stepHaltedCheck ctx) (fun _ g => P g) fun _ _ g => P g)
    (cleanup : Stepwise law (fun _ g => P g) (stepCleanup ctx) (fun _ g => P g) fun _ _ g => P g)
    (risk : Stepwise law (fun _ g => P g) (stepRisk ctx) (fun _ g => P g) fun _ _ g => P g)
    (executed : ∀ targets plan, Stepwise law (fun _ g => P g) (stepExecute ctx targets plan)
      (fun _ g => P g) fun _ _ g => P g) :
    Stepwise law (fun _ g => P g) (execute ctx) (fun _ g => P g) fun _ _ g => P g := by
  have quietly : ∀ {α : Type} {x : StepM α}, QuietStep x →
      Stepwise law (fun _ g => P g) x (fun _ g => P g) fun _ _ g => P g :=
    fun calls => QuietStep.stepwise calls quiet
  apply (quietly (stepVenuePolicy_quiet ctx)).bind
  intro _
  apply (quietly (stepKillFlag_quiet ctx)).bind
  intro _
  apply (quietly (stepMandate_quiet ctx)).bind
  intro _
  apply (quietly (stepDecisions_quiet ctx)).bind
  intro _
  apply (quietly (stepReadAccount_quiet ctx)).bind
  intro _
  apply halted.bind
  intro _
  apply cleanup.bind
  intro _
  apply (quietly (stepReconPre_quiet ctx)).bind
  intro _
  apply risk.bind
  intro _
  apply (quietly (stepTargets_quiet ctx)).bind
  intro targets
  apply (StepCalls.stepwise (stepPlan_calls ctx targets) quiet).bind
  intro plan
  apply (executed targets plan).bind
  intro _
  apply (StepCalls.stepwise (stepReconPost_calls ctx) quiet).bind
  intro _
  exact StepCalls.stepwise (StepCalls.lift (stepAssess_calls ctx)) quiet

theorem runOnce_around
    (quiet : ∀ g asked, P g → asked.quiet →
      law.allowed g asked ∧ ∀ answer g', law.next g asked answer g' → P g')
    (whole : Stepwise law (fun _ g => P g) (execute ctx) (fun _ g => P g) fun _ _ g => P g)
    {g : G} (start : P g) : (runOnce ctx).Obeys law g fun _ g => P g := by
  have quietly : ∀ {α : Type} {x : RunM α}, Quiet x →
      Triple law (fun _ g => P g) x fun _ _ g => P g := fun calls => Quiet.triple calls quiet
  have acquired : ∀ startedAt, Triple law (fun _ g => P g) (acquire ctx startedAt) fun _ _ g => P g := by
    intro startedAt
    apply Triple.bind (quietly (askFor_quiet rfl))
    intro answer
    match answer with
    | .ok (.started attempt) =>
        apply Triple.bind (quietly (modifyRec_quiet _ fun _ => ⟨rfl, rfl, rfl, rfl⟩))
        intro _
        apply Triple.bind (quietly (note_quiet _ _))
        intro _
        have executed : Triple law (fun _ g => P g) (execute ctx).run fun _ _ g => P g := by
          apply Triple.weaken whole (fun _ _ start => start)
          intro r _ _ final
          cases r with
          | none => exact final
          | some _ => exact final
        exact Triple.bind executed fun _ => Calls.triple (finish_calls ctx) quiet
    | .ok (.alreadyDone first) => exact fun _ _ start => start
    | .ok (.busy since) =>
        apply Triple.bind (quietly (note_quiet _ _))
        intro _
        exact quietly (refusedKey_quiet _)
    | .error e =>
        apply Triple.bind (quietly (note_quiet _ _))
        intro _
        apply Triple.bind (quietly (alert_quiet ctx _ _ _ _))
        intro _
        exact quietly (refusedKey_quiet _)
  obtain ⟨allowed, keeps⟩ := quiet g ⟨Run.init ctx 0, .broker .now⟩ start rfl
  refine ⟨allowed, ?_⟩
  intro startedAt g' step
  exact Prog.Obeys.bind ((acquired startedAt _ _ (keeps startedAt g' step)).mono fun _ _ final => final)

theorem runOnce_notLive (notLive : ctx.mode ≠ .live)
    (quiet : ∀ g asked, P g → asked.quiet →
      law.allowed g asked ∧ ∀ answer g', law.next g asked answer g' → P g')
    (executed : ∀ targets plan, Stepwise law (fun _ g => P g) (stepExecute ctx targets plan)
      (fun _ g => P g) fun _ _ g => P g)
    {g : G} (start : P g) : (runOnce ctx).Obeys law g fun _ g => P g := by
  apply runOnce_around quiet _ start
  apply execute_around quiet
  · exact QuietStep.stepwise (stepHaltedCheck_quiet ctx notLive) quiet
  · exact QuietStep.stepwise (stepCleanup_quiet ctx notLive) quiet
  · exact QuietStep.stepwise (stepRisk_quiet ctx notLive) quiet
  · exact executed

end Whole

end Run

end RebalancerRun
