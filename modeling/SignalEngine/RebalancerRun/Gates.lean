import SignalEngine.RebalancerRun.SendOnce

/-! # The gates of a live run

No order of a live run leaves before every gate was passed, whatever the
collaborators answer. A log of the answers shows which gates the collaborators
opened; the rest stands in the run's own state, which each call carries.
-/

open BrokerAdapters Interaction Text

namespace RebalancerRun

open RebalancerCore (Instant InstantText Sha256 PlannedOrder SleeveTarget OrderPlan)
open RebalancerRisk (AccountState RiskDecision dateNaive stepWith)

structure Gates where
  started : Bool
  paperVenue : Bool
  killClear : Bool
  /-- Every instant read from the clock. -/
  clock : List Instant
  /-- The account state the store was last seen with. -/
  stored : Option AccountState

namespace Gates

def closed : Gates := ⟨false, false, false, [], none⟩

def note (g : Gates) : (op : RunOp) → op.Answer → Gates
  | .begin _ _ _ _, .ok (.started _) => { g with started := true }
  | .environment, .paper => { g with paperVenue := true }
  | .killFlag, .ok false => { g with killClear := true }
  | .broker .now, t => { g with clock := t :: g.clock }
  | .loadState _, .ok state => { g with stored := state }
  | .saveState _ next, .ok _ => { g with stored := some next }
  | _, _ => g

def after (trace : List (Answered Asked Asked.Answer)) : Gates :=
  trace.foldl (fun g made => g.note made.1.op made.2) closed

structure Within (g g' : Gates) : Prop where
  started : g.started = true → g'.started = true
  paperVenue : g.paperVenue = true → g'.paperVenue = true
  killClear : g.killClear = true → g'.killClear = true
  clock : ∀ t ∈ g.clock, t ∈ g'.clock

theorem Within.refl (g : Gates) : g.Within g := ⟨id, id, id, fun _ => id⟩

theorem Within.trans {g g' g'' : Gates} (first : g.Within g') (second : g'.Within g'') : g.Within g'' :=
  ⟨second.started ∘ first.started, second.paperVenue ∘ first.paperVenue,
    second.killClear ∘ first.killClear, fun t member => second.clock t (first.clock t member)⟩

theorem within_note (g : Gates) (op : RunOp) (answer : op.Answer) : g.Within (g.note op answer) := by
  unfold note
  split
  · exact ⟨fun _ => rfl, id, id, fun _ => id⟩
  · exact ⟨id, fun _ => rfl, id, fun _ => id⟩
  · exact ⟨id, id, fun _ => rfl, fun _ => id⟩
  · exact ⟨id, id, id, fun _ => List.mem_cons_of_mem _⟩
  · exact ⟨id, id, id, fun _ => id⟩
  · exact ⟨id, id, id, fun _ => id⟩
  · exact .refl g

end Gates

/-! ## What must hold when an order is sent -/

section Conditions

variable [InstantText] [UnicodeCase] (ctx : RunContext)

/-- The mandate stood, at an instant this run read, and gave the risk policy. -/
def MandateStands (g : Gates) (policy : RebalancerRisk.RiskPolicy) : Prop :=
  ∃ m t, ctx.mandate = some m ∧ t ∈ g.clock ∧
    m.riskPolicy ctx.config.recoveryFraction = .ok policy ∧
    ((Run.policyFor ctx m).standing t = .active ∨ (Run.policyFor ctx m).standing t = .expired)

/-- The risk step did not halt, and the state it came to, of an account in good
    standing, is the stored one. -/
def RiskPassed (g : Gates) (run : Run) : Prop :=
  ∃ policy before snap next decision transition s, MandateStands ctx g policy ∧
    run.snapshot = some snap ∧
    stepWith before (Run.equitySnapshot snap) ctx.tradingDay policy ctx.config.dayStart =
      (next, decision, transition) ∧
    run.record.risk = some decision ∧ decision.action ≠ .haltFlatten ∧
    g.stored = some s ∧ (s = next ∨ next.same s = true) ∧ (s.status = .active ∨ s.status = .shrunk)

structure Cleared (g : Gates) (run : Run) : Prop where
  started : g.started = true
  venue : ctx.config.venuePolicy = .paperOnly → g.paperVenue = true
  kill : g.killClear = true
  recon : ∃ report, ⟨"pre", report⟩ ∈ run.record.recon ∧ report.verdict = .ok
  risk : RiskPassed ctx g run

/-- The day of the account's reading has no anchor. -/
def Unanchored (run : Run) : Prop :=
  ∃ lag snap, ctx.config.dayStart = .utcMidnight lag ∧ run.snapshot = some snap ∧
    Run.dayStartMissing run.state (dateNaive snap.takenAt) = true

def HeldShort (run : Run) (symbol : String) : Prop :=
  ∃ snap h, run.snapshot = some snap ∧ snap.holding symbol = some h ∧ h.quantity.isNegative = true

/-- A run that has no plan yet sends an order only in a flatten. -/
def MaySend (g : Gates) (run : Run) (req : OrderRequest) : Prop :=
  match run.record.plan with
  | none => ∃ s, g.stored = some s ∧ s.status = .flattening
  | some _ => Cleared ctx g run ∧ (Unanchored ctx run → req.side = .buy → HeldShort run req.symbol)

def gateLaw : Law Asked Asked.Answer Gates :=
  Law.logged (fun g asked => ∀ req, asked.op = .broker (.place req) → MaySend ctx g asked.run req)
    fun g made => g.note made.1.op made.2

end Conditions

namespace Run

def view (run : Run) :=
  (run.record.plan, run.record.recon, run.record.risk, run.state, run.snapshot, run.riskPolicy,
    run.buysPaused)

structure ViewKept (r : Run) (g : Gates) (r' : Run) (g' : Gates) : Prop where
  view : r'.view = r.view
  gates : g.Within g'

theorem viewKept_frame : Frame ViewKept where
  refl _ g := ⟨rfl, .refl g⟩
  trans first second := ⟨second.view.trans first.view, first.gates.trans second.gates⟩

structure Mild (r : Run) (g : Gates) (r' : Run) (g' : Gates) : Prop extends ViewKept r g r' g' where
  stored : g'.stored = g.stored

theorem mild_frame : Frame Mild where
  refl r g := ⟨viewKept_frame.refl r g, rfl⟩
  trans first second :=
    ⟨viewKept_frame.trans first.toViewKept second.toViewKept, second.stored.trans first.stored⟩

variable [InstantText] [UnicodeCase] {ctx : RunContext} {α β : Type}

abbrev Gentle (ctx : RunContext) (x : RunM α) : Prop := Framed (gateLaw ctx) Mild x

abbrev GentleStep (ctx : RunContext) (x : StepM α) : Prop := FramedStep (gateLaw ctx) Mild x

abbrev Stops (ctx : RunContext) (x : StepM α) : Prop :=
  Stepwise (gateLaw ctx) (fun _ _ => True) x (fun _ _ => True) fun _ _ _ => False

/-- Calls that neither send an order nor touch the stored state. -/
def isMild : RunOp → Bool
  | .broker (.place _) | .loadState _ | .saveState _ _ => false
  | _ => true

omit [InstantText] [UnicodeCase] in
theorem note_stored {op : RunOp} (mild : isMild op = true) (g : Gates) (answer : op.Answer) :
    (g.note op answer).stored = g.stored := by
  unfold Gates.note
  split <;> simp_all [isMild]

theorem unsent_allowed (asked : Asked) (unsent : asked.unsent) (g : Gates) : (gateLaw ctx).allowed g asked :=
  fun req sends => absurd sends (unsent req)

theorem askFor_gentle {op : RunOp} (mild : isMild op = true) : Gentle ctx (askFor op) := by
  intro run g
  constructor
  · apply unsent_allowed
    rintro req ⟨⟩
    cases mild
  · rintro answer g' rfl
    exact ⟨⟨rfl, Gates.within_note g op answer⟩, note_stored mild g answer⟩

theorem Gentle.pure {value : α} : Gentle ctx (Pure.pure value : RunM α) := fun r g => mild_frame.refl r g

theorem Gentle.modify {f : Run → Run} (same : ∀ run, (f run).view = run.view) :
    Gentle ctx (modify f : RunM Unit) := fun r g => ⟨⟨same r, .refl g⟩, rfl⟩

theorem Gentle.bind {x : RunM α} {f : α → RunM β} (first : Gentle ctx x)
    (second : ∀ a, Gentle ctx (f a)) : Gentle ctx (x >>= f) := Framed.bind mild_frame first second

theorem GentleStep.bind {x : StepM α} {f : α → StepM β} (first : GentleStep ctx x)
    (second : ∀ a, GentleStep ctx (f a)) : GentleStep ctx (x >>= f) :=
  FramedStep.bind mild_frame first second

theorem GentleStep.pure {value : α} : GentleStep ctx (Pure.pure value : StepM α) :=
  fun r g _ => mild_frame.refl r g

theorem GentleStep.get : GentleStep ctx (MonadState.get : StepM Run) := fun r g _ => mild_frame.refl r g

theorem GentleStep.modify {f : Run → Run} (same : ∀ run, (f run).view = run.view) :
    GentleStep ctx (MonadStateOf.modifyGet fun run => ((), f run) : StepM Unit) :=
  fun r g _ => ⟨⟨same r, .refl g⟩, rfl⟩

theorem GentleStep.failure : GentleStep ctx (Alternative.failure : StepM α) := by
  intro r g ended
  cases ended

/-- A quiet piece of a step may change anything but the orders. -/
theorem calm_runs {x : RunM α} (calls : Calls Asked.quiet x) :
    Triple (gateLaw ctx) (fun _ _ => True) x fun _ _ _ => True :=
  Calls.triple calls fun g asked _ calm => ⟨unsent_allowed asked calm.unsent g, fun _ _ _ => trivial⟩

theorem quiet_runs {x : RunM α} (quiet : Quiet x) :
    Triple (gateLaw ctx) (fun _ _ => True) x fun _ _ _ => True := calm_runs quiet.calls

theorem calm_steps {x : StepM α} (calls : StepCalls Asked.quiet x) :
    Stepwise (gateLaw ctx) (fun _ _ => True) x (fun _ _ => True) fun _ _ _ => True :=
  StepCalls.stepwise calls fun g asked _ calm => ⟨unsent_allowed asked calm.unsent g, fun _ _ _ => trivial⟩

theorem quiet_steps {x : StepM α} (quiet : QuietStep x) :
    Stepwise (gateLaw ctx) (fun _ _ => True) x (fun _ _ => True) fun _ _ _ => True :=
  calm_steps quiet.calls

theorem endWith_stops {last : RunM Unit} (quiet : Quiet last) : Stops ctx (endWith last : StepM α) := by
  apply Stepwise.bind (quiet_steps (QuietStep.lift quiet))
  intro _
  exact fun _ _ _ => trivial

theorem failRun_stops (code : RunCode) (message : String) : Stops ctx (failRun ctx code message : StepM α) :=
  endWith_stops (failClosed_quiet ctx code message)

theorem Stops.step {x : StepM α} (stops : Stops ctx x) {pre : Run → Gates → Prop}
    {post : α → Run → Gates → Prop} : Stepwise (gateLaw ctx) pre x (fun _ _ => True) post :=
  Stepwise.weaken stops (fun _ _ _ => trivial) (fun _ _ _ => trivial) fun _ _ _ final => absurd final id

theorem GentleStep.step {x : StepM α} (gentle : GentleStep ctx x) {pre P : Run → Gates → Prop}
    (start : ∀ r g, pre r g → P r g) (stable : ∀ {r g r' g'}, ViewKept r g r' g' → P r g → P r' g') :
    Stepwise (gateLaw ctx) pre x (fun _ _ => True) fun _ => P :=
  Stepwise.weaken (gentle.keeps fun mild => stable mild.toViewKept) start (fun _ _ stopped => stopped)
    fun _ _ _ final => final

theorem Stops.gentle {x : StepM α} (stops : Stops ctx x) : GentleStep ctx x := FramedStep.of_stops stops

theorem failRun_gentle (code : RunCode) (message : String) :
    GentleStep ctx (failRun ctx code message : StepM α) := (failRun_stops code message).gentle

theorem endWith_gentle {last : RunM Unit} (quiet : Quiet last) : GentleStep ctx (endWith last : StepM α) :=
  (endWith_stops quiet).gentle

theorem held_gentle (a : Option α) : GentleStep ctx (held a) := by
  cases a with
  | none => exact GentleStep.failure
  | some a => exact GentleStep.pure

theorem now_gentle : Gentle ctx now := askFor_gentle rfl

theorem modifyRec_gentle {f : RunRecord → RunRecord}
    (plan : ∀ r, (f r).plan = r.plan) (recon : ∀ r, (f r).recon = r.recon)
    (risk : ∀ r, (f r).risk = r.risk) : Gentle ctx (modifyRec f) :=
  Gentle.modify fun run => by simp [view, plan, recon, risk]

theorem note_gentle (step text : String) : Gentle ctx (note step text) :=
  now_gentle.bind fun _ => modifyRec_gentle (fun _ => rfl) (fun _ => rfl) fun _ => rfl

theorem alert_gentle (code : AlertCode) (severity : AlertSeverity) (message dedupe : String) :
    Gentle ctx (alert ctx code severity message dedupe) := by
  apply now_gentle.bind
  intro at'
  apply Gentle.bind (askFor_gentle rfl)
  intro answer
  cases answer with
  | ok => exact modifyRec_gentle (fun _ => rfl) (fun _ => rfl) fun _ => rfl
  | error e => exact modifyRec_gentle (fun _ => rfl) (fun _ => rfl) fun _ => rfl

theorem ask_triple {op : RunOp} (unsent : ∀ req, op ≠ .broker (.place req)) {pre : Run → Gates → Prop}
    {post : op.Answer → Run → Gates → Prop}
    (next : ∀ r g answer, pre r g → post answer r (g.note op answer)) :
    Triple (gateLaw ctx) pre (askFor op) post := by
  intro r g start
  refine ⟨unsent_allowed ⟨r, op⟩ unsent g, ?_⟩
  rintro answer g' rfl
  exact next r g answer start

/-! ## Up to the decisions -/

section Fields

variable {r r' : Run} {g g' : Gates} (kept : ViewKept r g r' g')

include kept

omit [InstantText] [UnicodeCase] in
theorem ViewKept.plan : r'.record.plan = r.record.plan := congrArg Prod.fst kept.view

omit [InstantText] [UnicodeCase] in
theorem ViewKept.recon : r'.record.recon = r.record.recon := congrArg (fun v => v.2.1) kept.view

omit [InstantText] [UnicodeCase] in
theorem ViewKept.risk : r'.record.risk = r.record.risk := congrArg (fun v => v.2.2.1) kept.view

omit [InstantText] [UnicodeCase] in
theorem ViewKept.state : r'.state = r.state := congrArg (fun v => v.2.2.2.1) kept.view

omit [InstantText] [UnicodeCase] in
theorem ViewKept.snapshot : r'.snapshot = r.snapshot := congrArg (fun v => v.2.2.2.2.1) kept.view

omit [InstantText] [UnicodeCase] in
theorem ViewKept.riskPolicy : r'.riskPolicy = r.riskPolicy := congrArg (fun v => v.2.2.2.2.2.1) kept.view

omit [InstantText] [UnicodeCase] in
theorem ViewKept.buysPaused : r'.buysPaused = r.buysPaused := congrArg (fun v => v.2.2.2.2.2.2) kept.view

end Fields

structure Begun (r : Run) (g : Gates) : Prop where
  plan : r.record.plan = none
  started : g.started = true

omit [InstantText] [UnicodeCase] in
theorem Begun.kept {r r' : Run} {g g' : Gates} (kept : ViewKept r g r' g') (begun : Begun r g) :
    Begun r' g' := ⟨kept.plan.trans begun.plan, kept.gates.started begun.started⟩

structure Admitted (ctx : RunContext) (r : Run) (g : Gates) : Prop extends Begun r g where
  venue : ctx.config.venuePolicy = .paperOnly → g.paperVenue = true

omit [InstantText] [UnicodeCase] in
theorem Admitted.kept {r r' : Run} {g g' : Gates} (kept : ViewKept r g r' g')
    (admitted : Admitted ctx r g) : Admitted ctx r' g' :=
  ⟨admitted.toBegun.kept kept, fun only => kept.gates.paperVenue (admitted.venue only)⟩

theorem stepVenuePolicy_gated :
    Stepwise (gateLaw ctx) Begun (stepVenuePolicy ctx) (fun _ _ => True) fun _ => Admitted ctx := by
  unfold stepVenuePolicy
  cases policy : ctx.config.venuePolicy with
  | unrestricted => exact fun r g begun => ⟨begun, by simp [policy]⟩
  | paperOnly =>
      have asked : Triple (gateLaw ctx) Begun environment fun env r g =>
          Begun r g ∧ (env = .paper → g.paperVenue = true) := by
        apply ask_triple (by simp)
        rintro r g env begun
        refine ⟨begun.kept ⟨rfl, Gates.within_note g .environment env⟩, ?_⟩
        rintro rfl
        rfl
      have refused : ∀ text message, Stops ctx (endWith do
          note "venue_policy" text
          failClosed ctx .venueNotPaper message : StepM Unit) :=
        fun text message => endWith_stops ((note_quiet _ _).bind fun _ => failClosed_quiet ctx _ _)
      apply Stepwise.bind (Stepwise.lift asked)
      intro env
      cases env with
      | paper =>
          apply GentleStep.step (FramedStep.lift (note_gentle _ _)) _ Admitted.kept
          exact fun r g start => ⟨start.1, fun _ => start.2 rfl⟩
      | live => exact (refused _ _).step
      | unspecified => exact (refused _ _).step

structure Unkilled (ctx : RunContext) (r : Run) (g : Gates) : Prop extends Admitted ctx r g where
  kill : g.killClear = true

omit [InstantText] [UnicodeCase] in
theorem Unkilled.kept {r r' : Run} {g g' : Gates} (kept : ViewKept r g r' g')
    (unkilled : Unkilled ctx r g) : Unkilled ctx r' g' :=
  ⟨unkilled.toAdmitted.kept kept, kept.gates.killClear unkilled.kill⟩

theorem stepKillFlag_gated :
    Stepwise (gateLaw ctx) (Admitted ctx) (stepKillFlag ctx) (fun _ _ => True) fun _ => Unkilled ctx := by
  have asked : Triple (gateLaw ctx) (Admitted ctx) killFlag fun answer r g =>
      Admitted ctx r g ∧ (answer = .ok false → g.killClear = true) := by
    apply ask_triple (by simp)
    rintro r g answer admitted
    refine ⟨admitted.kept ⟨rfl, Gates.within_note g .killFlag answer⟩, ?_⟩
    rintro rfl
    rfl
  apply Stepwise.bind (Stepwise.lift asked)
  intro answer
  match answer with
  | .ok false =>
      apply GentleStep.step (FramedStep.lift (note_gentle _ _)) _ Unkilled.kept
      exact fun r g start => ⟨start.1, start.2 rfl⟩
  | .ok true => exact (endWith_stops ((note_quiet _ _).bind fun _ => setOutcome_quiet _ _ _)).step
  | .error e => exact (endWith_stops ((note_quiet _ _).bind fun _ => failClosed_quiet ctx _ _)).step

/-- The mandate stands, and its risk policy is the run's. -/
structure Mandated (ctx : RunContext) (r : Run) (g : Gates) : Prop extends Unkilled ctx r g where
  mandate : ∃ policy, MandateStands ctx g policy ∧ r.riskPolicy = some policy

theorem MandateStands.within {g g' : Gates} {policy : RebalancerRisk.RiskPolicy}
    (stands : MandateStands ctx g policy) (within : g.Within g') : MandateStands ctx g' policy := by
  obtain ⟨m, t, mandate, read, risk, standing⟩ := stands
  exact ⟨m, t, mandate, within.clock t read, risk, standing⟩

theorem Mandated.kept {r r' : Run} {g g' : Gates} (kept : ViewKept r g r' g')
    (mandated : Mandated ctx r g) : Mandated ctx r' g' := by
  obtain ⟨policy, stands, same⟩ := mandated.mandate
  exact ⟨mandated.toUnkilled.kept kept, policy, MandateStands.within stands kept.gates,
    kept.riskPolicy.trans same⟩

/-- The mandate stood at an instant of the clock. -/
def Stood (ctx : RunContext) (m : Mandate) (r : Run) (g : Gates) : Prop :=
  Unkilled ctx r g ∧ ∃ t ∈ g.clock,
    (policyFor ctx m).standing t = .active ∨ (policyFor ctx m).standing t = .expired

theorem Stood.kept {m : Mandate} {r r' : Run} {g g' : Gates} (kept : ViewKept r g r' g')
    (stood : Stood ctx m r g) : Stood ctx m r' g' := by
  obtain ⟨unkilled, t, read, standing⟩ := stood
  exact ⟨unkilled.kept kept, t, kept.gates.clock t read, standing⟩

theorem setStanding_gentle (standing text : String) : Gentle ctx (setStanding standing text) := by
  apply Gentle.bind
  · exact modifyRec_gentle (fun _ => rfl) (fun _ => rfl) fun _ => rfl
  · exact fun _ => note_gentle _ _

theorem refusal_stops {said : RunM Unit} (quiet : Quiet said) (code : AlertCode)
    (severity : AlertSeverity) (message dedupe : String) (kind : OutcomeKind) (outcome text : String) :
    Stops ctx (endWith do
      said
      alert ctx code severity message dedupe
      setOutcome kind outcome text : StepM α) := by
  apply endWith_stops
  apply quiet.bind
  intro _
  exact (alert_quiet ctx _ _ _ _).bind fun _ => setOutcome_quiet _ _ _

theorem stepMandate_gated (live : ctx.mode = .live) :
    Stepwise (gateLaw ctx) (Unkilled ctx) (stepMandate ctx) (fun _ _ => True) fun _ => Mandated ctx := by
  unfold stepMandate
  cases given : ctx.mandate with
  | none => exact (refusal_stops (note_quiet _ _) _ _ _ _ _ _ _).step
  | some m =>
      apply Stepwise.bind
      · apply GentleStep.step (FramedStep.lift _) (fun _ _ start => start) Unkilled.kept
        exact modifyRec_gentle (fun _ => rfl) (fun _ => rfl) fun _ => rfl
      intro _
      have read : Triple (gateLaw ctx) (Unkilled ctx) now fun at' r g =>
          Unkilled ctx r g ∧ at' ∈ g.clock := by
        apply ask_triple (by simp)
        rintro r g at' unkilled
        exact ⟨unkilled.kept ⟨rfl, Gates.within_note g (.broker .now) at'⟩, List.mem_cons_self⟩
      apply Stepwise.bind (Stepwise.lift read)
      intro at'
      have stays : ∀ {text : String} {policy : RebalancerCore.Policy} (name : String),
          (policyFor ctx m).standing at' = .active ∨ (policyFor ctx m).standing at' = .expired →
          Stepwise (gateLaw ctx) (fun r g => Unkilled ctx r g ∧ at' ∈ g.clock)
            (do setStanding name text; pure policy : StepM RebalancerCore.Policy)
            (fun _ _ => True) fun _ => Stood ctx m := by
        intro text policy name standing
        apply GentleStep.step _ (fun r g start => ⟨start.1, at', start.2, standing⟩) Stood.kept
        exact GentleStep.bind (FramedStep.lift (setStanding_gentle _ _)) fun _ => GentleStep.pure
      apply Stepwise.through fun _ => Stood ctx m
      · cases standing : (policyFor ctx m).standing at' with
        | invalid => exact (refusal_stops (setStanding_quiet _ _) _ _ _ _ _ _ _).step
        | notActive why =>
            -- A draft is rehearsed only in the other modes.
            have traded : mayRehearse ctx = false := by simp [mayRehearse, live]
            dsimp only
            rw [if_neg (by simp [traded])]
            exact (refusal_stops (setStanding_quiet _ _) _ _ _ _ _ _ _).step
        | expired => exact stays _ (.inr standing)
        | active => exact stays _ (.inl standing)
      · intro policy
        cases risk : m.riskPolicy ctx.config.recoveryFraction with
        | error e => exact (failRun_stops _ _).step
        | ok riskPolicy =>
            rintro r g ⟨unkilled, t, read, standing⟩
            exact ⟨⟨⟨⟨unkilled.plan, unkilled.started⟩, unkilled.venue⟩, unkilled.kill⟩, riskPolicy,
              ⟨m, t, given, read, risk, standing⟩, rfl⟩

/-! ## Decisions -/

section Decisions

variable [DateText]

variable (s : SleeveSpec) (asOf : RebalancerRisk.NaiveDate)

theorem recordGate_gentle (gate : Option DataGateReport) : Gentle ctx (recordGate ctx s gate) := by
  cases gate with
  | none => exact Gentle.pure
  | some gate =>
      apply (note_gentle _ _).bind
      intro _
      apply Framed.forM mild_frame
      intro r _
      exact alert_gentle _ _ _ _

omit [DateText] in
theorem lastActedFor_gentle : GentleStep ctx (lastActedFor ctx s) := by
  unfold lastActedFor
  cases s.kind.cadence with
  | daily => exact GentleStep.pure
  | onDecision =>
      apply GentleStep.bind (FramedStep.lift (askFor_gentle rfl))
      intro answer
      match answer with
      | .ok date => exact GentleStep.pure
      | .error (.decisionLedgerUnavailable what) =>
          exact endWith_gentle ((note_quiet _ _).bind fun _ => failClosed_quiet ctx _ _)
      | .error (.unavailable what) => exact failRun_gentle _ _
      | .error (.alreadyFinished key) => exact failRun_gentle _ _
      | .error (.notStarted key) => exact failRun_gentle _ _

omit [DateText] in
theorem evaluateSleeve_gentle : GentleStep ctx (evaluateSleeve ctx s asOf) := by
  apply GentleStep.bind (FramedStep.lift (askFor_gentle rfl))
  intro answer
  match answer with
  | .ok eval => exact GentleStep.pure
  | .error (.data e) => exact endWith_gentle ((note_quiet _ _).bind fun _ => failClosed_quiet ctx _ _)
  | .error (.rule e) => exact endWith_gentle ((note_quiet _ _).bind fun _ => failClosed_quiet ctx _ _)

theorem noteTranche_gentle (eval : Evaluation) (waiting : Bool) : Gentle ctx (noteTranche s eval waiting) := by
  unfold noteTranche
  split
  · exact note_gentle _ _
  · exact Gentle.pure

theorem decideSleeve_gentle (idx : Nat) (s : SleeveSpec) : GentleStep ctx (decideSleeve ctx asOf idx s) := by
  apply GentleStep.bind (evaluateSleeve_gentle s asOf)
  intro eval
  apply GentleStep.bind
  · exact FramedStep.lift (modifyRec_gentle (fun _ => rfl) (fun _ => rfl) fun _ => rfl)
  intro _
  apply GentleStep.bind (lastActedFor_gentle s)
  intro acted
  apply GentleStep.bind (FramedStep.lift (noteTranche_gentle _ _ _))
  intro _
  apply GentleStep.bind (FramedStep.lift (recordGate_gentle _ _))
  intro _
  exact GentleStep.modify fun _ => rfl

theorem decideSleeves_gentle (sleeves : List (Nat × SleeveSpec)) :
    GentleStep ctx (decideSleeves ctx asOf sleeves) := by
  induction sleeves with
  | nil => exact GentleStep.pure
  | cons first rest ih =>
      obtain ⟨idx, s⟩ := first
      exact GentleStep.bind (decideSleeve_gentle asOf idx s) fun _ => ih

omit [DateText] in
theorem stopIfInGoodStanding_kept (summary : String) :
    FramedStep (gateLaw ctx) ViewKept (stopIfInGoodStanding ctx summary) := by
  have stops : Stops ctx (stopIfInGoodStanding.nothingPending summary) :=
    endWith_stops ((note_quiet _ _).bind fun _ => setOutcome_quiet _ _ _)
  have carriesOn : FramedStep (gateLaw ctx) ViewKept (stopIfInGoodStanding.carryOn summary) :=
    FramedStep.mono (FramedStep.lift (note_gentle _ _)) Mild.toViewKept
  have loaded : Framed (gateLaw ctx) ViewKept (loadState ctx.accountId) := by
    intro r g
    refine ⟨unsent_allowed ⟨r, .loadState ctx.accountId⟩ (by rintro req ⟨⟩) g, ?_⟩
    rintro answer g' rfl
    exact ⟨rfl, Gates.within_note g _ answer⟩
  apply FramedStep.bind viewKept_frame (FramedStep.lift loaded)
  intro answer
  match answer with
  | .ok (some s) =>
      dsimp only
      split
      · apply FramedStep.of_stops
        apply Stepwise.bind (calm_steps StepCalls.modify)
        exact fun _ => stops
      · exact carriesOn
  | .ok none =>
      apply FramedStep.of_stops
      apply Stepwise.bind (calm_steps StepCalls.modify)
      exact fun _ => stops
  | .error e => exact carriesOn

theorem stepDecisions_kept : FramedStep (gateLaw ctx) ViewKept (stepDecisions ctx) := by
  apply FramedStep.bind viewKept_frame ((decideSleeves_gentle _ _).mono Mild.toViewKept)
  intro _
  apply FramedStep.bind viewKept_frame (GentleStep.get.mono Mild.toViewKept)
  intro run
  dsimp only
  split
  · exact FramedStep.mono (FramedStep.lift (note_gentle _ _)) Mild.toViewKept
  · exact stopIfInGoodStanding_kept _

end Decisions

/-! ## The account -/

/-- The run works on the stored state; an account without one starts afresh. -/
structure Loaded (ctx : RunContext) (r : Run) (g : Gates) : Prop extends Mandated ctx r g where
  known : g.stored = some r.state ∨ g.stored = none ∧ r.state = AccountState.new ctx.accountId

theorem Loaded.kept {r r' : Run} {g g' : Gates} (kept : Mild r g r' g') (loaded : Loaded ctx r g) :
    Loaded ctx r' g' := by
  refine ⟨loaded.toMandated.kept kept.toViewKept, ?_⟩
  rw [kept.stored, kept.toViewKept.state]
  exact loaded.known

section Account

variable [DebugText]

theorem readSnapshot_gentle (step : String) : GentleStep ctx (readSnapshot ctx step) := by
  apply GentleStep.bind (FramedStep.lift now_gentle)
  intro at'
  apply GentleStep.bind (FramedStep.lift (askFor_gentle rfl))
  intro answer
  match answer with
  | .ok s => exact GentleStep.pure
  | .error e => exact endWith_gentle ((note_quiet _ _).bind fun _ => failClosed_quiet ctx _ _)

omit [DebugText] in
theorem loadedState_gated :
    Stepwise (gateLaw ctx) (Mandated ctx) (loadedState ctx) (fun _ _ => True) fun state r g =>
      Mandated ctx r g ∧
        (g.stored = some state ∨ g.stored = none ∧ state = AccountState.new ctx.accountId) := by
  have asked : Triple (gateLaw ctx) (Mandated ctx) (loadState ctx.accountId) fun answer r g =>
      Mandated ctx r g ∧ ∀ state, answer = .ok state → g.stored = state := by
    apply ask_triple (by simp)
    rintro r g answer mandated
    refine ⟨mandated.kept ⟨rfl, Gates.within_note g _ answer⟩, ?_⟩
    rintro state rfl
    rfl
  apply Stepwise.bind (Stepwise.lift asked)
  intro answer
  match answer with
  | .ok (some s) =>
      rintro r g ⟨mandated, stored⟩
      exact ⟨mandated, .inl (stored _ rfl)⟩
  | .ok none =>
      rintro r g ⟨mandated, stored⟩
      exact ⟨mandated, .inr ⟨stored _ rfl, rfl⟩⟩
  | .error e => exact (failRun_stops _ _).step

theorem stepReadAccount_gated :
    Stepwise (gateLaw ctx) (Mandated ctx) (stepReadAccount ctx) (fun _ _ => True) fun _ => Loaded ctx := by
  apply Stepwise.through fun _ => Mandated ctx
  · exact (readSnapshot_gentle _).step (fun _ _ start => start) Mandated.kept
  intro snap
  apply Stepwise.through fun _ => Mandated ctx
  · apply GentleStep.step (FramedStep.lift _) (fun _ _ start => start) Mandated.kept
    exact modifyRec_gentle (fun _ => rfl) (fun _ => rfl) fun _ => rfl
  intro _
  apply Stepwise.through fun _ => Mandated ctx
  · exact GentleStep.step (FramedStep.lift (note_gentle _ _)) (fun _ _ start => start) Mandated.kept
  intro _
  apply Stepwise.through fun _ => Mandated ctx
  · exact fun r g start => ⟨⟨⟨⟨start.plan, start.started⟩, start.venue⟩, start.kill⟩, start.mandate⟩
  intro _
  apply Stepwise.bind loadedState_gated
  intro state
  apply Stepwise.through fun _ => Loaded ctx
  · exact fun r g ⟨start, known⟩ =>
      ⟨⟨⟨⟨⟨start.plan, start.started⟩, start.venue⟩, start.kill⟩, start.mandate⟩, known⟩
  intro _
  apply FramedStep.keeps (P := Loaded ctx) _ Loaded.kept
  apply GentleStep.bind (FramedStep.lift (askFor_gentle rfl))
  intro answer
  match answer with
  | .ok ids => exact GentleStep.modify fun _ => rfl
  | .error e => exact failRun_gentle _ _

/-! ## Flatten -/

omit [DebugText] in
/-- A program of the broker alone sends only what may be sent before it: nothing that it
    asks touches the stored state. -/
theorem brokerProg_gated {r : Run} {p : Prog BrokerOp BrokerOp.Answer α} : ∀ {g : Gates},
    (∀ req g', g'.stored = g.stored → MaySend ctx g' r req) →
      (brokerProg r p).Obeys (gateLaw ctx) g fun _ _ => True := by
  induction p with
  | done value =>
      intro g _
      trivial
  | call op next ih =>
      intro g may
      constructor
      · rintro req ⟨⟩
        exact may req g rfl
      · rintro answer g' rfl
        apply ih answer
        intro req g' same
        apply may req g'
        rw [same]
        cases op <;> rfl

omit [DebugText] in
theorem brokerProg_unsent {r : Run} {p : Prog BrokerOp BrokerOp.Answer α}
    (unsent : p.Obeys (Law.only fun op => op.isPlace = false) () fun _ _ => True) : ∀ g,
    (brokerProg r p).Obeys (gateLaw ctx) g fun final g' => Mild r g final.2 g' := by
  induction p with
  | done value => exact fun g => mild_frame.refl r g
  | call op next ih =>
      obtain ⟨calm, onward⟩ := unsent
      have mild : isMild (.broker op) = true := by
        cases op with
        | place req => cases calm
        | _ => rfl
      intro g
      constructor
      · rintro req ⟨⟩
        cases calm
      · rintro answer g' rfl
        apply (ih answer (onward answer () trivial) _).mono
        intro _ _ later
        exact mild_frame.trans ⟨⟨rfl, Gates.within_note g _ answer⟩, note_stored mild g answer⟩ later

theorem cancelStale_gentle (known : Std.ExtTreeSet String) : Gentle ctx (cancelStale ctx known) := by
  apply Gentle.bind
  · intro r g
    exact brokerProg_unsent ((Silent.cancelOwnOpenOrders _).unsent Flattener.new () trivial) g
  · exact fun _ => Gentle.pure

def StoredFlattening (r : Run) (g : Gates) : Prop :=
  r.record.plan = none ∧ ∃ s, g.stored = some s ∧ s.status = .flattening

omit [DebugText] in
theorem viaBroker_flattening (p : Prog BrokerOp BrokerOp.Answer α) :
    Triple (gateLaw ctx) StoredFlattening (viaBroker p) fun _ _ _ => True := by
  rintro r g ⟨plan, s, stored, flattening⟩
  apply Prog.Obeys.mono (fun _ _ _ => trivial)
  apply brokerProg_gated
  intro req g' same
  unfold MaySend
  rw [plan]
  exact ⟨s, same.trans stored, flattening⟩

variable [Sha256]

theorem finishFlatten_gated (why : String) :
    Triple (gateLaw ctx) StoredFlattening (finishFlatten ctx why) fun _ _ _ => True := by
  have got : Triple (gateLaw ctx) StoredFlattening (get : RunM Run) fun _ => StoredFlattening :=
    fun _ _ start => start
  apply Triple.bind got
  intro run
  cases run.state.halt with
  | none => exact fun _ _ _ => trivial
  | some halt =>
      apply Triple.bind (viaBroker_flattening _)
      intro report
      -- What follows sends nothing.
      apply quiet_runs
      apply (note_quiet _ _).bind
      intro _
      refine Quiet.bind (Quiet.modify fun _ => ⟨rfl, rfl, rfl, rfl⟩) ?_
      intro _
      apply Quiet.bind Quiet.get
      intro run
      refine Quiet.bind (modifyRec_quiet _ fun _ => ⟨rfl, rfl, rfl, rfl⟩) ?_
      intro _
      apply Quiet.bind (saveState_quiet ctx _)
      intro saved
      cases saved with
      | none => exact Quiet.pure
      | some _ =>
          dsimp only
          split
          · exact Quiet.pure
          · exact alert_quiet ctx _ _ _ _

/-- In good standing: neither halted nor flattening. -/
structure Standing (ctx : RunContext) (r : Run) (g : Gates) : Prop extends Loaded ctx r g where
  good : r.state.status = .active ∨ r.state.status = .shrunk

omit [DebugText] [Sha256] in
theorem Standing.kept {r r' : Run} {g g' : Gates} (kept : Mild r g r' g') (standing : Standing ctx r g) :
    Standing ctx r' g' := by
  refine ⟨standing.toLoaded.kept kept, ?_⟩
  rw [kept.toViewKept.state]
  exact standing.good

omit [DebugText] [Sha256] in
theorem Loaded.flattening {r : Run} {g : Gates} (loaded : Loaded ctx r g)
    (status : r.state.status = .flattening) : StoredFlattening r g := by
  refine ⟨loaded.plan, r.state, ?_, status⟩
  obtain stored | ⟨-, fresh⟩ := loaded.known
  · exact stored
  · rw [fresh] at status
    cases status

theorem stepHaltedCheck_gated (live : ctx.mode = .live) :
    Stepwise (gateLaw ctx) (Loaded ctx) (stepHaltedCheck ctx) (fun _ _ => True) fun _ => Standing ctx := by
  apply Stepwise.reading
  intro run
  cases status : run.state.status with
  | active =>
      rintro r g ⟨rfl, loaded⟩
      exact ⟨loaded, .inl status⟩
  | shrunk =>
      rintro r g ⟨rfl, loaded⟩
      exact ⟨loaded, .inr status⟩
  | halted => exact (refusal_stops (note_quiet _ _) _ _ _ _ _ _ _).step
  | flattening =>
      dsimp only
      rw [if_pos live]
      apply Stepwise.through fun _ _ _ => True
      · apply Stepwise.lift
        have noted : Triple (gateLaw ctx) (fun r g => Loaded ctx r g ∧ r.state.status = .flattening)
            (note "halted_check" "flattening: resuming the flatten") fun _ r g =>
              Loaded ctx r g ∧ r.state.status = .flattening := by
          apply (note_gentle _ _).keeps (P := fun r g => Loaded ctx r g ∧ r.state.status = .flattening)
          rintro r g r' g' kept ⟨loaded, same⟩
          exact ⟨loaded.kept kept, kept.toViewKept.state ▸ same⟩
        apply Triple.bind
        · apply noted.weaken _ fun _ _ _ final => final
          rintro r g ⟨rfl, loaded⟩
          exact ⟨loaded, status⟩
        intro _
        apply Triple.bind
        · apply (finishFlatten_gated _).weaken _ fun _ _ _ final => final
          exact fun r g start => start.1.flattening start.2
        intro _
        exact quiet_runs (Quiet.get.bind fun _ => setOutcome_quiet _ _ _)
      · exact fun _ _ _ _ => trivial

omit [Sha256] in
theorem stepCleanup_gated (live : ctx.mode = .live) :
    Stepwise (gateLaw ctx) (Standing ctx) (stepCleanup ctx) (fun _ _ => True) fun _ => Standing ctx := by
  unfold stepCleanup
  rw [if_neg (by simp [live])]
  apply Stepwise.through fun _ => Standing ctx
  · exact fun _ _ start => start
  intro run
  dsimp only
  split
  · exact FramedStep.keeps (P := Standing ctx) (FramedStep.lift (note_gentle _ _)) Standing.kept
  · apply Stepwise.through fun _ => Standing ctx
    · exact FramedStep.keeps (P := Standing ctx) (FramedStep.lift (cancelStale_gentle _)) Standing.kept
    intro f
    apply Stepwise.through fun _ => Standing ctx
    · apply FramedStep.keeps (P := Standing ctx) (FramedStep.lift _) Standing.kept
      exact modifyRec_gentle (fun _ => rfl) (fun _ => rfl) fun _ => rfl
    intro _
    apply Stepwise.through fun _ => Standing ctx
    · exact FramedStep.keeps (P := Standing ctx) (FramedStep.lift (note_gentle _ _)) Standing.kept
    intro _
    split
    · exact (failRun_stops _ _).step
    · apply Stepwise.through fun _ => Standing ctx
      · exact (readSnapshot_gentle _).keeps (P := Standing ctx) Standing.kept
      intro snap r g standing
      exact ⟨⟨⟨⟨⟨⟨standing.plan, standing.started⟩, standing.venue⟩, standing.kill⟩, standing.mandate⟩,
        standing.known⟩, standing.good⟩

end Account

/-! ## Reconciliation -/

section Recon

theorem haltReconciliation_stops (detail : String) : Stops ctx (haltReconciliation ctx detail : StepM α) := by
  apply Stepwise.bind (quiet_steps (QuietStep.lift now_quiet))
  intro at'
  apply Stepwise.bind (quiet_steps QuietStep.get)
  intro run
  apply Stepwise.bind (calm_steps (StepCalls.lift (modifyRec_calls _)))
  intro _
  apply Stepwise.bind (quiet_steps (saveState_quiet ctx _))
  intro _
  exact endWith_stops ((alert_quiet ctx _ _ _ _).bind fun _ => setOutcome_quiet _ _ _)

theorem lastBaseline_gentle : GentleStep ctx (lastBaseline ctx) := by
  apply GentleStep.bind (FramedStep.lift (askFor_gentle rfl))
  intro answer
  match answer with
  | .ok s => exact GentleStep.pure
  | .error e => exact failRun_gentle _ _

theorem appliedBaseline_gentle (baseline : Option ReconBaseline) (orders : List ExpectedOrder) :
    GentleStep ctx (appliedBaseline ctx baseline orders) := by
  unfold appliedBaseline
  split
  · exact GentleStep.pure
  · split
    · exact GentleStep.pure
    · exact (haltReconciliation_stops _).gentle

/-- The account agreed with what it should look like before trading. -/
structure Reconciled (ctx : RunContext) (r : Run) (g : Gates) : Prop extends Standing ctx r g where
  recon : ∃ report, ⟨"pre", report⟩ ∈ r.record.recon ∧ report.verdict = .ok

theorem Reconciled.kept {r r' : Run} {g g' : Gates} (kept : Mild r g r' g')
    (reconciled : Reconciled ctx r g) : Reconciled ctx r' g' := by
  refine ⟨reconciled.toStanding.kept kept, ?_⟩
  rw [kept.toViewKept.recon]
  exact reconciled.recon

variable [DebugText]

theorem lookUpEntries_gentle (entries : List JournalEntry) : GentleStep ctx (lookUpEntries ctx entries) := by
  induction entries with
  | nil => exact GentleStep.pure
  | cons e entries ih =>
      apply GentleStep.bind (FramedStep.lift (askFor_gentle rfl))
      intro answer
      match answer with
      | .error err => exact failRun_gentle _ _
      | .ok reports =>
          apply GentleStep.bind
          · exact GentleStep.modify fun _ => rfl
          intro _
          exact GentleStep.bind ih fun _ => GentleStep.pure

theorem inFlightOrders_gentle : GentleStep ctx (inFlightOrders ctx) := by
  apply GentleStep.bind (FramedStep.lift (askFor_gentle rfl))
  intro answer
  match answer with
  | .error e => exact failRun_gentle _ _
  | .ok entries => exact lookUpEntries_gentle entries

theorem stepReconPre_gated :
    Stepwise (gateLaw ctx) (Standing ctx) (stepReconPre ctx) (fun _ _ => True) fun _ => Reconciled ctx := by
  have stays : ∀ {β : Type} {x : StepM β}, GentleStep ctx x →
      Stepwise (gateLaw ctx) (Standing ctx) x (fun _ _ => True) fun _ => Standing ctx :=
    fun gentle => gentle.keeps (P := Standing ctx) Standing.kept
  apply Stepwise.bind (stays lastBaseline_gentle)
  intro last
  apply Stepwise.bind (stays inFlightOrders_gentle)
  intro orders
  apply Stepwise.bind
  · exact stays (GentleStep.modify fun _ => rfl)
  intro _
  apply Stepwise.bind (stays (appliedBaseline_gentle _ _))
  intro baseline
  apply Stepwise.bind (stays GentleStep.get)
  intro run
  apply Stepwise.bind (stays (held_gentle _))
  intro snap
  apply Stepwise.bind (stays (FramedStep.lift now_gentle))
  intro at'
  dsimp only
  apply Stepwise.bind (stays (FramedStep.lift (note_gentle _ _)))
  intro _
  generalize downgradeForMode ctx _ = report
  apply Stepwise.through fun _ r g => Standing ctx r g ∧ ⟨"pre", report⟩ ∈ r.record.recon
  · intro r g standing
    refine ⟨⟨⟨⟨⟨⟨⟨standing.plan, standing.started⟩, standing.venue⟩, standing.kill⟩, standing.mandate⟩,
      standing.known⟩, standing.good⟩, ?_⟩
    exact List.mem_append_right _ (List.mem_singleton_self _)
  intro _
  cases verdict : report.verdict with
  | haltAndAlert =>
      rw [if_pos rfl]
      exact (haltReconciliation_stops _).step
  | ok =>
      rw [if_neg (by simp)]
      rintro r g ⟨standing, pushed⟩
      exact ⟨⟨⟨⟨⟨⟨⟨standing.plan, standing.started⟩, standing.venue⟩, standing.kill⟩, standing.mandate⟩,
        standing.known⟩, standing.good⟩, report, pushed, verdict⟩

end Recon

/-! ## Risk -/

structure Saved (ctx : RunContext) (snap : BrokerSnapshot) (policy : RebalancerRisk.RiskPolicy)
    (next : AccountState) (decision : RiskDecision) (r : Run) (g : Gates) : Prop
    extends Mandated ctx r g where
  recon : ∃ report, ⟨"pre", report⟩ ∈ r.record.recon ∧ report.verdict = .ok
  snapshot : r.snapshot = some snap
  policy : r.riskPolicy = some policy
  risk : r.record.risk = some decision
  stored : ∃ s, g.stored = some s ∧ (s = next ∨ next.same s = true)

theorem Saved.kept {snap : BrokerSnapshot} {policy : RebalancerRisk.RiskPolicy} {next : AccountState}
    {decision : RiskDecision} {r r' : Run} {g g' : Gates} (kept : Mild r g r' g')
    (saved : Saved ctx snap policy next decision r g) : Saved ctx snap policy next decision r' g' where
  toMandated := saved.toMandated.kept kept.toViewKept
  recon := by
    rw [kept.toViewKept.recon]
    exact saved.recon
  snapshot := kept.toViewKept.snapshot.trans saved.snapshot
  policy := kept.toViewKept.riskPolicy.trans saved.policy
  risk := kept.toViewKept.risk.trans saved.risk
  stored := by
    rw [kept.stored]
    exact saved.stored

/-- The run between its risk decision and the save. -/
structure Assessed (ctx : RunContext) (snap : BrokerSnapshot) (policy : RebalancerRisk.RiskPolicy)
    (decision : RiskDecision) (r : Run) (g : Gates) : Prop extends Reconciled ctx r g where
  snapshot : r.snapshot = some snap
  policy : r.riskPolicy = some policy
  risk : r.record.risk = some decision

section Risk

variable {snap : BrokerSnapshot} {policy : RebalancerRisk.RiskPolicy} {next : AccountState}
  {decision : RiskDecision}

theorem Assessed.saved {r : Run} {g : Gates} (assessed : Assessed ctx snap policy decision r g)
    {g' : Gates} (within : g.Within g') {s : AccountState} (stored : g'.stored = some s)
    (same : s = next ∨ next.same s = true) : Saved ctx snap policy next decision r g' where
  toMandated := assessed.toMandated.kept ⟨rfl, within⟩
  recon := assessed.recon
  snapshot := assessed.snapshot
  policy := assessed.policy
  risk := assessed.risk
  stored := ⟨s, stored, same⟩

theorem saveState_gated (read : next.lastEquityAt ≠ none) :
    Stepwise (gateLaw ctx) (Assessed ctx snap policy decision) (saveState ctx next) (fun _ _ => True)
      fun _ => Saved ctx snap policy next decision := by
  apply Stepwise.reading
  intro run
  cases same : next.same run.state with
  | true =>
      rw [if_pos rfl]
      rintro r g ⟨rfl, assessed⟩
      obtain stored | ⟨-, fresh⟩ := assessed.known
      · exact assessed.saved (.refl g) stored (.inr same)
      · -- A fresh state has no reading yet.
        rw [fresh] at same
        exact absurd (RebalancerRisk.AccountState.lastEquityAt_of_same same) read
  | false =>
      rw [if_neg (by simp)]
      have asked : Triple (gateLaw ctx) (fun r g => r = run ∧ Assessed ctx snap policy decision r g)
          (storeState run.state.version next) fun answer r g =>
            ∀ saved, answer = .ok saved → Saved ctx snap policy next decision r g := by
        apply ask_triple (by simp)
        rintro r g answer ⟨-, assessed⟩ saved rfl
        exact assessed.saved (Gates.within_note g (.saveState run.state.version next) (.ok saved)) rfl
          (.inl rfl)
      apply Stepwise.bind (Stepwise.lift asked)
      intro answer
      match answer with
      | .ok saved =>
          intro r g start
          have kept := start saved rfl
          exact ⟨⟨⟨⟨⟨kept.plan, kept.started⟩, kept.venue⟩, kept.kill⟩, kept.mandate⟩, kept.recon,
            kept.snapshot, kept.policy, kept.risk, kept.stored⟩
      | .error (.versionConflict expected actual) => exact (failRun_stops _ _).step
      | .error (.illegalTransition what) => exact (failRun_stops _ _).step
      | .error (.unavailable what) => exact (failRun_stops _ _).step

/-- Every gate is passed, and the buys are paused on a day without an anchor. -/
structure Ready (ctx : RunContext) (r : Run) (g : Gates) : Prop where
  cleared : Cleared ctx g r
  paused : Unanchored ctx r → r.buysPaused.isSome = true

theorem Saved.cleared {r : Run} {g : Gates} (saved : Saved ctx snap policy next decision r g)
    {before : AccountState} (good : before.status = .active ∨ before.status = .shrunk)
    {transition : Option RebalancerRisk.Transition}
    (stepped : stepWith before (equitySnapshot snap) ctx.tradingDay policy ctx.config.dayStart =
      (next, decision, transition)) (passed : decision.action ≠ .haltFlatten) : Cleared ctx g r where
  started := saved.started
  venue := saved.venue
  kill := saved.kill
  recon := saved.recon
  risk := by
    obtain ⟨policy', stands, given⟩ := saved.mandate
    obtain rfl : policy' = policy := Option.some.inj (given.symm.trans saved.policy)
    obtain ⟨s, stored, same⟩ := saved.stored
    have standing : s.status = .active ∨ s.status = .shrunk := by
      have status : s.status = next.status := by
        obtain rfl | equal := same
        · rfl
        · exact (RebalancerRisk.AccountState.status_of_same equal).symm
      rw [status]
      exact (RebalancerRisk.stepWith_status good stepped).2 passed
    exact ⟨policy', before, snap, next, decision, transition, s, stands, saved.snapshot, stepped,
      saved.risk, passed, stored, same, standing⟩

theorem Cleared.kept {r r' : Run} {g g' : Gates} (kept : Mild r g r' g') (cleared : Cleared ctx g r) :
    Cleared ctx g' r' where
  started := kept.gates.started cleared.started
  venue := fun only => kept.gates.paperVenue (cleared.venue only)
  kill := kept.gates.killClear cleared.kill
  recon := by
    rw [kept.toViewKept.recon]
    exact cleared.recon
  risk := by
    obtain ⟨policy, before, snap, next, decision, transition, s, stands, read, stepped, risk, passed,
      stored, rest⟩ := cleared.risk
    exact ⟨policy, before, snap, next, decision, transition, s, MandateStands.within stands kept.gates,
      kept.toViewKept.snapshot.trans read, stepped, kept.toViewKept.risk.trans risk, passed,
      kept.stored.trans stored, rest⟩

omit [InstantText] [UnicodeCase] in
theorem unanchored_kept {r r' : Run} {g g' : Gates} (kept : ViewKept r g r' g')
    (unanchored : Unanchored ctx r') : Unanchored ctx r := by
  obtain ⟨lag, snap, rule, read, missing⟩ := unanchored
  exact ⟨lag, snap, rule, kept.snapshot.symm.trans read, kept.state ▸ missing⟩

theorem Ready.kept {r r' : Run} {g g' : Gates} (kept : Mild r g r' g') (ready : Ready ctx r g) :
    Ready ctx r' g' := by
  refine ⟨Cleared.kept kept ready.cleared, ?_⟩
  intro unanchored
  rw [kept.toViewKept.buysPaused]
  exact ready.paused (unanchored_kept kept.toViewKept unanchored)

def Unplanned (ctx : RunContext) (r : Run) (g : Gates) : Prop := r.record.plan = none ∧ Ready ctx r g

theorem Unplanned.kept {r r' : Run} {g g' : Gates} (kept : Mild r g r' g') (unplanned : Unplanned ctx r g) :
    Unplanned ctx r' g' :=
  ⟨kept.toViewKept.plan.trans unplanned.1, unplanned.2.kept kept⟩

variable [DateText]

theorem alertAnchorGap_gentle (day : RebalancerRisk.NaiveDate) (message : String) (firstAt : Option Instant) :
    Gentle ctx (alertAnchorGap ctx day message firstAt) := by
  cases firstAt with
  | none => exact Gentle.pure
  | some t => exact alert_gentle _ _ _ _

theorem pauseBuys_gated (priorDay : Option RebalancerRisk.NaiveDate) :
    Triple (gateLaw ctx)
      (fun r g => r.snapshot = some snap ∧ r.record.plan = none ∧ Cleared ctx g r)
      (pauseBuys ctx snap priorDay) fun _ => Unplanned ctx := by
  unfold pauseBuys
  cases rule : ctx.config.dayStart with
  | firstObservation =>
      rintro r g ⟨-, plan, cleared⟩
      refine ⟨plan, cleared, ?_⟩
      rintro ⟨lag, snap, midnight, -⟩
      rw [rule] at midnight
      cases midnight
  | utcMidnight lag =>
      have got : Triple (gateLaw ctx)
          (fun r g => r.snapshot = some snap ∧ r.record.plan = none ∧ Cleared ctx g r)
          (get : RunM Run) fun run r g => (r.record.plan = none ∧ Cleared ctx g r) ∧
            r.snapshot = some snap ∧ r.state = run.state :=
        fun r g start => ⟨start.2, start.1, rfl⟩
      apply Triple.bind got
      intro run
      cases missing : dayStartMissing run.state (dateNaive snap.takenAt) with
      | false =>
          rw [if_neg (by simp)]
          rintro r g ⟨⟨plan, cleared⟩, read, same⟩
          refine ⟨plan, cleared, ?_⟩
          rintro ⟨lag', snap', -, read', unanchored⟩
          obtain rfl : snap = snap' := Option.some.inj (read.symm.trans read')
          rw [same, missing] at unanchored
          cases unanchored
      | true =>
          rw [if_pos rfl]
          have stays : ∀ {x : RunM Unit}, Gentle ctx x → Triple (gateLaw ctx)
              (fun r g => r.record.plan = none ∧ Cleared ctx g r) x fun _ r g =>
                r.record.plan = none ∧ Cleared ctx g r := fun gentle =>
            gentle.keeps (P := fun r g => r.record.plan = none ∧ Cleared ctx g r) fun kept start =>
              ⟨kept.toViewKept.plan.trans start.1, Cleared.kept kept start.2⟩
          apply Triple.bind
          · exact (stays (note_gentle _ _)).weaken (fun _ _ start => start.1) fun _ _ _ final => final
          intro _
          apply Triple.bind (stays (alertAnchorGap_gentle _ _ _))
          intro _
          rintro r g ⟨plan, cleared⟩
          exact ⟨plan, ⟨cleared.started, cleared.venue, cleared.kill, cleared.recon, cleared.risk⟩,
            fun _ => rfl⟩

variable [DebugText] [Sha256]

structure Measured (ctx : RunContext) (snap : BrokerSnapshot) (policy : RebalancerRisk.RiskPolicy)
    (before : AccountState) (r : Run) (g : Gates) : Prop extends Reconciled ctx r g where
  snapshot : r.snapshot = some snap
  policy : r.riskPolicy = some policy
  before : r.state = before

omit [DateText] [DebugText] [Sha256] in
theorem Measured.kept {before : AccountState} {r r' : Run} {g g' : Gates} (kept : Mild r g r' g')
    (measured : Measured ctx snap policy before r g) : Measured ctx snap policy before r' g' :=
  ⟨measured.toReconciled.kept kept, kept.toViewKept.snapshot.trans measured.snapshot,
    kept.toViewKept.riskPolicy.trans measured.policy, kept.toViewKept.state.trans measured.before⟩

omit [InstantText] [UnicodeCase] [DateText] [DebugText] [Sha256] in
theorem held_bind (a : α) (f : α → StepM β) : (held (some a) >>= f) = f a := rfl

theorem stepRisk_gated (live : ctx.mode = .live) :
    Stepwise (gateLaw ctx) (Reconciled ctx) (stepRisk ctx) (fun _ _ => True) fun _ => Unplanned ctx := by
  apply Stepwise.reading
  intro run
  cases read : run.snapshot with
  | none => exact fun _ _ _ => trivial
  | some snap =>
  cases given : run.riskPolicy with
  | none => exact fun _ _ _ => trivial
  | some policy =>
  rw [held_bind, held_bind]
  rcases stepped : stepWith run.state (equitySnapshot snap) ctx.tradingDay policy ctx.config.dayStart
    with ⟨next, decision, transition⟩
  dsimp only
  suffices rest : run.state.status = .active ∨ run.state.status = .shrunk →
      Stepwise (gateLaw ctx) (Measured ctx snap policy run.state) _ (fun _ _ => True)
        fun _ => Unplanned ctx by
    rintro r g ⟨rfl, reconciled⟩
    exact rest reconciled.good r g ⟨reconciled, read, given, rfl⟩
  intro good
  have dated : next.lastEquityAt ≠ none := by
    have at' := RebalancerRisk.stepWith_lastEquityAt run.state (equitySnapshot snap) ctx.tradingDay policy
      ctx.config.dayStart
    rw [stepped] at at'
    exact ne_of_eq_of_ne at' (by simp)
  apply Stepwise.bind
  · exact FramedStep.keeps (P := Measured ctx snap policy run.state) (FramedStep.lift (note_gentle _ _))
      Measured.kept
  intro _
  apply Stepwise.through fun _ => Assessed ctx snap policy decision
  · intro r g m
    exact ⟨⟨⟨⟨⟨⟨⟨⟨m.plan, m.started⟩, m.venue⟩, m.kill⟩, m.mandate⟩, m.known⟩, m.good⟩, m.recon⟩,
      m.snapshot, m.policy, rfl⟩
  intro _
  apply Stepwise.through fun _ => Assessed ctx snap policy decision
  · intro r g m
    exact ⟨⟨⟨⟨⟨⟨⟨⟨m.plan, m.started⟩, m.venue⟩, m.kill⟩, m.mandate⟩, m.known⟩, m.good⟩, m.recon⟩,
      m.snapshot, m.policy, m.risk⟩
  intro _
  apply Stepwise.bind (saveState_gated dated)
  intro _
  by_cases halts : decision.action = .haltFlatten
  · rw [if_neg (by simp [halts])]
    have flattening : ∀ r g, Saved ctx snap policy next decision r g → StoredFlattening r g := by
      intro r g saved
      obtain ⟨s, stored, same⟩ := saved.stored
      refine ⟨saved.plan, s, stored, ?_⟩
      have status := (RebalancerRisk.stepWith_status good stepped).1 halts
      obtain rfl | equal := same
      · exact status
      · exact (RebalancerRisk.AccountState.status_of_same equal).symm.trans status
    apply Stepwise.bind
    · exact FramedStep.keeps (P := Saved ctx snap policy next decision) (FramedStep.lift (alert_gentle _ _ _ _))
        Saved.kept
    intro _
    rw [if_pos live]
    apply Stepwise.through fun _ _ _ => True
    · apply Stepwise.lift
      apply Triple.bind ((finishFlatten_gated _).weaken flattening fun _ _ _ final => final)
      intro _
      exact quiet_runs (setOutcome_quiet _ _ _)
    · exact fun _ _ _ _ => trivial
  · rw [if_pos halts]
    apply Stepwise.lift
    apply (pauseBuys_gated _).weaken _ fun _ _ _ final => final
    exact fun r g saved => ⟨saved.snapshot, saved.plan, saved.cleared good stepped halts⟩

end Risk

/-! ## Targets and plan -/

section Plan

variable [FloatFloor]

theorem targetsOf_gentle (pending : List (Nat × SleeveSpec × Evaluation)) :
    GentleStep ctx (targetsOf ctx pending) := by
  induction pending with
  | nil => exact GentleStep.pure
  | cons first rest ih =>
      obtain ⟨idx, s, eval⟩ := first
      unfold targetsOf
      cases eval.target s with
      | error e => exact failRun_gentle _ _
      | ok target =>
          apply GentleStep.bind
          · exact FramedStep.lift (modifyRec_gentle (fun _ => rfl) (fun _ => rfl) fun _ => rfl)
          intro _
          exact GentleStep.bind ih fun _ => GentleStep.pure

theorem stepTargets_gentle : GentleStep ctx (stepTargets ctx) := by
  apply GentleStep.bind GentleStep.get
  intro run
  apply GentleStep.bind (targetsOf_gentle _)
  intro targets
  exact GentleStep.bind (FramedStep.lift (note_gentle _ _)) fun _ => GentleStep.pure

omit [FloatFloor] in
theorem dayCounters_gentle : GentleStep ctx (dayCounters ctx) := by
  apply GentleStep.bind (FramedStep.lift (askFor_gentle rfl))
  intro answer
  match answer with
  | .ok c => exact GentleStep.pure
  | .error e => exact failRun_gentle _ _

variable [DebugText] [Sha256]

omit [FloatFloor] in
theorem planWith_gentle (targets : List SleeveTarget) (snap : BrokerSnapshot)
    (day : RebalancerCore.DayCounters) (creditSells : Bool) :
    GentleStep ctx (planWith ctx targets snap day creditSells) := by
  apply GentleStep.bind
  · apply GentleStep.bind (FramedStep.lift now_gentle)
    intro at'
    apply GentleStep.bind (FramedStep.lift (askFor_gentle rfl))
    intro answer
    match answer with
    | .ok prices => exact GentleStep.pure
    | .error e => exact failRun_gentle _ _
  intro prices
  apply GentleStep.bind GentleStep.get
  intro run
  apply GentleStep.bind (held_gentle _)
  intro policy
  apply GentleStep.bind (FramedStep.lift now_gentle)
  intro at'
  split
  · exact GentleStep.pure
  · exact failRun_gentle _ _

def Planned (ctx : RunContext) (r : Run) (g : Gates) : Prop :=
  r.record.plan.isSome = true ∧ Ready ctx r g

omit [FloatFloor] [DebugText] [Sha256] in
theorem Planned.kept {r r' : Run} {g g' : Gates} (kept : Mild r g r' g') (planned : Planned ctx r g) :
    Planned ctx r' g' := by
  refine ⟨?_, planned.2.kept kept⟩
  rw [kept.toViewKept.plan]
  exact planned.1

omit [FloatFloor] in
theorem stepPlan_gated (targets : List SleeveTarget) :
    Stepwise (gateLaw ctx) (Unplanned ctx) (stepPlan ctx targets) (fun _ _ => True)
      fun _ => Planned ctx := by
  have stays : ∀ {β : Type} {x : StepM β}, GentleStep ctx x →
      Stepwise (gateLaw ctx) (Unplanned ctx) x (fun _ _ => True) fun _ => Unplanned ctx :=
    fun gentle => gentle.keeps (P := Unplanned ctx) Unplanned.kept
  apply Stepwise.bind (stays GentleStep.get)
  intro run
  apply Stepwise.bind (stays (held_gentle _))
  intro snap
  apply Stepwise.bind (stays dayCounters_gentle)
  intro day
  apply Stepwise.bind (stays (planWith_gentle _ _ _ _))
  intro plan
  apply Stepwise.through fun _ => Planned ctx
  · rintro r g ⟨-, ready⟩
    exact ⟨rfl, ⟨ready.cleared.started, ready.cleared.venue, ready.cleared.kill, ready.cleared.recon,
      ready.cleared.risk⟩, ready.paused⟩
  intro _
  apply FramedStep.keeps (P := Planned ctx) _ Planned.kept
  exact GentleStep.bind (FramedStep.lift (note_gentle _ _)) fun _ => GentleStep.pure

end Plan

/-! ## Orders -/

section Orders

variable [DebugText]

theorem pollPlaced_gentle (id : String) (left : Nat) : ∀ placed,
    Gentle ctx (pollPlaced ctx id left placed) := by
  induction left with
  | zero => exact fun _ => Gentle.pure
  | succ left ih =>
      intro placed
      apply Gentle.bind (askFor_gentle rfl)
      intro answer
      match answer with
      | .error e => exact Gentle.pure
      | .ok r =>
          dsimp only
          split
          · exact Gentle.pure
          · split
            · exact ih _
            · exact Gentle.bind (askFor_gentle rfl) fun _ => ih _

theorem settleInto_gentle (placed : PlacedOrder) (id : String) : Gentle ctx (settleInto ctx placed id) := by
  apply Gentle.bind
  · exact Gentle.modify fun _ => rfl
  intro _
  apply Gentle.bind (pollPlaced_gentle id _ _)
  intro r
  match r with
  | (placed, true) => exact Gentle.pure
  | (placed, false) =>
      apply Gentle.bind (askFor_gentle rfl)
      intro answer
      match answer with
      | .ok (outcome, r) => exact Gentle.pure
      | .error e => exact Gentle.pure

theorem adopt_gentle (placed : PlacedOrder) (first : OrderReport) : Gentle ctx (adopt ctx placed first) := by
  apply Gentle.bind (askFor_gentle rfl)
  intro answer
  match answer with
  | .ok () => exact settleInto_gentle _ _
  | .error e => exact settleInto_gentle _ _

variable (o : PlannedOrder) (phase : Phase)

theorem accepted_gentle (id : String) : Gentle ctx (accepted ctx o phase id) := by
  unfold accepted
  split
  · exact settleInto_gentle _ _
  · apply Gentle.bind (askFor_gentle rfl)
    intro answer
    match answer with
    | .ok () => exact settleInto_gentle _ _
    | .error e => exact settleInto_gentle _ _

theorem lookUpUnknown_gentle (reason : String) : Gentle ctx (lookUpUnknown ctx o phase reason) := by
  apply Gentle.bind (askFor_gentle rfl)
  intro answer
  match answer with
  | .ok (first :: others) => exact Gentle.bind (adopt_gentle _ _) fun _ => Gentle.pure
  | .ok [] => exact Gentle.pure
  | .error e => exact Gentle.pure

def Unpaused (ctx : RunContext) (o : PlannedOrder) (r : Run) (g : Gates) : Prop :=
  Planned ctx r g ∧ (Unanchored ctx r → o.side = .buy → HeldShort r o.symbol)

omit [DebugText] in
theorem Unpaused.kept {o : PlannedOrder} {r r' : Run} {g g' : Gates} (kept : Mild r g r' g')
    (unpaused : Unpaused ctx o r g) : Unpaused ctx o r' g' := by
  refine ⟨unpaused.1.kept kept, ?_⟩
  intro unanchored buys
  obtain ⟨snap, h, read, held⟩ := unpaused.2 (unanchored_kept kept.toViewKept unanchored) buys
  exact ⟨snap, h, kept.toViewKept.snapshot.trans read, held⟩

theorem sendOrder_gated : Triple (gateLaw ctx) (Unpaused ctx o) (sendOrder ctx o phase) fun _ => Planned ctx := by
  have stays : ∀ {β : Type} {x : RunM β}, Gentle ctx x →
      Triple (gateLaw ctx) (Planned ctx) x fun _ => Planned ctx :=
    fun gentle => gentle.keeps (P := Planned ctx) Planned.kept
  have placed : Triple (gateLaw ctx) (Unpaused ctx o) (place (requestFor o (phase = .rehearsal)))
      fun _ => Planned ctx := by
    rintro r g ⟨planned, buys⟩
    constructor
    · rintro req ⟨⟩
      unfold MaySend
      cases plan : r.record.plan with
      | none => simp [Planned, plan] at planned
      | some _ => exact ⟨planned.2.cleared, buys⟩
    · rintro answer g' rfl
      exact planned
  apply placed.bind
  intro answer
  match answer with
  | .ok (.accepted id _ _ _) => exact stays (accepted_gentle _ _ _)
  | .ok (.validatedOnly _ _ _) => exact fun _ _ start => start
  | .ok (.rejected _ _) => exact fun _ _ start => start
  | .ok (.unknownOutcome reason _) => exact stays (lookUpUnknown_gentle _ _ _)
  | .error e => exact fun _ _ start => start

theorem journalAndSend_gated :
    Triple (gateLaw ctx) (Unpaused ctx o) (journalAndSend ctx o phase) fun _ => Planned ctx := by
  unfold journalAndSend
  split
  · exact sendOrder_gated o phase
  · have journaled : Triple (gateLaw ctx) (Unpaused ctx o)
        (journalOrder ctx.key ⟨o.tag, none, o.notional⟩) fun _ => Unpaused ctx o :=
      Framed.keeps (P := Unpaused ctx o) (askFor_gentle rfl) Unpaused.kept
    apply journaled.bind
    intro answer
    match answer with
    | .ok () => exact sendOrder_gated o phase
    | .error e => exact fun _ _ start => start.1

theorem executeOrder_gated : Triple (gateLaw ctx) (Planned ctx) (executeOrder ctx o phase) fun _ => Planned ctx := by
  have got : Triple (gateLaw ctx) (Planned ctx) (get : RunM Run) fun run r g =>
      Planned ctx r g ∧ r = run := fun r g start => ⟨start, rfl⟩
  apply Triple.bind got
  intro run
  split
  · exact fun _ _ start => start.1
  · split
    · exact fun _ _ start => start.1
    next unpaused =>
        have looked : Triple (gateLaw ctx) (fun r g => Planned ctx r g ∧ r = run) (findByTag o.tag)
            fun _ => Unpaused ctx o := by
          apply Triple.weaken (Framed.keeps (P := Unpaused ctx o) (askFor_gentle rfl) Unpaused.kept) _
            fun _ _ _ final => final
          rintro r g ⟨planned, rfl⟩
          refine ⟨planned, ?_⟩
          intro unanchored buys
          have paused := planned.2.paused unanchored
          obtain ⟨lag, snap, -, read, -⟩ := unanchored
          cases held : snap.holding o.symbol with
          | none => simp [buyIsPaused, paused, buys, read, held] at unpaused
          | some h => exact ⟨snap, h, read, held, by simpa [buyIsPaused, paused, buys, read, held] using unpaused⟩
        apply looked.bind
        intro answer
        match answer with
        | .error e => exact fun _ _ start => start.1
        | .ok (first :: others) =>
            apply Triple.weaken (Framed.keeps (P := Planned ctx) (adopt_gentle _ _) Planned.kept)
              (fun _ _ start => start.1) fun _ _ _ final => final
        | .ok [] => exact journalAndSend_gated o phase

theorem executeAll_gated (orders : List PlannedOrder) :
    Triple (gateLaw ctx) (Planned ctx) (executeAll ctx phase orders) fun _ => Planned ctx := by
  apply Triple.forM
  intro o _
  apply (executeOrder_gated o phase).bind
  intro p
  apply Framed.keeps (P := Planned ctx) _ Planned.kept
  exact modifyRec_gentle (fun _ => rfl) (fun _ => rfl) fun _ => rfl

variable [Sha256]

theorem stepExecute_gated (live : ctx.mode = .live) (targets : List SleeveTarget) (plan : OrderPlan) :
    Stepwise (gateLaw ctx) (Planned ctx) (stepExecute ctx targets plan) (fun _ _ => True)
      fun _ _ _ => True := by
  have stays : ∀ {β : Type} {x : StepM β}, GentleStep ctx x →
      Stepwise (gateLaw ctx) (Planned ctx) x (fun _ _ => True) fun _ => Planned ctx :=
    fun gentle => gentle.keeps (P := Planned ctx) Planned.kept
  unfold stepExecute
  rw [live]
  apply Stepwise.bind (Stepwise.lift (executeAll_gated _ _))
  intro _
  split
  · exact (quiet_steps (QuietStep.lift (note_quiet _ _))).weaken (fun _ _ _ => trivial)
      (fun _ _ _ => trivial) fun _ _ _ _ => trivial
  · apply Stepwise.bind (stays (readSnapshot_gentle _))
    intro snap
    apply Stepwise.bind (stays dayCounters_gentle)
    intro day
    apply Stepwise.bind (stays (planWith_gentle _ _ _ _))
    intro replan
    apply Stepwise.bind
    · exact stays (FramedStep.lift (modifyRec_gentle (fun _ => rfl) (fun _ => rfl) fun _ => rfl))
    intro _
    apply Stepwise.bind (stays (FramedStep.lift (note_gentle _ _)))
    intro _
    exact Stepwise.lift ((executeAll_gated _ _).weaken (fun _ _ start => start) fun _ _ _ _ => trivial)

end Orders

/-! ## The whole run -/

section Whole

variable [DebugText] [DateText] [Sha256] [FloatFloor]

theorem execute_gated (live : ctx.mode = .live) :
    Stepwise (gateLaw ctx) Begun (execute ctx) (fun _ _ => True) fun _ _ _ => True := by
  apply Stepwise.bind stepVenuePolicy_gated
  intro _
  apply Stepwise.bind stepKillFlag_gated
  intro _
  apply Stepwise.bind (stepMandate_gated live)
  intro _
  apply Stepwise.bind (stepDecisions_kept.keeps (P := Mandated ctx) Mandated.kept)
  intro _
  apply Stepwise.bind stepReadAccount_gated
  intro _
  apply Stepwise.bind (stepHaltedCheck_gated live)
  intro _
  apply Stepwise.bind (stepCleanup_gated live)
  intro _
  apply Stepwise.bind stepReconPre_gated
  intro _
  apply Stepwise.bind (stepRisk_gated live)
  intro _
  apply Stepwise.bind (stepTargets_gentle.keeps (P := Unplanned ctx) Unplanned.kept)
  intro targets
  apply Stepwise.bind (stepPlan_gated targets)
  intro plan
  apply Stepwise.bind (stepExecute_gated live targets plan)
  intro _
  apply Stepwise.bind (calm_steps (stepReconPost_calls ctx))
  intro _
  exact calm_steps (StepCalls.lift (stepAssess_calls ctx))

/-- A live run keeps to the gates, whatever it is answered. -/
theorem runOnce_gated (live : ctx.mode = .live) :
    (runOnce ctx).Obeys (gateLaw ctx) Gates.closed fun _ _ => True := by
  have begins : ∀ startedAt, Triple (gateLaw ctx) (fun r _ => r.record.plan = none)
      (beginKey ctx.key ctx.tradingDay startedAt ctx.config.leaseSecs) fun answer r g =>
        ∀ attempt, answer = .ok (.started attempt) → Begun r g := by
    intro startedAt
    apply ask_triple (by simp)
    rintro r g answer plan attempt rfl
    exact ⟨plan, rfl⟩
  have acquired : ∀ startedAt, Triple (gateLaw ctx) (fun r _ => r.record.plan = none)
      (acquire ctx startedAt) fun _ _ _ => True := by
    intro startedAt
    apply (begins startedAt).bind
    intro answer
    have quietly : ∀ {β : Type} {x : RunM β} {P : Run → Gates → Prop}, Quiet x →
        Triple (gateLaw ctx) P x fun _ _ _ => True :=
      fun quiet => (quiet_runs quiet).weaken (fun _ _ _ => trivial) fun _ _ _ final => final
    match answer with
    | .ok (.started attempt) =>
        have stays : ∀ {x : RunM Unit}, Gentle ctx x → Triple (gateLaw ctx) Begun x fun _ => Begun :=
          fun gentle => gentle.keeps (P := Begun) fun kept => Begun.kept kept.toViewKept
        have executed : Triple (gateLaw ctx) Begun (execute ctx).run fun _ _ _ => True :=
          Triple.weaken (execute_gated live) (fun _ _ start => start) fun _ _ _ _ => trivial
        have whole : Triple (gateLaw ctx) Begun (started ctx attempt) fun _ _ _ => True := by
          apply Triple.bind
          · exact stays (modifyRec_gentle (fun _ => rfl) (fun _ => rfl) fun _ => rfl)
          intro _
          apply Triple.bind (stays (note_gentle _ _))
          intro _
          exact executed.bind fun _ => calm_runs (finish_calls ctx)
        exact whole.weaken (fun _ _ start => start attempt rfl) fun _ _ _ final => final
    | .ok (.alreadyDone first) => exact fun _ _ _ => trivial
    | .ok (.busy since) => exact quietly ((note_quiet _ _).bind fun _ => refusedKey_quiet _)
    | .error e =>
        apply quietly
        apply (note_quiet _ _).bind
        intro _
        exact (alert_quiet ctx _ _ _ _).bind fun _ => refusedKey_quiet _
  refine ⟨unsent_allowed _ (by rintro req ⟨⟩) _, ?_⟩
  intro startedAt g' _
  exact Prog.Obeys.bind ((acquired startedAt _ _ rfl).mono fun _ _ final => final)

end Whole

end Run

/-- Behind all its gates: whatever the collaborators answer, a live run sends an order of
    its plan only when it was started, the venue and the kill flag let it pass, the mandate
    stood, the account reconciled, and the risk step did not halt and its state is stored;
    on a day without an anchor it buys only what it holds short; and before it has a plan
    it sends an order only while the stored state is flattening. -/
theorem live_orders_gated [InstantText] [UnicodeCase] [DebugText] [DateText] [Sha256] [FloatFloor]
    (ctx : RunContext) (live : ctx.mode = .live) (before after : List (Answered Asked Asked.Answer))
    (made : Answered Asked Asked.Answer) (rest : Prog Asked Asked.Answer RunRecord) (req : OrderRequest)
    (ran : (runOnce ctx).Runs (before ++ made :: after) rest)
    (sends : made.1.op = .broker (.place req)) : MaySend ctx (Gates.after before) made.1.run req :=
  (Prog.Obeys.runs ran (Run.runOnce_gated live)).2 before made after rfl req sends

section Sample

open RebalancerCore (epochText)
open RebalancerCore.Amount (cents)

attribute [local instance] asciiCase epochText Fund.planHash Fund.dayText Fund.plainQuotes Fund.sameFloat

/-- The state of the fund after an earlier run on the same reading. -/
private def sameReading : AccountState :=
  { AccountState.new "fund" with
    version := 1
    hwm := some (cents 100000)
    dayStartEquity := some (cents 100000)
    tradingDay := some 0
    lastEquity := some (cents 100000)
    lastEquityAt := some 0 }

private def filledBuy (id : String) : OrderReport :=
  ⟨id, none, "BTC/USD", some .buy, .filled, cents 500, cents 500, some (cents 10000),
    some (cents 50000), some (cents 0)⟩

private def halfInvested : BrokerSnapshot :=
  { Fund.inCash with
    cash := cents 50000
    holdings := [⟨"BTC/USD", "crypto", cents 500, some (cents 10000), cents 50000⟩] }

private def filling : Bool → (asked : Asked) → asked.Answer × Bool
  | sent, ⟨_, .broker (.snapshot _)⟩ => (.ok (if sent then halfInvested else Fund.inCash), sent)
  | _, ⟨_, .broker (.place req)⟩ =>
      (.ok (.accepted "id1" none ⟨req.symbol, req.side, req.quantity, none, 0, false⟩ []), true)
  | sent, ⟨_, .broker (.getOrder id)⟩ => (.ok (filledBuy id), sent)
  | sent, ⟨_, .loadState _⟩ => (.ok (some sameReading), sent)
  | sent, ⟨_, op⟩ => (Fund.calm op, sent)

private def isSave : RunOp → Bool
  | .saveState _ _ => true
  | _ => false

/-- A run whose risk step leaves the stored state as it is sends its buy and saves
    nothing. -/
theorem order_sent_without_save :
    ∃ trace record, (runOnce (Fund.context .live)).Runs trace (.done record) ∧
      (trace.any fun made => made.1.op.isRealPlace && made.1.run.record.plan.isSome) = true ∧
      (trace.any fun made => isSave made.1.op) = false :=
  ⟨_, _, Prog.runs_traceOf filling _ false, by decide +kernel, by decide +kernel⟩

/-- The same order is behind its gates. -/
theorem fund_order_gated :
    ∃ before, ∃ made : Answered Asked Asked.Answer, ∃ req, made.1.op = .broker (.place req) ∧
      MaySend (Fund.context .live) (Gates.after before) made.1.run req := by
  obtain ⟨trace, record, ran, sends⟩ : ∃ trace record,
      (runOnce (Fund.context .live)).Runs trace (.done record) ∧
        (trace.any fun made => made.1.op.isRealPlace) = true :=
    ⟨_, _, Prog.runs_traceOf filling _ false, by decide +kernel⟩
  obtain ⟨made, member, place⟩ := List.any_eq_true.1 sends
  obtain ⟨before, after, rfl⟩ := List.append_of_mem member
  obtain ⟨req, sent, -⟩ := RunOp.isRealPlace_iff.1 place
  exact ⟨before, made, req, sent,
    live_orders_gated (Fund.context .live) rfl before after made _ req ran sent⟩

end Sample

end RebalancerRun
