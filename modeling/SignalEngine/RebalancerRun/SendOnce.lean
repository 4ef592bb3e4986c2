import SignalEngine.RebalancerRun.FlattenSafety
import SignalEngine.RebalancerRun.PipelineCalls
import SignalEngine.Lib.Turns

/-! # One order per tag

Every order is sent right after the broker was asked for its tag and had no order
under it. Between the two calls another attempt of the same run may do the same:
the lease of an attempt is only looked at when the next one begins.
-/

open BrokerAdapters Interaction Text

namespace RebalancerRun

open RebalancerCore (Instant InstantText Sha256 PlannedOrder SleeveTarget OrderPlan)

/-! ## Look first -/

def noteLookup (free : Option String) : (op : BrokerOp) → op.Answer → Option String
  | .findByTag tag, .ok [] => some tag
  | .findByTag _, _ => none
  | .place _, _ => none
  | _, _ => free

/-- An order may only be sent under a tag that was just found free. -/
def mayPlace (free : Option String) (op : BrokerOp) : Prop := ∀ req, op = .place req → free = some req.tag

def lookFirst : Law BrokerOp BrokerOp.Answer (Option String) :=
  Law.logged mayPlace fun free made => noteLookup free made.1 made.2

def BrokerOp.isPlace : BrokerOp → Bool
  | place _ => true
  | _ => false

section Flatten

variable {α β : Type}

theorem reading_kept {p : Prog BrokerOp BrokerOp.Answer α} : ∀ {snap : BrokerSnapshot},
    ¬ p.Obeys closeOnly (some snap) fun _ last => last = none := by
  induction p with
  | done value =>
      intro snap same
      cases same
  | call op next ih =>
      rintro snap ⟨-, onward⟩
      have answered : ∃ answer snap', noteReading (some snap) op answer = some snap' := by
        cases op with
        | now => exact ⟨(0 : Int), snap, rfl⟩
        | sleepSecs _ => exact ⟨(), snap, rfl⟩
        | snapshot _ => exact ⟨.error (.view .equityMissing), snap, rfl⟩
        | place _ => exact ⟨.error (.transport .timeout), snap, rfl⟩
        | getOrder _ => exact ⟨.error (.transport .timeout), snap, rfl⟩
        | openOrders => exact ⟨.ok [], snap, rfl⟩
        | findByTag _ => exact ⟨.ok [], snap, rfl⟩
        | cancelAndSettle _ => exact ⟨.error (.transport .timeout), snap, rfl⟩
      obtain ⟨answer, snap', noted⟩ := answered
      exact ih answer (onward answer (some snap') noted.symm)

theorem Silent.unsent {x : FlattenM α} (silent : Silent x) : Calls (fun op => op.isPlace = false) x := by
  intro s _ _
  have obeys := silent none s none rfl
  generalize x s = p at obeys
  induction p with
  | done => trivial
  | call op next ih =>
      obtain ⟨allowed, onward⟩ := obeys
      constructor
      · cases op with
        | place req =>
            obtain ⟨snap, h, impossible, -⟩ := allowed req rfl
            cases impossible
        | _ => rfl
      · intro answer _ _
        apply ih answer
        have later := onward answer _ rfl
        cases noted : noteReading none op answer with
        | none =>
            rw [noted] at later
            exact later
        | some snap =>
            rw [noted] at later
            exact absurd later reading_kept

def Looks (x : FlattenM α) : Prop := Triple lookFirst (fun _ _ => True) x fun _ _ _ => True

theorem Silent.looks {x : FlattenM α} (silent : Silent x) : Looks x := by
  apply Calls.triple silent.unsent
  intro free op _ unsent
  refine ⟨?_, fun _ _ _ => trivial⟩
  rintro req rfl
  cases unsent

theorem Silent.looked {x : FlattenM α} (silent : Silent x) (free : Option String) :
    Triple lookFirst (fun _ g => g = free) x fun _ _ _ => True :=
  silent.looks.weaken (fun _ _ _ => trivial) fun _ _ _ _ => trivial

theorem Looks.bind {x : FlattenM α} {f : α → FlattenM β} (first : Looks x)
    (second : ∀ a, Looks (f a)) : Looks (x >>= f) := Triple.bind first second

theorem Looks.forM {γ : Type} {f : γ → FlattenM Unit} {items : List γ}
    (each : ∀ item ∈ items, Looks (f item)) : Looks (items.forM f) := Triple.forM each

theorem snapshot_looks (now : Instant) : Looks (Broker.snapshot now) := by
  intro s free _
  exact ⟨fun req sent => (nomatch sent), fun _ _ _ => trivial⟩

theorem findByTag_looks (tag : String) {f : Except BrokerError (List OrderReport) → FlattenM β}
    (free : Triple lookFirst (fun _ g => g = some tag) (f (.ok [])) fun _ _ _ => True)
    (found : ∀ r rs, Looks (f (.ok (r :: rs)))) (failed : ∀ e, Looks (f (.error e))) :
    Looks (Broker.findByTag tag >>= f) := by
  intro s g _
  refine ⟨fun req sent => (nomatch sent), ?_⟩
  rintro answer g' rfl
  match answer with
  | .ok [] => exact free s _ rfl
  | .ok (r :: rs) => exact found r rs s _ trivial
  | .error e => exact failed e s _ trivial

variable [DebugText] {spec : FlattenSpec}

theorem sendLeg_looks (leg : Leg) (req : OrderRequest) (same : req.tag = leg.tag)
    {missing : String → FlattenM Unit}
    (after : ∀ reason, Triple lookFirst (fun _ g => g = some leg.tag) (missing reason) fun _ _ _ => True) :
    Triple lookFirst (fun _ g => g = some leg.tag) (sendLeg spec leg req missing) fun _ _ _ => True := by
  have placed : Triple lookFirst (fun (_ : Flattener) g => g = some leg.tag) (Broker.place req)
      fun _ _ _ => True := by
    rintro s g rfl
    refine ⟨?_, fun _ _ _ => trivial⟩
    rintro req' ⟨⟩
    rw [same]
  have unsent : ∀ code message outcome, Looks (fail code message >>= fun _ => recordUnsent leg outcome) :=
    fun code message outcome =>
      (Silent.bind (Silent.fail code message) fun _ => Silent.modify _).looks
  apply placed.bind
  intro answer
  match answer with
  | .ok (.accepted id _ _ _) => exact (Silent.settleAndRecord spec leg _ _).looks
  | .ok (.validatedOnly _ _ _) => exact unsent _ _ _
  | .ok (.rejected _ _) => exact unsent _ _ _
  | .ok (.unknownOutcome reason _) =>
      apply findByTag_looks
      · exact after reason
      · intro r rs
        exact (Silent.settleAndRecord spec leg _ _).looks
      · intro e
        exact unsent _ _ _
  | .error e => exact unsent _ _ _

variable [UnicodeCase] [Sha256]

theorem freeTagFrom_looks (symbol : String) (side : Side) : ∀ left k,
    Triple lookFirst (fun _ _ => True) (freeTagFrom spec symbol side k left)
      fun found _ g => ∀ tag, found = some tag → g = some tag := by
  have none : ∀ code message, Triple lookFirst (fun _ _ => True)
      (fail code message >>= fun _ => (pure none : FlattenM (Option String)))
      fun found _ g => ∀ tag, found = some tag → g = some tag :=
    fun code message s g _ tag found => by cases found
  intro left
  induction left with
  | zero =>
      intro k
      exact none _ _
  | succ left ih =>
      intro k s g _
      unfold freeTagFrom
      refine ⟨fun req sent => (by cases sent), ?_⟩
      rintro answer g' rfl
      cases answer with
      | error e => exact none _ _ s _ trivial
      | ok found =>
          cases found with
          | nil =>
              rintro tag ⟨⟩
              rfl
          | cons r rs => exact ih (k + 1) s _ trivial

theorem placeLeg_looks (symbol : String) (side : Side) (qty price : Dec) :
    Looks (placeLeg spec symbol side qty price) := by
  apply Triple.bind (freeTagFrom_looks symbol side _ _)
  intro found
  cases found with
  | none => exact fun _ _ _ => trivial
  | some tag =>
      let leg : Leg := ⟨tag, symbol, side, qty⟩
      let req := { OrderRequest.market tag symbol side qty with referencePrice := some price }
      apply Triple.weaken _ (fun _ _ free => free tag rfl) fun _ _ _ final => final
      apply sendLeg_looks leg req rfl
      intro _
      apply sendLeg_looks leg req rfl
      intro reason
      exact (Silent.bind (Silent.fail _ _) fun _ => Silent.modify _).looked _

theorem cover_looks (venue symbol : String) (qty price : Dec) :
    Looks (cover spec venue symbol qty price) := by
  apply (Silent.modify _).looks.bind
  intro _
  apply Silent.get.looks.bind
  intro f
  dsimp only
  split
  · exact (Silent.fail _ _).looks
  · split
    · split
      · exact placeLeg_looks _ _ _ _
      · exact (Silent.fail _ _).looks
    · exact placeLeg_looks _ _ _ _

variable (spec : FlattenSpec) (venue : String)

theorem trade_looks (plan : SellPlan) : Looks (trade spec venue plan) := by
  apply Looks.bind
  · exact Looks.forM fun c _ => cover_looks _ _ _ _
  · intro _
    exact Looks.forM fun c _ => placeLeg_looks _ _ _ _

theorem runRounds_looks : ∀ left at_, Looks (runRounds spec venue at_ left) := by
  intro left
  induction left with
  | zero =>
      intro at_
      exact (Silent.pure at_).looks
  | succ left ih =>
      intro at_
      apply (Silent.cancelOwnOpenOrders spec).looks.bind
      intro listed
      split
      · exact (Silent.pure _).looks
      · apply Silent.now.looks.bind
        intro now
        apply (snapshot_looks now).bind
        intro answer
        cases answer with
        | error e => exact (Silent.bind (Silent.fail _ _) fun _ => Silent.pure _).looks
        | ok snap =>
            dsimp only
            split
            · exact (Silent.pure _).looks
            · exact (trade_looks spec venue _).bind fun _ => ih _

theorem flatten_looks (free : Option String) : (flatten spec venue).Obeys lookFirst free fun _ _ => True := by
  have verified : ∀ at_, Looks (verify spec venue at_) := by
    intro at_
    apply Silent.now.looks.bind
    intro now
    apply (snapshot_looks now).bind
    intro answer
    cases answer with
    | error e => exact (Silent.bind (Silent.fail _ _) fun _ => Silent.pure _).looks
    | ok snap => exact (verifyWith_silent spec venue snap).looks
  have whole : Looks (flattenCall spec venue) := by
    apply Silent.now.looks.bind
    intro startedAt
    apply (runRounds_looks spec venue _ _).bind
    intro done
    apply (verified done).bind
    intro checked
    apply Silent.now.looks.bind
    intro finishedAt
    exact (Silent.bind Silent.get fun _ => Silent.pure _).looks
  apply Prog.Obeys.bind
  exact (whole Flattener.new free trivial).mono fun _ _ _ => trivial

end Flatten

/-! ## The whole run -/

/-- A tag found free counts only after the attempt has begun. -/
def noteRunLookup (free : Option String) : (op : RunOp) → op.Answer → Option String
  | .broker op, answer => noteLookup free op answer
  | .begin _ _ _ _, _ => none
  | _, _ => free

def runLooksFirst : Law Asked Asked.Answer (Option String) :=
  Law.logged (fun free asked => ∀ op, asked.op = .broker op → mayPlace free op)
    fun free made => noteRunLookup free made.1.op made.2

def Asked.unsent (asked : Asked) : Prop := ∀ req, asked.op ≠ .broker (.place req)

theorem Asked.quiet.unsent {asked : Asked} (quiet : asked.quiet) : asked.unsent := by
  intro req sends
  simp [Asked.quiet, sends, RunOp.quiet] at quiet

namespace Run

variable {α β : Type}

def RunLooks (x : RunM α) : Prop := Triple runLooksFirst (fun _ _ => True) x fun _ _ _ => True

def StepLooks (x : StepM α) : Prop :=
  Stepwise runLooksFirst (fun _ _ => True) x (fun _ _ => True) fun _ _ _ => True

theorem unsent_looks (free : Option String) (asked : Asked) (_ : True) (unsent : asked.unsent) :
    runLooksFirst.allowed free asked ∧
      ∀ answer free', runLooksFirst.next free asked answer free' → True := by
  refine ⟨?_, fun _ _ _ => trivial⟩
  rintro op same req rfl
  exact absurd same (unsent req)

theorem quiet_looks (free : Option String) (asked : Asked) (ok : True) (quiet : asked.quiet) :
    runLooksFirst.allowed free asked ∧
      ∀ answer free', runLooksFirst.next free asked answer free' → True :=
  unsent_looks free asked ok quiet.unsent

theorem Quiet.looks {x : RunM α} (quiet : Quiet x) : RunLooks x := Quiet.triple quiet quiet_looks

theorem QuietStep.looks {x : StepM α} (quiet : QuietStep x) : StepLooks x :=
  QuietStep.stepwise quiet quiet_looks

theorem modify_looks {f : Run → Run} : RunLooks (modifyGet fun run => ((), f run) : RunM Unit) :=
  Calls.triple Calls.modify quiet_looks

theorem modifyRec_looks (f : RunRecord → RunRecord) : RunLooks (modifyRec f) := modify_looks

theorem RunLooks.bind {x : RunM α} {f : α → RunM β} (first : RunLooks x)
    (second : ∀ a, RunLooks (f a)) : RunLooks (x >>= f) := Triple.bind first second

theorem StepLooks.bind {x : StepM α} {f : α → StepM β} (first : StepLooks x)
    (second : ∀ a, StepLooks (f a)) : StepLooks (x >>= f) := Stepwise.bind first second

theorem RunLooks.lift {x : RunM α} (looks : RunLooks x) : StepLooks (liftM x : StepM α) :=
  Stepwise.lift looks

theorem StepLooks.run {x : StepM α} (looks : StepLooks x) : RunLooks x.run := by
  unfold StepLooks Stepwise at looks
  exact looks.weaken (fun _ _ start => start) fun _ _ _ _ => trivial

theorem endWith_looks {last : RunM Unit} (looks : RunLooks last) : StepLooks (endWith last : StepM α) :=
  looks.lift.bind fun _ => QuietStep.looks QuietStep.failure

theorem askFor_looks {op : RunOp} (unsent : ∀ req, op ≠ .broker (.place req)) : RunLooks (askFor op) := by
  intro run free _
  exact unsent_looks free ⟨run, op⟩ trivial unsent

theorem brokerProg_looks (run : Run) {p : Prog BrokerOp BrokerOp.Answer α} : ∀ {free : Option String},
    p.Obeys lookFirst free (fun _ _ => True) → (brokerProg run p).Obeys runLooksFirst free fun _ _ => True := by
  induction p with
  | done value =>
      intro free _
      trivial
  | call op next ih =>
      rintro free ⟨allowed, onward⟩
      constructor
      · rintro op' ⟨⟩
        exact allowed
      · intro answer free' logged
        exact ih answer (onward answer free' logged)

theorem viaBroker_looks {p : Prog BrokerOp BrokerOp.Answer α}
    (looks : ∀ free, p.Obeys lookFirst free fun _ _ => True) : RunLooks (viaBroker p) :=
  fun run free _ => brokerProg_looks run (looks free)

variable {ctx : RunContext}

section Orders

variable [DebugText]

theorem pollPlaced_looks (id : String) (left : Nat) : ∀ placed, RunLooks (pollPlaced ctx id left placed) := by
  induction left with
  | zero => exact fun _ _ _ _ => trivial
  | succ left ih =>
      intro placed
      apply RunLooks.bind (askFor_looks (by simp))
      intro answer
      match answer with
      | .error e => exact fun _ _ _ => trivial
      | .ok r =>
          dsimp only
          split
          · exact fun _ _ _ => trivial
          · split
            · exact ih _
            · exact RunLooks.bind (askFor_looks (by simp)) fun _ => ih _

theorem settleInto_looks (placed : PlacedOrder) (id : String) : RunLooks (settleInto ctx placed id) := by
  apply RunLooks.bind modify_looks
  intro _
  apply RunLooks.bind (pollPlaced_looks id _ _)
  intro r
  match r with
  | (placed, true) => exact fun _ _ _ => trivial
  | (placed, false) =>
      apply RunLooks.bind (askFor_looks (by simp))
      intro answer
      match answer with
      | .ok (outcome, r) => exact fun _ _ _ => trivial
      | .error e => exact fun _ _ _ => trivial

theorem adopt_looks (placed : PlacedOrder) (first : OrderReport) : RunLooks (adopt ctx placed first) := by
  apply RunLooks.bind (askFor_looks (by simp))
  intro answer
  match answer with
  | .ok () => exact settleInto_looks _ _
  | .error e => exact settleInto_looks _ _

variable (o : PlannedOrder) (phase : Phase)

theorem accepted_looks (id : String) : RunLooks (accepted ctx o phase id) := by
  unfold accepted
  split
  · exact settleInto_looks _ _
  · apply RunLooks.bind (askFor_looks (by simp))
    intro answer
    match answer with
    | .ok () => exact settleInto_looks _ _
    | .error e => exact settleInto_looks _ _

theorem lookUpUnknown_looks (reason : String) : RunLooks (lookUpUnknown ctx o phase reason) := by
  apply RunLooks.bind (askFor_looks (by simp))
  intro answer
  match answer with
  | .ok (first :: others) => exact RunLooks.bind (adopt_looks _ _) fun _ _ _ _ => trivial
  | .ok [] => exact fun _ _ _ => trivial
  | .error e => exact fun _ _ _ => trivial

theorem sendOrder_looks :
    Triple runLooksFirst (fun _ free => free = some o.tag) (sendOrder ctx o phase) fun _ _ _ => True := by
  have placed : Triple runLooksFirst (fun (_ : Run) free => free = some o.tag)
      (place (requestFor o (phase = .rehearsal))) fun _ _ _ => True := by
    rintro run free rfl
    refine ⟨?_, fun _ _ _ => trivial⟩
    rintro op ⟨⟩ req ⟨⟩
    rfl
  apply placed.bind
  intro answer
  match answer with
  | .ok (.accepted id _ _ _) => exact accepted_looks _ _ _
  | .ok (.validatedOnly _ _ _) => exact fun _ _ _ => trivial
  | .ok (.rejected _ _) => exact fun _ _ _ => trivial
  | .ok (.unknownOutcome reason _) => exact lookUpUnknown_looks _ _ _
  | .error e => exact fun _ _ _ => trivial

theorem journalAndSend_looks :
    Triple runLooksFirst (fun _ free => free = some o.tag) (journalAndSend ctx o phase)
      fun _ _ _ => True := by
  unfold journalAndSend
  split
  · exact sendOrder_looks o phase
  · have journaled : Triple runLooksFirst (fun (_ : Run) free => free = some o.tag)
        (journalOrder ctx.key ⟨o.tag, none, o.notional⟩) fun _ _ free => free = some o.tag := by
      rintro run free rfl
      refine ⟨fun op same => (nomatch same), ?_⟩
      rintro answer free' rfl
      rfl
    apply journaled.bind
    intro answer
    match answer with
    | .ok () => exact sendOrder_looks o phase
    | .error e => exact fun _ _ _ => trivial

theorem executeOrder_looks : RunLooks (executeOrder ctx o phase) := by
  apply RunLooks.bind (Quiet.looks Quiet.get)
  intro run
  split
  · exact fun _ _ _ => trivial
  · split
    · exact fun _ _ _ => trivial
    · intro run free _
      refine ⟨fun op same req sent => ?_, ?_⟩
      · subst sent
        cases same
      · rintro answer free' rfl
        match answer with
        | .error e => trivial
        | .ok (first :: others) => exact adopt_looks _ _ _ _ trivial
        | .ok [] => exact journalAndSend_looks o phase run _ rfl

theorem executeAll_looks (orders : List PlannedOrder) : RunLooks (executeAll ctx phase orders) := by
  apply Triple.forM
  intro o _
  exact RunLooks.bind (executeOrder_looks o phase) fun _ => modifyRec_looks _

end Orders

section Whole

variable [InstantText] [UnicodeCase] [DebugText] [DateText] [Sha256] [FloatFloor]

omit [DateText] [FloatFloor] in
theorem stepExecute_looks (targets : List SleeveTarget) (plan : OrderPlan) :
    StepLooks (stepExecute ctx targets plan) := by
  unfold stepExecute
  cases ctx.mode with
  | assisted => exact (writeTickets_quiet plan).looks.lift
  | paper =>
      apply (executeAll_looks _ _).lift.bind
      intro _
      exact (note_quiet _ _).looks.lift
  | live =>
      apply (executeAll_looks _ _).lift.bind
      intro _
      split
      · exact (note_quiet _ _).looks.lift
      · apply (readSnapshot_quiet ctx _).looks.bind
        intro snap
        apply (dayCounters_quiet ctx).looks.bind
        intro day
        apply (planWith_quiet ctx _ _ _ _).looks.bind
        intro replan
        apply (modifyRec_looks _).lift.bind
        intro _
        apply (note_quiet _ _).looks.lift.bind
        intro _
        exact (executeAll_looks _ _).lift

omit [DateText] [FloatFloor] in
theorem finishFlatten_looks (why : String) : RunLooks (finishFlatten ctx why) := by
  apply RunLooks.bind (Quiet.looks Quiet.get)
  intro run
  cases run.state.halt with
  | none => exact fun _ _ _ => trivial
  | some halt =>
      apply RunLooks.bind (viaBroker_looks (flatten_looks _ _))
      intro report
      apply RunLooks.bind (note_quiet _ _).looks
      intro _
      apply RunLooks.bind modify_looks
      intro _
      apply RunLooks.bind (Quiet.looks Quiet.get)
      intro run
      apply RunLooks.bind (modifyRec_looks _)
      intro _
      apply RunLooks.bind (saveState_quiet ctx _).looks.run
      intro saved
      cases saved with
      | none => exact fun _ _ _ => trivial
      | some _ =>
          dsimp only
          split
          · exact fun _ _ _ => trivial
          · exact (alert_quiet ctx _ _ _ _).looks

omit [DateText] [FloatFloor] in
theorem stepHaltedCheck_looks : StepLooks (stepHaltedCheck ctx) := by
  by_cases live : ctx.mode = .live
  · apply StepLooks.bind (QuietStep.looks QuietStep.get)
    intro run
    cases run.state.status with
    | active => exact fun _ _ _ => trivial
    | shrunk => exact fun _ _ _ => trivial
    | halted =>
        apply endWith_looks
        apply (note_quiet _ _).looks.bind
        intro _
        apply (alert_quiet ctx _ _ _ _).looks.bind
        intro _
        exact (setOutcome_quiet _ _ _).looks
    | flattening =>
        apply endWith_looks
        apply (note_quiet _ _).looks.bind
        intro _
        rw [if_pos live]
        apply (finishFlatten_looks _).bind
        intro _
        apply RunLooks.bind (Quiet.looks Quiet.get)
        intro run
        exact (setOutcome_quiet _ _ _).looks
  · exact (stepHaltedCheck_quiet ctx live).looks

omit [InstantText] [UnicodeCase] [DateText] [FloatFloor] [Sha256] in
theorem cancelStale_looks (known : Std.ExtTreeSet String) : RunLooks (cancelStale ctx known) := by
  have looks : ∀ free, Prog.Obeys lookFirst
      ((cancelOwnOpenOrders (cleanupSpec ctx known)).run Flattener.new) free fun _ _ => True :=
    fun free => (Silent.cancelOwnOpenOrders _).looks Flattener.new free trivial
  exact RunLooks.bind (viaBroker_looks looks) fun _ _ _ _ => trivial

omit [DateText] [FloatFloor] [Sha256] in
theorem stepCleanup_looks : StepLooks (stepCleanup ctx) := by
  by_cases live : ctx.mode = .live
  · unfold stepCleanup
    rw [if_neg (by simp [live])]
    apply StepLooks.bind (QuietStep.looks QuietStep.get)
    intro run
    dsimp only
    split
    · exact (note_quiet _ _).looks.lift
    · apply (cancelStale_looks _).lift.bind
      intro f
      apply (modifyRec_looks _).lift.bind
      intro _
      apply (note_quiet _ _).looks.lift.bind
      intro _
      split
      · exact (failRun_quiet ctx _ _).looks
      · apply (readSnapshot_quiet ctx _).looks.bind
        intro snap
        exact StepCalls.stepwise StepCalls.modify quiet_looks
  · exact (stepCleanup_quiet ctx live).looks

omit [FloatFloor] in
theorem stepRisk_looks : StepLooks (stepRisk ctx) := by
  by_cases live : ctx.mode = .live
  · apply StepLooks.bind (QuietStep.looks QuietStep.get)
    intro run
    apply (held_quiet _).looks.bind
    intro snap
    apply (held_quiet _).looks.bind
    intro riskPolicy
    dsimp only
    apply (note_quiet _ _).looks.lift.bind
    intro _
    apply (modifyRec_looks _).lift.bind
    intro _
    apply (modifyRec_looks _).lift.bind
    intro _
    apply (saveState_quiet ctx _).looks.bind
    intro _
    split
    · exact (pauseBuys_quiet ctx _ _).looks.lift
    · apply (alert_quiet ctx _ _ _ _).looks.lift.bind
      intro _
      apply endWith_looks
      apply (finishFlatten_looks _).bind
      intro _
      exact (setOutcome_quiet _ _ _).looks
  · exact (stepRisk_quiet ctx live).looks

/-- A run looks before it sends, whatever it is answered. -/
theorem runOnce_looks (free : Option String) :
    (runOnce ctx).Obeys runLooksFirst free fun _ _ => True := by
  apply runOnce_around quiet_looks _ trivial
  apply execute_around quiet_looks
  · exact stepHaltedCheck_looks
  · exact stepCleanup_looks
  · exact stepRisk_looks
  · exact stepExecute_looks

end Whole

end Run

/-! ## Attempts that take turns -/

/-- The broker's orders by tag, the store, and the attempt that was started last. -/
structure Desk where
  tags : List String
  store : RunStore
  newest : Option Nat

/-- What is left open in an answer: any call may fail, and an order whose outcome is
    unknown may exist. -/
structure Choice where
  answer : (asked : Asked) → asked.Answer
  created : Bool

def creates (created : Bool) : Except BrokerError PlaceOutcome → Bool
  | .ok (.accepted _ _ _ _) => true
  | .ok (.validatedOnly _ _ _) | .ok (.rejected _ _) => false
  | .ok (.unknownOutcome _ _) | .error _ => created

def isStarted : Except RunStoreError Begin → Bool
  | .ok (.started _) => true
  | _ => false

namespace Desk

def viaStore {α : Type} (desk : Desk) (chosen : Except RunStoreError α)
    (call : RunStore → RunStore × Except RunStoreError α) : Except RunStoreError α × Desk :=
  match chosen with
  | .error e => (.error e, desk)
  | .ok _ => ((call desk.store).2, { desk with store := (call desk.store).1 })

def lookUp (desk : Desk) (tag : String) :
    Except BrokerError (List OrderReport) → Option (Except BrokerError (List OrderReport) × Desk)
  | .error e => some (.error e, desk)
  | .ok reports =>
      if reports.map OrderReport.tag = (desk.tags.filter fun t => t == tag).map some then
        some (.ok reports, desk)
      else none

def send (desk : Desk) (req : OrderRequest) (created : Bool) (answer : Except BrokerError PlaceOutcome) :
    Desk :=
  if creates created answer then { desk with tags := desk.tags ++ [req.tag] } else desk

def beginBy [InstantText] (desk : Desk) (who : Nat) (chosen : Except RunStoreError Begin)
    (key : RunKey) (day : RebalancerRisk.NaiveDate) (startedAt : Instant) (leaseSecs : Int) :
    Except RunStoreError Begin × Desk :=
  let (answer, desk) := desk.viaStore chosen fun store => store.begin key day startedAt leaseSecs
  (answer, if isStarted answer then { desk with newest := some who } else desk)

def reply [InstantText] (desk : Desk) (who : Nat) (choice : Choice) :
    (asked : Asked) → Option (asked.Answer × Desk)
  | ⟨run, .broker (.findByTag tag)⟩ => desk.lookUp tag (choice.answer ⟨run, .broker (.findByTag tag)⟩)
  | ⟨run, .broker (.place req)⟩ =>
      let answer := choice.answer ⟨run, .broker (.place req)⟩
      some (answer, desk.send req choice.created answer)
  | ⟨run, .begin key day startedAt lease⟩ =>
      some (desk.beginBy who (choice.answer ⟨run, .begin key day startedAt lease⟩) key day startedAt lease)
  | ⟨run, .journalOrder key entry⟩ =>
      some (desk.viaStore (choice.answer ⟨run, .journalOrder key entry⟩) fun s => s.journalOrder key entry)
  | ⟨run, .finish record⟩ =>
      some (desk.viaStore (choice.answer ⟨run, .finish record⟩) fun s => s.finish record)
  | ⟨run, .inFlight id⟩ => some (desk.viaStore (choice.answer ⟨run, .inFlight id⟩) fun s => s.inFlight id)
  | ⟨run, .lastSnapshot id⟩ =>
      some (desk.viaStore (choice.answer ⟨run, .lastSnapshot id⟩) fun s => s.lastSnapshot id)
  | ⟨run, .knownOrderIds id⟩ =>
      some (desk.viaStore (choice.answer ⟨run, .knownOrderIds id⟩) fun s => s.knownOrderIds id)
  | ⟨run, .dayCounters id day⟩ =>
      some (desk.viaStore (choice.answer ⟨run, .dayCounters id day⟩) fun s => s.dayCounters id day)
  | ⟨run, .lastActedDecision id sleeve⟩ =>
      some (desk.viaStore (choice.answer ⟨run, .lastActedDecision id sleeve⟩)
        fun s => s.lastActedDecision id sleeve)
  | ⟨run, op⟩ => some (choice.answer ⟨run, op⟩, desk)

end Desk

section Replies

variable {desk desk' : Desk}

theorem Desk.viaStore_kept {α : Type} {chosen answer : Except RunStoreError α}
    {call : RunStore → RunStore × Except RunStoreError α}
    (replied : desk.viaStore chosen call = (answer, desk')) :
    desk'.tags = desk.tags ∧ desk'.newest = desk.newest := by
  cases chosen with
  | error e =>
      cases replied
      exact ⟨rfl, rfl⟩
  | ok _ =>
      cases replied
      exact ⟨rfl, rfl⟩

/-- Nothing is found only when there is nothing. -/
theorem Desk.lookUp_cases {tag : String} {chosen answer : Except BrokerError (List OrderReport)}
    (replied : desk.lookUp tag chosen = some (answer, desk')) :
    desk' = desk ∧ (answer = .ok [] → tag ∉ desk.tags) := by
  cases chosen with
  | error e =>
      cases replied
      exact ⟨rfl, by simp⟩
  | ok reports =>
      dsimp only [Desk.lookUp] at replied
      split at replied
      next all =>
          cases replied
          refine ⟨rfl, ?_⟩
          rintro ⟨⟩ member
          have found : some tag ∈ (desk.tags.filter fun t => t == tag).map some := by simp [member]
          rw [← all] at found
          cases found
      next => cases replied

theorem Desk.send_cases (desk : Desk) (req : OrderRequest) (created : Bool) (answer : Except BrokerError PlaceOutcome) :
    (desk.send req created answer).newest = desk.newest ∧
      ((desk.send req created answer).tags = desk.tags ∨
        (desk.send req created answer).tags = desk.tags ++ [req.tag]) := by
  unfold Desk.send
  split
  · exact ⟨rfl, .inr rfl⟩
  · exact ⟨rfl, .inl rfl⟩

theorem Desk.beginBy_cases [InstantText] {who : Nat} {chosen answer : Except RunStoreError Begin}
    {key : RunKey} {day : RebalancerRisk.NaiveDate} {startedAt : Instant} {lease : Int}
    (replied : desk.beginBy who chosen key day startedAt lease = (answer, desk')) :
    desk'.tags = desk.tags ∧ (desk'.newest = desk.newest ∨ desk'.newest = some who) := by
  unfold Desk.beginBy at replied
  cases stored : desk.viaStore chosen fun store => store.begin key day startedAt lease with
  | mk answer' after =>
      obtain ⟨tags, newest⟩ := Desk.viaStore_kept stored
      rw [stored] at replied
      cases replied
      split
      · exact ⟨tags, .inr rfl⟩
      · exact ⟨tags, .inl newest⟩

/-- What an answer can do to the desk, and to the log of the attempt that gets it. -/
theorem Desk.reply_cases [InstantText] {who : Nat} {choice : Choice} {asked : Asked}
    {answer : asked.Answer} (replied : desk.reply who choice asked = some (answer, desk')) :
    (∃ req, asked.op = .broker (.place req) ∧ desk'.newest = desk.newest ∧
      (∀ free, noteRunLookup free asked.op answer = none) ∧
      (desk'.tags = desk.tags ∨ desk'.tags = desk.tags ++ [req.tag])) ∨
    (desk'.tags = desk.tags ∧ desk'.newest = some who ∧
      ∀ free, noteRunLookup free asked.op answer = none) ∨
    (desk'.tags = desk.tags ∧ desk'.newest = desk.newest ∧ ∀ free tag,
      noteRunLookup free asked.op answer = some tag → free = some tag ∨ tag ∉ desk.tags) := by
  obtain ⟨run, op⟩ := asked
  have untouched : desk'.tags = desk.tags ∧ desk'.newest = desk.newest →
      (∀ free, noteRunLookup free op answer = free) →
      desk'.tags = desk.tags ∧ desk'.newest = desk.newest ∧ ∀ free tag,
        noteRunLookup free op answer = some tag → free = some tag ∨ tag ∉ desk.tags :=
    fun kept unlogged => ⟨kept.1, kept.2, fun free tag noted => .inl ((unlogged free).symm.trans noted)⟩
  have viaStore : ∀ {α : Type} {chosen answer : Except RunStoreError α}
      {call : RunStore → RunStore × Except RunStoreError α},
      some (desk.viaStore chosen call) = some (answer, desk') →
      desk'.tags = desk.tags ∧ desk'.newest = desk.newest :=
    fun replied => Desk.viaStore_kept (Option.some.inj replied)
  have same : ∀ {answer' : RunOp.Answer op}, some (answer', desk) = some (answer, desk') →
      desk'.tags = desk.tags ∧ desk'.newest = desk.newest := by
    rintro answer' ⟨⟩
    exact ⟨rfl, rfl⟩
  cases op with
  | broker op =>
      cases op with
      | place req =>
          left
          cases replied
          obtain ⟨newest, tags⟩ := desk.send_cases req choice.created
            (choice.answer ⟨run, .broker (.place req)⟩)
          exact ⟨req, rfl, newest, fun _ => rfl, tags⟩
      | findByTag tag =>
          right; right
          obtain ⟨rfl, none⟩ := Desk.lookUp_cases replied
          refine ⟨rfl, rfl, ?_⟩
          intro free tag' noted
          match answer with
          | .ok [] =>
              cases noted
              exact .inr (none rfl)
          | .ok (_ :: _) => cases noted
          | .error _ => cases noted
      | now => exact .inr (.inr (untouched (same replied) fun _ => rfl))
      | sleepSecs => exact .inr (.inr (untouched (same replied) fun _ => rfl))
      | snapshot => exact .inr (.inr (untouched (same replied) fun _ => rfl))
      | getOrder => exact .inr (.inr (untouched (same replied) fun _ => rfl))
      | openOrders => exact .inr (.inr (untouched (same replied) fun _ => rfl))
      | cancelAndSettle => exact .inr (.inr (untouched (same replied) fun _ => rfl))
  | begin key day startedAt lease =>
      right
      obtain ⟨tags, newest | newest⟩ := Desk.beginBy_cases (Option.some.inj replied)
      · exact .inr ⟨tags, newest, fun _ _ noted => nomatch noted⟩
      · exact .inl ⟨tags, newest, fun _ => rfl⟩
  | journalOrder => exact .inr (.inr (untouched (viaStore replied) fun _ => rfl))
  | finish => exact .inr (.inr (untouched (viaStore replied) fun _ => rfl))
  | inFlight => exact .inr (.inr (untouched (viaStore replied) fun _ => rfl))
  | lastSnapshot => exact .inr (.inr (untouched (viaStore replied) fun _ => rfl))
  | knownOrderIds => exact .inr (.inr (untouched (viaStore replied) fun _ => rfl))
  | dayCounters => exact .inr (.inr (untouched (viaStore replied) fun _ => rfl))
  | lastActedDecision => exact .inr (.inr (untouched (viaStore replied) fun _ => rfl))
  | _ => exact .inr (.inr (untouched (same replied) fun _ => rfl))

end Replies

section Attempts

variable [InstantText] [UnicodeCase] [DebugText] [DateText] [Sha256] [FloatFloor]

def attempts (key : RunKey) :
    Shared Asked Asked.Answer Desk Choice { ctx : RunContext // ctx.key = key } RunRecord where
  start ctx := runOnce ctx.val
  reply := Desk.reply

/-- An order is sent only by the attempt that was started last. -/
def NewestSends (desk : Desk) (who : Nat) (asked : Asked) : Prop :=
  asked.op.isPlace = true → desk.newest = some who

instance (desk : Desk) (who : Nat) (asked : Asked) : Decidable (NewestSends desk who asked) :=
  inferInstanceAs (Decidable (_ → _))

def noAttempt : Pool Asked Asked.Answer Desk RunRecord := ⟨[], ⟨[], RunStore.new, none⟩⟩

/-- No two orders under one tag, and none under the tag that the newest attempt found
    free. -/
def OncePerTag (logs : Nat → Option String) (desk : Desk) : Prop :=
  desk.tags.Nodup ∧ ∀ who tag, desk.newest = some who → logs who = some tag → tag ∉ desk.tags

theorem oncePerTag_invariant (key : RunKey) :
    (attempts key).Invariant runLooksFirst NewestSends OncePerTag where
  start := by
    rintro logs desk who ctx ⟨once, unused⟩
    refine ⟨none, Run.runOnce_looks none, once, ?_⟩
    intro newest tag last free
    by_cases same : newest = who
    · rw [same, Function.update_self] at free
      cases free
    · rw [Function.update_of_ne same] at free
      exact unused newest tag last free
  reply := by
    rintro logs desk who choice asked answer desk' ⟨once, unused⟩ allowed newestSends replied
    refine ⟨_, rfl, ?_⟩
    obtain ⟨req, sends, newest, spent, kept | created⟩ | ⟨kept, newest, spent⟩ | ⟨kept, newest, noted⟩ :=
      Desk.reply_cases replied
    · refine ⟨by rwa [kept], ?_⟩
      intro n tag last free
      rw [kept]
      by_cases same : n = who
      · rw [same, Function.update_self] at free
        exact absurd (free.symm.trans (spent _)) (by simp)
      · rw [Function.update_of_ne same] at free
        exact unused n tag (newest ▸ last) free
    · -- The tag was free when it was looked up, and nobody else has sent since.
      have looked : logs who = some req.tag := allowed _ sends req rfl
      have mine : desk.newest = some who := newestSends (by simp [sends, RunOp.isPlace])
      have fresh : req.tag ∉ desk.tags := unused who req.tag mine looked
      constructor
      · rw [created]
        exact List.Nodup.append once (List.nodup_singleton _) (by simpa using fresh)
      · intro n tag last free
        obtain rfl : who = n := Option.some.inj (mine.symm.trans (newest ▸ last))
        rw [Function.update_self] at free
        exact absurd (free.symm.trans (spent _)) (by simp)
    · refine ⟨by rwa [kept], ?_⟩
      intro n tag last free
      obtain rfl : who = n := Option.some.inj (newest.symm.trans last)
      rw [Function.update_self] at free
      exact absurd (free.symm.trans (spent _)) (by simp)
    · refine ⟨by rwa [kept], ?_⟩
      intro n tag last free
      rw [kept]
      rw [newest] at last
      by_cases same : n = who
      · rw [same, Function.update_self] at free
        obtain before | unseen := noted _ tag free
        · exact unused n tag last (same ▸ before)
        · exact unseen
      · rw [Function.update_of_ne same] at free
        exact unused n tag last free

/-- As long as each order is sent by the attempt that was started last, the broker never
    has two orders under one tag. -/
theorem newest_attempt_sends_once (key : RunKey)
    (turns : List (Turn Choice { ctx : RunContext // ctx.key = key }))
    (guarded : Runs.Guarded (attempts key).step (Shared.under NewestSends) noAttempt turns) :
    Runs.Visits (attempts key).step (fun p => p.world.tags.Nodup) noAttempt turns := by
  have lawful : Shared.Lawful runLooksFirst OncePerTag noAttempt := by
    refine ⟨fun _ => none, ?_, by simp [noAttempt], ?_⟩
    · intro who prog found
      cases found
    · intro who tag last
      cases last
  apply ((oncePerTag_invariant key).run lawful guarded).mono
  rintro p ⟨logs, -, once, -⟩
  exact once

end Attempts

section Sample

open RebalancerCore (PricePoint)
open RebalancerCore.Amount (cents)

/-- One second after the lease of an attempt that started at the epoch. -/
private def afterLease : Instant := 601000000000

@[reducible] private def leaseText : InstantText where
  display t :=
    if t = 0 then "1970-01-01 00:00:00 UTC"
    else if t = afterLease then "1970-01-01 00:10:01 UTC"
    else "1971-01-01 00:00:00 UTC"
  rfc3339 t :=
    if t = 0 then "1970-01-01T00:00:00+00:00"
    else if t = afterLease then "1970-01-01T00:10:01+00:00"
    else "1971-01-01T00:00:00+00:00"
  compact t :=
    if t = 0 then "19700101T000000Z"
    else if t = afterLease then "19700101T001001Z"
    else "19710101T000000Z"

attribute [local instance] asciiCase leaseText Fund.planHash Fund.dayText Fund.plainQuotes Fund.sameFloat

/-- The fund at `t`: nothing is found under its tag, and its buy is accepted. -/
private def answersAt (t : Instant) : (asked : Asked) → asked.Answer
  | ⟨_, .broker .now⟩ => t
  | ⟨_, .broker (.snapshot _)⟩ => .ok { Fund.inCash with takenAt := t }
  | ⟨_, .broker (.place req)⟩ =>
      .ok (.accepted "id1" none ⟨req.symbol, req.side, req.quantity, none, 0, false⟩ [])
  | ⟨_, .prices _ _⟩ => .ok ((∅ : Std.ExtTreeMap String PricePoint).insert "BTC/USD" ⟨cents 10000, t⟩)
  | ⟨_, op⟩ => Fund.calm op

private abbrev FundTurn := Turn Choice { ctx : RunContext // ctx.key = (Fund.context .live).key }

private def begun : FundTurn := .start ⟨Fund.context .live, rfl⟩

/-- `n` turns of an attempt whose clock shows `t`. -/
private def turnsOf (who n : Nat) (t : Instant) : List FundTurn :=
  List.replicate n (.answer who ⟨answersAt t, false⟩)

/-- The first attempt has found the tag free when its lease runs out; the second attempt
    finds it free as well, and both send their buy. -/
theorem slow_attempt_sends_twice :
    ¬ Runs.Visits (attempts (Fund.context .live).key).step (fun p => p.world.tags.Nodup) noAttempt
      (begun :: turnsOf 0 35 0 ++ begun :: turnsOf 1 37 afterLease ++ turnsOf 0 2 0) := by
  intro visits
  have last := Runs.visits_iff_take.1 visits 76
  revert last
  decide +kernel

/-- The first attempt crashes before it sends; the second one sends. -/
theorem second_attempt_sends :
    let turns := begun :: turnsOf 0 35 0 ++ begun :: turnsOf 1 37 afterLease
    (Runs.run (attempts (Fund.context .live).key).step noAttempt turns).world.tags.length = 1 ∧
      Runs.Visits (attempts (Fund.context .live).key).step (fun p => p.world.tags.Nodup) noAttempt
        turns := by
  refine ⟨by decide +kernel, ?_⟩
  apply newest_attempt_sends_once
  decide +kernel

end Sample

end RebalancerRun
