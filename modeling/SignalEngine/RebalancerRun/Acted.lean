import SignalEngine.RebalancerRun.PipelineCalls

/-! # Decisions counted as acted

A live run counts its decisions as acted when no order of its plans fell short.
The sells are judged by the first plan and the buys by the second, so a decision
is carried out as counted exactly when what the second plan would sell, the first
plan had sold.
-/

open BrokerAdapters Interaction Text

namespace RebalancerRun

open RebalancerCore (InstantText Sha256 PlannedOrder SkippedTrade SleeveTarget OrderPlan)

def PlanSummary.wanted (plan : PlanSummary) : List PlannedOrder :=
  plan.orders ++ plan.denied.map DeniedSummary.order

def PlanSummary.Wants (plan : PlanSummary) (symbol : String) (side : Side) : Prop :=
  ∃ o ∈ plan.wanted, o.symbol = symbol ∧ o.side = side

def PlanSummary.Accepts (plan : PlanSummary) (symbol : String) (side : Side) : Prop :=
  ∃ o ∈ plan.orders, o.symbol = symbol ∧ o.side = side

namespace RunRecord

section Decisions

variable [UnicodeCase] [DebugText]

def Names (record : RunRecord) (d : SleeveDecision) (symbol : String) : Prop :=
  ∃ t ∈ record.targets, t.sleeve = d.sleeve ∧
    ∃ w ∈ t.weights, upperName w.1 = symbol

/-- An order went to the venue, and the venue took it and acted on it. -/
def CarriedOut (record : RunRecord) (symbol : String) (side : Side) : Prop :=
  ∃ p ∈ record.placed, p.symbol = symbol ∧ p.side = side ∧ p.carried = true

/-- Nothing is left to do for the instrument, dust apart. -/
def AtTarget (last : PlanSummary) (symbol : String) : Prop :=
  (∀ side, ¬ last.Wants symbol side) ∧
    ∀ k ∈ last.skipped, k.symbol = symbol → Run.materialText k.reason = none

/-- The last plan leaves nothing to do, or an order that it or the sells of the first
    plan want was carried out. -/
def Settled (record : RunRecord) (plan : PlanSummary) (symbol : String) : Prop :=
  let last := record.replan.getD plan
  AtTarget last symbol ∨
    ∃ side, record.CarriedOut symbol side ∧
      (last.Wants symbol side ∨ side = .sell ∧ plan.Wants symbol .sell)

def ActedOn (record : RunRecord) (d : SleeveDecision) : Prop :=
  (∀ plan, record.plan = some plan → ∀ symbol, record.Names d symbol → record.Settled plan symbol) ∧
    ∀ replan, record.replan = some replan → ∀ o ∈ replan.wanted, record.CarriedOut o.symbol o.side

/-- What the second plan would sell, the first sold; and an instrument that the first
    plan reduces and the second cannot trade was sold by the first or bought by the second. -/
def Covered (record : RunRecord) (d : SleeveDecision) : Prop :=
  ∀ plan replan, record.plan = some plan → record.replan = some replan →
    (∀ o ∈ replan.wanted, o.side = .sell → plan.Accepts o.symbol .sell) ∧
    ∀ k ∈ replan.skipped, Run.materialText k.reason ≠ none → Run.isSell plan k.symbol = true →
      record.Names d k.symbol → plan.Accepts k.symbol .sell ∨ replan.Accepts k.symbol .buy

def Sent (o : PlannedOrder) (p : PlacedOrder) : Prop := p.symbol = o.symbol ∧ p.side = o.side

/-- The orders a live run sends: the sells of the first plan, the buys of the second. -/
def toSend (plan : PlanSummary) (replan : Option PlanSummary) : List PlannedOrder :=
  Run.ofSide .sell plan.orders ++ (replan.map fun r => Run.ofSide .buy r.orders).getD []

structure Executed (record : RunRecord) (plan : PlanSummary) : Prop where
  planned : record.plan = some plan
  sent : List.Forall₂ Sent (toSend plan record.replan) record.placed
  /-- Without a second plan there was nothing to buy. -/
  sellsOnly : record.replan = none → Run.ofSide .buy plan.orders = []

structure Assessed (record : RunRecord) (plan : PlanSummary) : Prop extends Executed record plan where
  noGaps : Run.planGaps plan record.replan = []
  carried : ∀ p ∈ record.placed, p.carried = true

end Decisions

/-! ## The two plans of an assessed run -/

variable {record : RunRecord} {plan replan : PlanSummary} {d : SleeveDecision} {symbol : String}

theorem mem_ofSide {side : Side} {orders : List PlannedOrder} {o : PlannedOrder} :
    o ∈ Run.ofSide side orders ↔ o ∈ orders ∧ o.side = side := by
  unfold Run.ofSide
  simp

theorem matched {α β : Type} {R : α → β → Prop} {xs : List α} {ys : List β}
    (pairs : List.Forall₂ R xs ys) : ∀ x ∈ xs, ∃ y ∈ ys, R x y := by
  induction pairs with
  | nil => simp
  | cons here _ ih =>
      intro x member
      rcases List.mem_cons.1 member with rfl | later
      · exact ⟨_, by simp, here⟩
      · obtain ⟨y, found, related⟩ := ih x later
        exact ⟨y, List.mem_cons_of_mem _ found, related⟩

theorem Executed.accepted (executed : Executed record plan) {side : Side}
    (carried : record.CarriedOut symbol side) :
    (side = .sell ∧ plan.Accepts symbol .sell) ∨
      (side = .buy ∧ ∃ replan, record.replan = some replan ∧ replan.Accepts symbol .buy) := by
  obtain ⟨p, placed, rfl, rfl, -⟩ := carried
  obtain ⟨o, member, same, side⟩ := matched executed.sent.flip p placed
  rcases List.mem_append.1 member with sell | buy
  · obtain ⟨member, sells⟩ := mem_ofSide.1 sell
    exact .inl ⟨side.trans sells, o, member, same.symm, sells⟩
  · cases again : record.replan with
    | none =>
        rw [again] at buy
        cases buy
    | some replan =>
        rw [again] at buy
        obtain ⟨member, buys⟩ := mem_ofSide.1 buy
        exact .inr ⟨side.trans buys, replan, rfl, o, member, same.symm, buys⟩

section Gaps

variable [DebugText]

theorem material_of_skipGap {k : SkippedTrade} (none : Run.skipGap k = []) :
    Run.materialText k.reason = .none := by
  unfold Run.skipGap at none
  split at none
  · contradiction
  · assumption

/-- Everything an assessed plan without a second one wants was accepted, and what it
    skipped was dust. -/
theorem Assessed.single (assessed : Assessed record plan) (single : record.replan = none) :
    (∀ o ∈ plan.wanted, o ∈ plan.orders) ∧
      ∀ k ∈ plan.skipped, Run.materialText k.reason = none := by
  have noGaps := assessed.noGaps
  rw [single, Run.planGaps, List.append_eq_nil_iff, List.map_eq_nil_iff,
    List.flatMap_eq_nil_iff] at noGaps
  refine ⟨?_, fun k member => material_of_skipGap (noGaps.2 k member)⟩
  intro o wanted
  simpa [PlanSummary.wanted, noGaps.1] using wanted

/-- The buys an assessed second plan wants were accepted, and what it skipped was dust
    or is reduced by the first. -/
theorem Assessed.double (assessed : Assessed record plan) (double : record.replan = some replan) :
    (∀ o ∈ replan.wanted, o.side = .buy → o ∈ replan.orders) ∧
      ∀ k ∈ replan.skipped, Run.isSell plan k.symbol = false → Run.materialText k.reason = none := by
  have noGaps := assessed.noGaps
  rw [double, Run.planGaps] at noGaps
  simp only [List.append_eq_nil_iff, List.map_eq_nil_iff, List.filter_eq_nil_iff,
    List.flatMap_eq_nil_iff, List.mem_filter, beq_iff_eq, Bool.not_eq_true'] at noGaps
  obtain ⟨⟨-, buys⟩, -, skips⟩ := noGaps
  refine ⟨?_, fun k member held => material_of_skipGap (skips k ⟨member, held⟩)⟩
  intro o wanted buy
  rcases List.mem_append.1 wanted with accepted | denied
  · exact accepted
  · obtain ⟨denial, member, rfl⟩ := List.mem_map.1 denied
    exact absurd buy (buys denial member)

theorem Assessed.carriedOut (assessed : Assessed record plan) {o : PlannedOrder}
    (member : o ∈ toSend plan record.replan) : record.CarriedOut o.symbol o.side := by
  obtain ⟨p, placed, sent⟩ := matched assessed.sent o member
  exact ⟨p, placed, sent.1, sent.2, assessed.carried p placed⟩

theorem Assessed.buy_carriedOut (assessed : Assessed record plan)
    (double : record.replan = some replan) {o : PlannedOrder} (wanted : o ∈ replan.wanted)
    (buys : o.side = .buy) : record.CarriedOut o.symbol o.side := by
  apply assessed.carriedOut
  rw [double]
  exact List.mem_append_right _ (mem_ofSide.2 ⟨(assessed.double double).1 o wanted buys, buys⟩)

theorem Assessed.accepted_carriedOut (assessed : Assessed record plan)
    (sells : plan.Accepts symbol .sell) : record.CarriedOut symbol .sell := by
  obtain ⟨o, member, rfl, side⟩ := sells
  rw [← side]
  exact assessed.carriedOut (List.mem_append_left _ (mem_ofSide.2 ⟨member, side⟩))

variable [UnicodeCase]

theorem Assessed.acted_single (assessed : Assessed record plan) (single : record.replan = none) :
    record.ActedOn d := by
  obtain ⟨accepted, dust⟩ := assessed.single single
  refine ⟨?_, fun replan again => by simp [single] at again⟩
  intro other planned symbol _
  obtain rfl := Option.some.inj (assessed.planned.symm.trans planned)
  unfold Settled
  rw [single, Option.getD_none]
  by_cases wants : ∃ side, plan.Wants symbol side
  · obtain ⟨side, o, wanted, rfl, rfl⟩ := wants
    have member := accepted o wanted
    have sells : o.side = .sell := by
      by_contra buys
      have buy : o ∈ Run.ofSide .buy plan.orders := mem_ofSide.2 ⟨member, by cases h : o.side <;> simp_all⟩
      rw [assessed.sellsOnly single] at buy
      cases buy
    refine .inr ⟨o.side, assessed.carriedOut ?_, .inl ⟨o, wanted, rfl, rfl⟩⟩
    exact List.mem_append_left _ (mem_ofSide.2 ⟨member, sells⟩)
  · exact .inl ⟨fun side want => wants ⟨side, want⟩, fun k member _ => dust k member⟩

theorem Assessed.acted_double (assessed : Assessed record plan) (double : record.replan = some replan)
    (covered : record.Covered d) : record.ActedOn d := by
  obtain ⟨sold, skips⟩ := covered plan replan assessed.planned double
  have sent : ∀ o ∈ replan.wanted, record.CarriedOut o.symbol o.side := by
    intro o wanted
    cases side : o.side with
    | buy => exact side ▸ assessed.buy_carriedOut double wanted side
    | sell => exact assessed.accepted_carriedOut (sold o wanted side)
  constructor
  · intro other planned symbol named
    obtain rfl := Option.some.inj (assessed.planned.symm.trans planned)
    unfold Settled
    rw [double, Option.getD_some]
    by_cases wants : ∃ side, replan.Wants symbol side
    · obtain ⟨side, o, wanted, rfl, rfl⟩ := wants
      exact .inr ⟨o.side, sent o wanted, .inl ⟨o, wanted, rfl, rfl⟩⟩
    -- The second plan wants nothing; it may have skipped what the first one sold.
    · by_cases dust : ∀ k ∈ replan.skipped, k.symbol = symbol → Run.materialText k.reason = none
      · exact .inl ⟨fun side want => wants ⟨side, want⟩, dust⟩
      · push Not at dust
        obtain ⟨k, member, rfl, material⟩ := dust
        have reduced : Run.isSell plan k.symbol = true := by
          by_contra kept
          exact material ((assessed.double double).2 k member (by simpa using kept))
        rcases skips k member material reduced named with sells | buys
        · obtain ⟨o, accepted, same, side⟩ := id sells
          exact .inr ⟨.sell, assessed.accepted_carriedOut sells,
            .inr ⟨rfl, o, List.mem_append_left _ accepted, same, side⟩⟩
        · obtain ⟨o, accepted, same, side⟩ := buys
          exact absurd ⟨.buy, o, List.mem_append_left _ accepted, same, side⟩ wants
  · intro other again
    obtain rfl := Option.some.inj (double.symm.trans again)
    exact sent

theorem Executed.covered (executed : Executed record plan) (double : record.replan = some replan)
    (acted : record.ActedOn d) : record.Covered d := by
  intro first second planned again
  obtain rfl := Option.some.inj (executed.planned.symm.trans planned)
  obtain rfl := Option.some.inj (double.symm.trans again)
  constructor
  · intro o wanted sells
    have carried := acted.2 replan double o wanted
    rw [sells] at carried
    rcases executed.accepted carried with ⟨-, accepted⟩ | ⟨buy, -⟩
    · exact accepted
    · cases buy
  · intro k member material _ named
    rcases acted.1 plan executed.planned k.symbol named with settled | ⟨side, carried, -⟩
    · rw [double, Option.getD_some] at settled
      exact absurd (settled.2 k member rfl) material
    · rcases executed.accepted carried with ⟨-, sold⟩ | ⟨-, r, same, bought⟩
      · exact .inl sold
      · obtain rfl := Option.some.inj (double.symm.trans same)
        exact .inr bought

/-- A decision of an assessed run is carried out as counted exactly when it is covered. -/
theorem Assessed.acted_iff (assessed : Assessed record plan) :
    record.ActedOn d ↔ record.Covered d := by
  cases again : record.replan with
  | none =>
      have covered : record.Covered d := fun _ _ _ double => by simp [again] at double
      exact iff_of_true (assessed.acted_single again) covered
  | some replan =>
      constructor
      · exact fun acted => assessed.toExecuted.covered again acted
      · exact fun covered => assessed.acted_double again covered

end Gaps

end RunRecord

def Asked.unfinished (asked : Asked) : Prop := ∀ record, asked.op ≠ .finish record

namespace Run

/-! ## What the steps before the assessment keep -/

/-- The record is not written, the run is kept, and the result is as said. -/
def Yields {α : Type} (x : RunM α) (R : α → Prop) : Prop :=
  ∀ run g, (x run).Obeys (Law.only Asked.unfinished) g fun res _ => Kept run res.2 ∧ R res.1

/-- The same for a step, without a word on its result. -/
def Busy {α : Type} (x : StepM α) : Prop :=
  Framed (Law.only Asked.unfinished) (fun r (_ : Unit) r' _ => Kept r r') x.run

variable {α β : Type}

theorem Kept.refl (run : Run) : Kept run run := ⟨rfl, rfl, rfl, rfl⟩

theorem Kept.trans {r r' r'' : Run} (first : Kept r r') (second : Kept r' r'') : Kept r r'' :=
  ⟨second.plan.trans first.plan, second.replan.trans first.replan,
    second.placed.trans first.placed, second.carried.trans first.carried⟩

namespace Yields

variable {x : RunM α} {R S : α → Prop}

theorem pure {value : α} (holds : R value) : Yields (Pure.pure value) R :=
  fun run _ => ⟨Kept.refl run, holds⟩

theorem mono (h : Yields x R) (weaker : ∀ a, R a → S a) : Yields x S :=
  fun run g => (h run g).mono fun _ _ final => ⟨final.1, weaker _ final.2⟩

theorem bind {f : α → RunM β} {S : β → Prop} (first : Yields x R)
    (second : ∀ a, R a → Yields (f a) S) : Yields (x >>= f) S := by
  intro run g
  apply Prog.Obeys.bind
  apply (first run g).mono
  intro res g' here
  apply (second res.1 here.2 res.2 g').mono
  intro final _ there
  exact ⟨here.1.trans there.1, there.2⟩

theorem lift (h : Yields x R) : Busy (liftM x : StepM α) :=
  Framed.stepLift fun run g => (h run g).mono fun _ _ final => final.1

end Yields

theorem Quiet.yields {x : RunM α} (quiet : Quiet x) : Yields x fun _ => True := by
  have framed : Framed (Law.only Asked.unfinished) (fun r (_ : Unit) r' _ => Kept r r') x :=
    Framed.under quiet fun _ _ midway record => midway.unfinished record
  exact fun run g => (framed run g).mono fun _ _ kept => ⟨kept, trivial⟩

theorem QuietStep.busy {x : StepM α} (quiet : QuietStep x) : Busy x :=
  Framed.under quiet fun _ _ midway record => midway.unfinished record

theorem Busy.bind {x : StepM α} {f : α → StepM β} (first : Busy x) (second : ∀ a, Busy (f a)) :
    Busy (x >>= f) := Framed.stepBind kept_frame first second

theorem Busy.run {x : StepM α} (busy : Busy x) : Yields x.run fun _ => True :=
  fun run g => (busy run g).mono fun _ _ kept => ⟨kept, trivial⟩

theorem askFor_yields {op : RunOp} (unfinished : ∀ record, op ≠ .finish record) :
    Yields (askFor op) fun _ => True :=
  fun run _ => ⟨unfinished, fun _ _ _ => ⟨Kept.refl run, trivial⟩⟩

theorem endWith_busy {last : RunM Unit} (h : Yields last fun _ => True) :
    Busy (endWith last : StepM α) := h.lift.bind fun _ => QuietStep.failure.busy

theorem viaBroker_yields (p : Prog BrokerOp BrokerOp.Answer α) : Yields (viaBroker p) fun _ => True := by
  intro run g
  show (brokerProg run p).Obeys _ _ _
  induction p generalizing g with
  | done value => exact ⟨Kept.refl run, trivial⟩
  | call op next ih => exact ⟨fun record same => (nomatch same), fun answer g' _ => ih answer g'⟩

variable {ctx : RunContext}

section Halt

variable [InstantText] [UnicodeCase] [DebugText] [DateText] [Sha256]

omit [DateText] in
theorem finishFlatten_yields (why : String) : Yields (finishFlatten ctx why) fun _ => True := by
  apply Yields.bind Quiet.get.yields
  intro run _
  cases run.state.halt with
  | none => exact Yields.pure trivial
  | some halt =>
      apply Yields.bind (viaBroker_yields _)
      intro report _
      apply Yields.bind (note_quiet _ _).yields
      intro _ _
      refine Yields.bind (Quiet.yields (Quiet.modify fun _ => ⟨rfl, rfl, rfl, rfl⟩)) ?_
      intro _ _
      apply Yields.bind Quiet.get.yields
      intro run _
      refine Yields.bind (Quiet.yields (modifyRec_quiet _ fun _ => ⟨rfl, rfl, rfl, rfl⟩)) ?_
      intro _ _
      apply Yields.bind (saveState_quiet ctx _).busy.run
      intro saved _
      cases saved with
      | none => exact Yields.pure trivial
      | some _ =>
          dsimp only
          split
          · exact Yields.pure trivial
          · exact (alert_quiet ctx _ _ _ _).yields

omit [DateText] in
theorem stepHaltedCheck_busy : Busy (stepHaltedCheck ctx) := by
  by_cases live : ctx.mode = .live
  · apply Busy.bind QuietStep.get.busy
    intro run
    cases run.state.status with
    | active => exact QuietStep.pure.busy
    | shrunk => exact QuietStep.pure.busy
    | halted =>
        apply endWith_busy
        apply Yields.bind (note_quiet _ _).yields
        intro _ _
        apply Yields.bind (alert_quiet ctx _ _ _ _).yields
        intro _ _
        exact (setOutcome_quiet _ _ _).yields
    | flattening =>
        apply endWith_busy
        apply Yields.bind (note_quiet _ _).yields
        intro _ _
        rw [if_pos live]
        apply (finishFlatten_yields _).bind
        intro _ _
        apply Yields.bind Quiet.get.yields
        intro run _
        exact (setOutcome_quiet _ _ _).yields
  · exact (stepHaltedCheck_quiet ctx live).busy

omit [DateText] [Sha256] in
theorem stepCleanup_busy : Busy (stepCleanup ctx) := by
  by_cases live : ctx.mode = .live
  · unfold stepCleanup
    rw [if_neg (by simp [live])]
    apply Busy.bind QuietStep.get.busy
    intro run
    dsimp only
    split
    · exact (note_quiet _ _).yields.lift
    · apply ((viaBroker_yields _).bind fun _ _ => Yields.pure (R := fun _ => True) trivial).lift.bind
      intro f
      refine Busy.bind (Yields.lift (Quiet.yields (modifyRec_quiet _ fun _ => ⟨rfl, rfl, rfl, rfl⟩))) ?_
      intro _
      apply (note_quiet _ _).yields.lift.bind
      intro _
      split
      · exact (failRun_quiet ctx _ _).busy
      · apply (readSnapshot_quiet ctx _).busy.bind
        intro snap
        exact QuietStep.busy (QuietStep.modify fun _ => ⟨rfl, rfl, rfl, rfl⟩)
  · exact (stepCleanup_quiet ctx live).busy

theorem stepRisk_busy : Busy (stepRisk ctx) := by
  by_cases live : ctx.mode = .live
  · apply Busy.bind QuietStep.get.busy
    intro run
    apply (held_quiet _).busy.bind
    intro snap
    apply (held_quiet _).busy.bind
    intro riskPolicy
    dsimp only
    apply (note_quiet _ _).yields.lift.bind
    intro _
    refine Busy.bind (Yields.lift (Quiet.yields (modifyRec_quiet _ fun _ => ⟨rfl, rfl, rfl, rfl⟩))) ?_
    intro _
    refine Busy.bind (Yields.lift (Quiet.yields (modifyRec_quiet _ fun _ => ⟨rfl, rfl, rfl, rfl⟩))) ?_
    intro _
    apply (saveState_quiet ctx _).busy.bind
    intro _
    split
    · exact (pauseBuys_quiet ctx _ _).yields.lift
    · apply (alert_quiet ctx _ _ _ _).yields.lift.bind
      intro _
      apply endWith_busy
      apply (finishFlatten_yields _).bind
      intro _ _
      exact (setOutcome_quiet _ _ _).yields
  · exact (stepRisk_quiet ctx live).busy

end Halt

/-! ## Placing the orders of a plan -/

section Orders

def SameOrder (p q : PlacedOrder) : Prop := q.symbol = p.symbol ∧ q.side = p.side

variable (placed : PlacedOrder) (o : PlannedOrder) (phase : Phase)

theorem withAnomaly_same (found : Bool) (text : String) : SameOrder placed (withAnomaly placed found text) := by
  unfold withAnomaly
  split
  · exact ⟨rfl, rfl⟩
  · exact ⟨rfl, rfl⟩

theorem SameOrder.trans {p q r : PlacedOrder} (first : SameOrder p q) (second : SameOrder q r) :
    SameOrder p r := ⟨second.1.trans first.1, second.2.trans first.2⟩

theorem unsent_sent {o : PlannedOrder} {phase : Phase} {detail : String} {p : PlacedOrder}
    (same : SameOrder (unsent o phase detail) p) : RunRecord.Sent o p := same

variable [DebugText]

theorem pollPlaced_yields (id : String) (left : Nat) :
    ∀ placed, Yields (pollPlaced ctx id left placed) fun res => SameOrder placed res.1 := by
  induction left with
  | zero => exact fun _ => Yields.pure ⟨rfl, rfl⟩
  | succ left ih =>
      intro placed
      apply Yields.bind (askFor_yields (by simp))
      intro answer _
      match answer with
      | .error e => exact Yields.pure ⟨rfl, rfl⟩
      | .ok r =>
          dsimp only
          split
          · exact Yields.pure ⟨rfl, rfl⟩
          · split
            · exact ih _
            · exact Yields.bind (askFor_yields (by simp)) fun _ _ => ih _

theorem settleInto_yields (id : String) : Yields (settleInto ctx placed id) (SameOrder placed) := by
  refine Yields.bind (Quiet.yields (Quiet.modify fun _ => ⟨rfl, rfl, rfl, rfl⟩)) ?_
  intro _ _
  apply Yields.bind (pollPlaced_yields id _ _)
  rintro ⟨polled, ended⟩ same
  cases ended with
  | true => exact Yields.pure same
  | false =>
      apply Yields.bind (askFor_yields (by simp))
      intro answer _
      match answer with
      | .ok (_, r) => exact Yields.pure same
      | .error e => exact Yields.pure same

theorem adopt_yields (first : OrderReport) : Yields (adopt ctx placed first) (SameOrder placed) := by
  apply Yields.bind (askFor_yields (by simp))
  intro answer _
  match answer with
  | .ok () => exact settleInto_yields _ _
  | .error e =>
      apply (settleInto_yields _ _).mono
      intro p same
      have kept := (withAnomaly_same _ _ _).trans same
      exact kept

abbrev Placing (o : PlannedOrder) (x : RunM PlacedOrder) : Prop := Yields x (RunRecord.Sent o)

theorem accepted_yields (id : String) : Placing o (accepted ctx o phase id) := by
  have settled : ∀ found text, Placing o (settleInto ctx (withAnomaly (unsent o phase "") found text) id) :=
    fun found text => (settleInto_yields _ _).mono fun _ same =>
      unsent_sent ((withAnomaly_same _ _ _).trans same)
  unfold accepted
  split
  · exact settled _ _
  · apply Yields.bind (askFor_yields (by simp))
    intro answer _
    match answer with
    | .ok () => exact settleInto_yields _ _
    | .error e => exact settled _ _

theorem adopted_yields (found : Bool) (text : String) (first : OrderReport) :
    Placing o (adopt ctx (withAnomaly (unsent o phase "") found text) first) :=
  (adopt_yields _ first).mono fun _ same => unsent_sent ((withAnomaly_same _ _ _).trans same)

theorem lookUpUnknown_yields (reason : String) : Placing o (lookUpUnknown ctx o phase reason) := by
  apply Yields.bind (askFor_yields (by simp))
  intro answer _
  match answer with
  | .ok (first :: others) =>
      apply Yields.bind (adopted_yields o phase _ _ first)
      intro placed same
      exact Yields.pure same
  | .ok [] => exact Yields.pure ⟨rfl, rfl⟩
  | .error e => exact Yields.pure ⟨rfl, rfl⟩

theorem sendOrder_yields : Placing o (sendOrder ctx o phase) := by
  apply Yields.bind (askFor_yields (by simp))
  intro answer _
  match answer with
  | .ok (.accepted id _ _ _) => exact accepted_yields o phase id
  | .ok (.validatedOnly _ _ _) => exact Yields.pure ⟨rfl, rfl⟩
  | .ok (.rejected errors _) => exact Yields.pure ⟨rfl, rfl⟩
  | .ok (.unknownOutcome reason _) => exact lookUpUnknown_yields o phase reason
  | .error e => exact Yields.pure ⟨rfl, rfl⟩

theorem journalAndSend_yields : Placing o (journalAndSend ctx o phase) := by
  unfold journalAndSend
  split
  · exact sendOrder_yields o phase
  · apply Yields.bind (askFor_yields (by simp))
    intro answer _
    match answer with
    | .ok () => exact sendOrder_yields o phase
    | .error e => exact Yields.pure ⟨rfl, rfl⟩

theorem executeOrder_yields : Placing o (executeOrder ctx o phase) := by
  apply Yields.bind Quiet.get.yields
  intro run _
  split
  · exact Yields.pure ⟨rfl, rfl⟩
  · split
    · exact Yields.pure ⟨rfl, rfl⟩
    · apply Yields.bind (askFor_yields (by simp))
      intro answer _
      match answer with
      | .error e => exact Yields.pure ⟨rfl, rfl⟩
      | .ok (first :: others) => exact adopted_yields o phase _ _ first
      | .ok [] => exact journalAndSend_yields o phase

end Orders

end Run

/-! ## The record of a live run -/

/-- A decision counted as acted is carried out exactly when it is covered. -/
def RunRecord.Counted [UnicodeCase] [DebugText] (record : RunRecord) : Prop :=
  ∀ d ∈ record.decisions, d.acted = true → (record.ActedOn d ↔ record.Covered d)

def countedLaw [UnicodeCase] [DebugText] : Law Asked Asked.Answer Unit :=
  Law.logged (fun _ asked => ∀ record, asked.op = .finish record → record.Counted) fun _ _ => ()

theorem RunRecord.Executed.of_same {record record' : RunRecord} {plan : PlanSummary}
    (executed : record.Executed plan) (same : record'.plan = record.plan)
    (again : record'.replan = record.replan) (placed : record'.placed = record.placed) :
    record'.Executed plan := by
  refine ⟨same.trans executed.planned, ?_, ?_⟩
  · rw [again, placed]
    exact executed.sent
  · rw [again]
    exact executed.sellsOnly

theorem RunRecord.Assessed.of_same [DebugText] {record record' : RunRecord} {plan : PlanSummary}
    (assessed : record.Assessed plan) (same : record'.plan = record.plan)
    (again : record'.replan = record.replan) (placed : record'.placed = record.placed) :
    record'.Assessed plan := by
  refine ⟨assessed.toExecuted.of_same same again placed, ?_, ?_⟩
  · rw [again]
    exact assessed.noGaps
  · rw [placed]
    exact assessed.carried

namespace Run

section Counted

variable {α β : Type} {ctx : RunContext}

structure Fresh (run : Run) : Prop where
  carried : run.carried = false
  replan : run.record.replan = none
  placed : run.record.placed = []

structure Midway (plan : OrderPlan) (replan : Option PlanSummary) (sent : List PlannedOrder)
    (run : Run) : Prop where
  carried : run.carried = false
  planned : run.record.plan = some (summarizePlan plan)
  replanned : run.record.replan = replan
  sent : List.Forall₂ RunRecord.Sent sent run.record.placed

structure Executed (plan : OrderPlan) (run : Run) : Prop where
  carried : run.carried = false
  executed : run.record.Executed (summarizePlan plan)

theorem Fresh.kept {r r' : Run} (kept : Kept r r') (fresh : Fresh r) : Fresh r' :=
  ⟨kept.carried.trans fresh.carried, kept.replan.trans fresh.replan, kept.placed.trans fresh.placed⟩

theorem Midway.kept {plan : OrderPlan} {replan : Option PlanSummary} {sent : List PlannedOrder}
    {r r' : Run} (kept : Kept r r') (midway : Midway plan replan sent r) : Midway plan replan sent r' :=
  ⟨kept.carried.trans midway.carried, kept.plan.trans midway.planned,
    kept.replan.trans midway.replanned, kept.placed ▸ midway.sent⟩

theorem Executed.kept {plan : OrderPlan} {r r' : Run} (kept : Kept r r') (done : Executed plan r) :
    Executed plan r' :=
  ⟨kept.carried.trans done.carried, done.executed.of_same kept.plan kept.replan kept.placed⟩

theorem lookAllAgain_yields (placed : List PlacedOrder) :
    Yields (lookAllAgain placed) (List.Forall₂ SameOrder placed) := by
  induction placed with
  | nil => exact Yields.pure .nil
  | cons p ps ih =>
      have looked : Yields (lookAgain p) (SameOrder p) := by
        unfold lookAgain
        split
        · exact Yields.pure ⟨rfl, rfl⟩
        · apply Yields.bind (askFor_quiet rfl).yields
          intro answer _
          match answer with
          | .ok [] => exact Yields.pure ⟨rfl, rfl⟩
          | .ok (first :: others) => exact Yields.pure ⟨rfl, rfl⟩
          | .error e => exact Yields.pure ⟨rfl, rfl⟩
      apply looked.bind
      intro q same
      apply ih.bind
      intro qs rest
      exact Yields.pure (.cons same rest)

theorem sent_again {orders : List PlannedOrder} {placed again : List PlacedOrder}
    (sent : List.Forall₂ RunRecord.Sent orders placed) (same : List.Forall₂ SameOrder placed again) :
    List.Forall₂ RunRecord.Sent orders again := by
  induction sent generalizing again with
  | nil =>
      cases same
      exact .nil
  | cons here _ ih =>
      cases same with
      | cons kept rest => exact .cons ⟨kept.1.trans here.1, kept.2.trans here.2⟩ (ih rest)

variable [DebugText]

def Judged (run : Run) : Prop := run.carried = true → ∃ plan, run.record.Assessed plan

theorem Judged.kept {r r' : Run} (kept : Kept r r') (judged : Judged r) : Judged r' := by
  intro carried
  obtain ⟨plan, assessed⟩ := judged (kept.carried.symm.trans carried)
  exact ⟨plan, assessed.of_same kept.plan kept.replan kept.placed⟩

theorem Judged.of_uncarried {run : Run} (uncarried : run.carried = false) : Judged run :=
  fun carried => absurd carried (by simp [uncarried])

variable [UnicodeCase]

theorem unfinished_counted (g : Unit) (asked : Asked) (unfinished : asked.unfinished) :
    countedLaw.allowed g asked := fun record finishes => absurd finishes (unfinished record)

theorem Yields.triple {x : RunM α} {R : α → Prop} {P : Run → Prop} (yields : Yields x R)
    (stable : ∀ {r r'}, Kept r r' → P r → P r') :
    Triple countedLaw (fun r _ => P r) x fun a r _ => P r ∧ R a := by
  intro run g start
  exact ((yields run ()).under unfinished_counted).mono
    fun _ _ final => ⟨stable final.1 start, final.2⟩

theorem Quiet.keeps {x : RunM α} {P : Run → Prop} (quiet : Quiet x)
    (stable : ∀ {r r'}, Kept r r' → P r → P r') :
    Triple countedLaw (fun r _ => P r) x fun _ r _ => P r :=
  (quiet.yields.triple stable).weaken (fun _ _ start => start) fun _ _ _ final => final.1

/-- A step before the assessment: what it keeps it keeps, and it leaves no verdict when
    it stops. -/
theorem Busy.keeps {x : StepM α} {P : Run → Prop} (busy : Busy x)
    (stable : ∀ {r r'}, Kept r r' → P r → P r') (uncarried : ∀ {r}, P r → r.carried = false) :
    Stepwise countedLaw (fun r _ => P r) x (fun r _ => r.carried = false) fun _ r _ => P r := by
  intro run g start
  apply ((busy run ()).under unfinished_counted).mono
  intro res _ kept
  have still := stable kept start
  obtain ⟨result, after⟩ := res
  cases result with
  | none => exact uncarried still
  | some a => exact still

theorem Judged.counted {run : Run} (judged : Judged run) {record : RunRecord}
    (decisions : record.decisions = run.record.decisions.map
      (markActed (run.record.outcome.kind == .completed) run.carried))
    (same : record.plan = run.record.plan) (again : record.replan = run.record.replan)
    (placed : record.placed = run.record.placed) : record.Counted := by
  intro d member acted
  rw [decisions] at member
  obtain ⟨before, -, rfl⟩ := List.mem_map.1 member
  have carried : run.carried = true := by
    simp only [markActed, Bool.and_eq_true] at acted
    exact acted.2
  obtain ⟨plan, assessed⟩ := judged carried
  exact (assessed.of_same same again placed).acted_iff

theorem executeAll_places (phase : Phase) (plan : OrderPlan) (replan : Option PlanSummary)
    (orders : List PlannedOrder) : ∀ sent, Triple countedLaw (fun r _ => Midway plan replan sent r)
      (executeAll ctx phase orders) fun _ r _ => Midway plan replan (sent ++ orders) r := by
  induction orders with
  | nil =>
      intro sent run g start
      rw [List.append_nil]
      exact start
  | cons o orders ih =>
      intro sent
      have first : Triple countedLaw (fun r _ => Midway plan replan sent r)
          (do
            let p ← executeOrder ctx o phase
            modifyRec fun r => { r with placed := r.placed ++ [p] })
          fun _ r _ => Midway plan replan (sent ++ [o]) r := by
        apply Triple.bind ((executeOrder_yields o phase).triple Midway.kept)
        rintro p run g ⟨midway, same⟩
        exact ⟨midway.carried, midway.planned, midway.replanned,
          List.rel_append midway.sent (.cons same .nil)⟩
      apply Triple.bind first
      intro _
      have onward := ih (sent ++ [o])
      rw [List.append_assoc] at onward
      exact onward

variable [InstantText] [Sha256]

theorem executeLive_executes (targets : List SleeveTarget) (plan : OrderPlan) :
    Stepwise countedLaw (fun r _ => Midway plan none [] r) (executeLive ctx targets plan)
      (fun r _ => r.carried = false) fun _ r _ => Executed plan r := by
  apply Stepwise.bind (Stepwise.lift (executeAll_places .sells plan none _ []))
  intro _
  have stays : ∀ {β : Type} {y : StepM β}, QuietStep y → Stepwise countedLaw
      (fun r _ => Midway plan none (ofSide .sell plan.orders) r) y (fun r _ => r.carried = false)
      fun _ r _ => Midway plan none (ofSide .sell plan.orders) r :=
    fun quiet => quiet.busy.keeps Midway.kept Midway.carried
  rw [List.nil_append]
  split
  · rename_i nothing
    apply (stays (QuietStep.lift (note_quiet _ _))).weaken (fun _ _ start => start) (fun _ _ stop => stop)
    intro _ run _ midway
    refine ⟨midway.carried, midway.planned, ?_, fun _ => List.isEmpty_iff.1 nothing⟩
    rw [midway.replanned]
    simpa [RunRecord.toSend, summarizePlan] using midway.sent
  · apply Stepwise.bind (stays (readSnapshot_quiet ctx _))
    intro snap
    apply Stepwise.bind (stays (dayCounters_quiet ctx))
    intro day
    apply Stepwise.bind (stays (planWith_quiet ctx _ _ _ _))
    intro replan
    have replanned : Stepwise countedLaw (fun r _ => Midway plan none (ofSide .sell plan.orders) r)
        (modifyRec fun r => { r with replan := some (summarizePlan replan) } : StepM Unit)
        (fun r _ => r.carried = false)
        fun _ r _ => Midway plan (some (summarizePlan replan)) (ofSide .sell plan.orders) r := by
      apply Stepwise.lift
      intro run g midway
      exact ⟨midway.carried, midway.planned, rfl, midway.sent⟩
    apply Stepwise.bind replanned
    intro _
    apply Stepwise.bind
      (Busy.keeps (QuietStep.lift (note_quiet _ _)).busy Midway.kept Midway.carried)
    intro _
    apply (Stepwise.lift (executeAll_places .buys plan _ _ _)).weaken (fun _ _ start => start)
      (fun _ _ stop => stop)
    intro _ run _ midway
    refine ⟨midway.carried, midway.planned, ?_, fun single => by simp [midway.replanned] at single⟩
    rw [midway.replanned]
    exact midway.sent

/-- The orders are out of the record; they may come back looked up once more. -/
structure Taken (plan : OrderPlan) (placed : List PlacedOrder) (run : Run) : Prop where
  carried : run.carried = false
  back : ∀ again, List.Forall₂ SameOrder placed again →
    RunRecord.Executed { run.record with placed := again } (summarizePlan plan)

omit [UnicodeCase] [DebugText] [InstantText] [Sha256] in
theorem Taken.kept {plan : OrderPlan} {placed : List PlacedOrder} {r r' : Run} (kept : Kept r r')
    (taken : Taken plan placed r) : Taken plan placed r' :=
  ⟨kept.carried.trans taken.carried,
    fun again same => (taken.back again same).of_same kept.plan kept.replan rfl⟩

omit [Sha256] in
theorem stepReconPost_executed (live : ctx.mode = .live) (plan : OrderPlan) :
    Stepwise countedLaw (fun r _ => Executed plan r) (stepReconPost ctx)
      (fun r _ => r.carried = false) fun _ r _ => Executed plan r := by
  have stays : ∀ {y : StepM Unit}, QuietStep y → Stepwise countedLaw
      (fun r _ => Executed plan r) y (fun r _ => r.carried = false) fun _ r _ => Executed plan r :=
    fun quiet => quiet.busy.keeps Executed.kept Executed.carried
  unfold stepReconPost
  rw [if_neg (by simp [live])]
  apply Stepwise.through fun run r _ => r = run ∧ Executed plan r
  · exact fun run _ done => ⟨rfl, done⟩
  intro run
  apply Stepwise.through fun _ r _ => Taken plan run.record.placed r
  · apply Stepwise.lift
    rintro _ _ ⟨rfl, done⟩
    refine ⟨done.carried, fun again same => ⟨done.executed.planned, ?_, done.executed.sellsOnly⟩⟩
    exact sent_again done.executed.sent same
  intro _
  apply Stepwise.bind (Stepwise.lift ((lookAllAgain_yields run.record.placed).triple Taken.kept))
  intro placed
  apply Stepwise.through fun _ r _ => Executed plan r
  · apply Stepwise.lift
    rintro r _ ⟨taken, same⟩
    exact ⟨taken.carried, taken.back placed same⟩
  intro _
  dsimp only
  split
  · exact stays ((QuietStep.lift (note_quiet _ _)).bind fun _ => haltReconciliation_quiet ctx _)
  · exact stays (reconcilePost_quiet ctx _)

omit [DebugText] [InstantText] [UnicodeCase] [Sha256] in
theorem placedGap_carried {p : PlacedOrder} (none : placedGap p = []) : p.carried = true := by
  unfold placedGap at none
  split at none
  · assumption
  · contradiction

omit [InstantText] [Sha256] [UnicodeCase] in
/-- No gaps: the run is assessed. -/
theorem Executed.assessed {plan : OrderPlan} {run : Run} (done : Executed plan run)
    (empty : (shortfalls run).isEmpty = true) : run.record.Assessed (summarizePlan plan) := by
  have noGap := List.isEmpty_iff.1 empty
  rw [shortfalls, done.executed.planned] at noGap
  simp only [List.append_eq_nil_iff, List.map_eq_nil_iff, List.flatMap_eq_nil_iff] at noGap
  obtain ⟨⟨noGaps, -⟩, carried⟩ := noGap
  exact ⟨done.executed, noGaps, fun p member => placedGap_carried (carried p member)⟩

omit [Sha256] in
theorem stepAssess_judged (plan : OrderPlan) :
    Triple countedLaw (fun r _ => Executed plan r) (stepAssess ctx) fun _ r _ => Judged r := by
  have read : Triple countedLaw (fun r _ => Executed plan r) (get : RunM Run)
      fun run r _ => r = run ∧ Executed plan r := fun run _ done => ⟨rfl, done⟩
  apply read.bind
  intro run
  dsimp only
  split
  · rename_i empty
    have judged : Triple countedLaw (fun r _ => r = run ∧ Executed plan r)
        (modify fun run => { run with carried := true } : RunM Unit) fun _ r _ => Judged r := by
      rintro _ _ ⟨rfl, done⟩ _
      exact ⟨summarizePlan plan, done.assessed empty⟩
    exact judged.bind fun _ => (setOutcome_quiet _ _ _).keeps Judged.kept
  · have quiet : ∀ {y : RunM Unit}, Quiet y → Triple countedLaw (fun r _ => r = run ∧ Executed plan r) y
        fun _ r _ => Judged r := by
      intro y quiet
      apply (quiet.keeps Executed.kept).weaken (fun _ _ start => start.2)
      exact fun _ _ _ done => Judged.of_uncarried done.carried
    apply quiet
    apply (note_quiet _ _).bind
    intro _
    exact (alert_quiet ctx _ _ _ _).bind fun _ => setOutcome_quiet _ _ _

theorem stepPlan_midway (targets : List SleeveTarget) :
    Stepwise countedLaw (fun r _ => Fresh r) (stepPlan ctx targets) (fun r _ => r.carried = false)
      fun plan r _ => Midway plan none [] r := by
  have stays : ∀ {β : Type} {y : StepM β}, QuietStep y → Stepwise countedLaw (fun r _ => Fresh r) y
      (fun r _ => r.carried = false) fun _ r _ => Fresh r :=
    fun quiet => quiet.busy.keeps Fresh.kept Fresh.carried
  apply Stepwise.bind (stays QuietStep.get)
  intro run
  apply Stepwise.bind (stays (held_quiet _))
  intro snap
  apply Stepwise.bind (stays (dayCounters_quiet ctx))
  intro day
  apply Stepwise.bind (stays (planWith_quiet ctx _ _ _ _))
  intro plan
  apply Stepwise.through fun _ r _ => Midway plan none [] r
  · apply Stepwise.lift
    intro r _ fresh
    refine ⟨fresh.carried, rfl, fresh.replan, ?_⟩
    show List.Forall₂ _ _ r.record.placed
    rw [fresh.placed]
    exact .nil
  intro _
  apply Stepwise.bind (Busy.keeps (QuietStep.lift (note_quiet _ _)).busy Midway.kept Midway.carried)
  intro _
  exact fun _ _ midway => midway

omit [Sha256] in
theorem finish_counted : Triple countedLaw (fun r _ => Judged r) (finish ctx) fun _ _ _ => True := by
  apply (now_quiet.keeps Judged.kept).bind
  intro at'
  have marked : Triple countedLaw (fun r _ => Judged r)
      (modify fun run => { run with
        record := { run.record with
          stateAfter := some run.state.status
          finishedAt := at'
          decisions := run.record.decisions.map
            (markActed (run.record.outcome.kind == .completed) run.carried) } } : RunM Unit)
      fun _ r _ => r.record.Counted :=
    fun run _ judged => judged.counted rfl rfl rfl rfl
  apply marked.bind
  intro _
  have read : Triple countedLaw (fun (r : Run) _ => r.record.Counted) (get : RunM Run)
      fun run _ _ => run.record.Counted := fun _ _ counted => counted
  apply read.bind
  intro run
  have written : Triple countedLaw (fun _ _ => run.record.Counted) (finishRecord run.record)
      fun _ _ _ => True := by
    intro r g counted
    refine ⟨?_, fun _ _ _ => trivial⟩
    rintro record ⟨⟩
    exact counted
  apply written.bind
  intro answer
  match answer with
  | .ok () => exact fun _ _ _ => trivial
  | .error e =>
      have quiet : ∀ {β : Type} {y : RunM β}, Quiet y →
          Triple countedLaw (fun _ _ => True) y fun _ _ _ => True :=
        fun quiet => quiet.keeps fun _ _ => trivial
      apply Triple.bind (quiet (modifyRec_quiet _ fun _ => ⟨rfl, rfl, rfl, rfl⟩))
      intro _
      exact quiet ((alert_quiet ctx _ _ _ _).bind fun _ => Quiet.get.bind fun _ => Quiet.pure)

variable [DateText] [FloatFloor]

theorem execute_judged (live : ctx.mode = .live) :
    Stepwise countedLaw (fun r _ => Fresh r) (execute ctx) (fun r _ => r.carried = false)
      fun _ r _ => Judged r := by
  have stays : ∀ {β : Type} {y : StepM β}, Busy y → Stepwise countedLaw (fun r _ => Fresh r) y
      (fun r _ => r.carried = false) fun _ r _ => Fresh r :=
    fun busy => busy.keeps Fresh.kept Fresh.carried
  apply Stepwise.bind (stays (stepVenuePolicy_quiet ctx).busy)
  intro _
  apply Stepwise.bind (stays (stepKillFlag_quiet ctx).busy)
  intro _
  apply Stepwise.bind (stays (stepMandate_quiet ctx).busy)
  intro _
  apply Stepwise.bind (stays (stepDecisions_quiet ctx).busy)
  intro _
  apply Stepwise.bind (stays (stepReadAccount_quiet ctx).busy)
  intro _
  apply Stepwise.bind (stays stepHaltedCheck_busy)
  intro _
  apply Stepwise.bind (stays stepCleanup_busy)
  intro _
  apply Stepwise.bind (stays (stepReconPre_quiet ctx).busy)
  intro _
  apply Stepwise.bind (stays stepRisk_busy)
  intro _
  apply Stepwise.bind (stays (stepTargets_quiet ctx).busy)
  intro targets
  apply Stepwise.bind (stepPlan_midway targets)
  intro plan
  rw [stepExecute, live]
  apply Stepwise.bind (executeLive_executes targets plan)
  intro _
  apply Stepwise.bind (stepReconPost_executed live plan)
  intro _
  exact Stepwise.lift (stepAssess_judged plan)

/-- The record of a live run counts its decisions right, whatever the run is answered. -/
theorem runOnce_counted (live : ctx.mode = .live) :
    (runOnce ctx).Obeys countedLaw () fun _ _ => True := by
  have stays : ∀ {β : Type} {y : RunM β}, Quiet y →
      Triple countedLaw (fun r _ => Fresh r) y fun _ r _ => Fresh r :=
    fun quiet => quiet.keeps Fresh.kept
  have ends : ∀ {β : Type} {y : RunM β}, Quiet y →
      Triple countedLaw (fun r _ => Fresh r) y fun _ _ _ => True :=
    fun quiet => (stays quiet).weaken (fun _ _ start => start) fun _ _ _ _ => trivial
  have acquired : ∀ startedAt,
      Triple countedLaw (fun r _ => Fresh r) (acquire ctx startedAt) fun _ _ _ => True := by
    intro startedAt
    apply Triple.bind (stays (askFor_quiet rfl))
    intro answer
    match answer with
    | .ok (.started attempt) =>
        apply Triple.bind (stays (modifyRec_quiet _ fun _ => ⟨rfl, rfl, rfl, rfl⟩))
        intro _
        apply Triple.bind (stays (note_quiet _ _))
        intro _
        have executed : Triple countedLaw (fun r _ => Fresh r) (execute ctx).run
            fun _ r _ => Judged r := by
          apply Triple.weaken (execute_judged live) (fun _ _ start => start)
          intro r run _ final
          cases r with
          | none => exact Judged.of_uncarried final
          | some _ => exact final
        exact executed.bind fun _ => finish_counted
    | .ok (.alreadyDone first) => exact fun _ _ _ => trivial
    | .ok (.busy since) => exact ends ((note_quiet _ _).bind fun _ => refusedKey_quiet _)
    | .error e =>
        apply ends
        apply (note_quiet _ _).bind
        intro _
        exact (alert_quiet ctx _ _ _ _).bind fun _ => refusedKey_quiet _
  refine ⟨unfinished_counted _ _ fun record same => (nomatch same), ?_⟩
  intro startedAt g' _
  exact Prog.Obeys.bind ((acquired startedAt _ _ ⟨rfl, rfl, rfl⟩).mono fun _ _ final => final)

end Counted

end Run

/-- A decision that the record of a live run counts as acted is carried out as counted
    exactly when the first plan covers the sells of the second. -/
theorem acted_iff_covered [InstantText] [UnicodeCase] [DebugText] [DateText] [Sha256] [FloatFloor]
    (ctx : RunContext) (live : ctx.mode = .live) (trace : List (Answered Asked Asked.Answer))
    (rest : Prog Asked Asked.Answer RunRecord) (ran : (runOnce ctx).Runs trace rest)
    (made : Answered Asked Asked.Answer) (member : made ∈ trace) (record : RunRecord)
    (finishes : made.1.op = .finish record) (d : SleeveDecision) (decided : d ∈ record.decisions)
    (acted : d.acted = true) : record.ActedOn d ↔ record.Covered d := by
  obtain ⟨before, after, rfl⟩ := List.append_of_mem member
  exact (Prog.Obeys.runs ran (Run.runOnce_counted live)).2 before made after rfl record finishes d
    decided acted

section Sample

open RebalancerCore (epochText PricePoint)
open RebalancerCore.Amount (cents)

/-- A little less than half of the capital in bitcoin. -/
private def nearHalf : BrokerSnapshot :=
  { Fund.inCash with
    cash := cents 51000
    holdings := [⟨"BTC/USD", "crypto", cents 490, some (cents 10000), cents 49000⟩] }

private def risen : BrokerSnapshot :=
  { nearHalf with
    equity := cents 104900
    derivedEquity := cents 104900
    holdings := [⟨"BTC/USD", "crypto", cents 490, some (cents 11000), cents 53900⟩] }

private def half : BrokerSnapshot :=
  { Fund.inCash with
    cash := cents 50000
    holdings := [⟨"BTC/USD", "crypto", cents 500, some (cents 10000), cents 50000⟩] }

private def risenQuotes : Std.ExtTreeMap String PricePoint :=
  (∅ : Std.ExtTreeMap String PricePoint).insert "BTC/USD" ⟨cents 11000, 0⟩

private def boughtTenth (id : String) : OrderReport :=
  ⟨id, none, "BTC/USD", some .buy, .filled, cents 10, cents 10, some (cents 10000),
    some (cents 1000), some (cents 0)⟩

private structure Market where
  planned : Bool
  bought : Bool

/-- Orders fill at once; the price rises, or not, once the first plan is made. -/
private def trading (rises : Bool) (m : Market) : (asked : Asked) → asked.Answer × Market
  | ⟨_, .broker (.snapshot _)⟩ =>
      (.ok (if m.bought then half else if rises && m.planned then risen else nearHalf), m)
  | ⟨_, .prices _ _⟩ =>
      (.ok (if rises && m.planned then risenQuotes else Fund.quotes), { m with planned := true })
  | ⟨_, .broker (.place req)⟩ =>
      (.ok (.accepted "id1" none ⟨req.symbol, req.side, req.quantity, none, 0, false⟩ []),
        { m with bought := true })
  | ⟨_, .broker (.getOrder id)⟩ => (.ok (boughtTenth id), m)
  | ⟨_, op⟩ => (Fund.calm op, m)

/-- The inputs of a plan on the holding of 4.9 bitcoin. -/
private def holdingInputs (equity value price credit : String) : String :=
  s!"rb-plan-digest-v1\naccount|fund|USD|{equity}|510|false|1970-01-01T00:00:00+00:00\npos|BTC/USD|kraken|crypto|4.9|{value}\nprice|BTC/USD|{price}|1970-01-01T00:00:00+00:00\ntarget|trend|1|kraken|crypto|BTC/USD=0.5\npolicy|0|Some((1, Active, \"1970-01-01T00:00:00+00:00\", \"1971-01-01T00:00:00+00:00\"))|300\ncfg|1970-01-01T00:00:00+00:00|1|0|0|0|{credit}|0|0\nrules|BTC/USD"

/-- The hashes of the two tags and of the inputs of the three plans. -/
@[reducible] private def holdingHash : Sha256 where
  hexDigest text :=
    if text = "rebalance:fund:19700101T000000Z:trend:BTC/USD:buy" then
      "662843c7c6af61aa215b071d8c14bd881ebd5c76130aa504125dd7c6ca24b1c2"
    else if text = "rebalance:fund:19700101T000000Z:trend:BTC/USD:sell" then
      "22fa5abb16e427155293924a51aebcc52a955372d464eca7c57623d6ec89004a"
    else if text = holdingInputs "1000" "490" "100" "true" then
      "86a209ccebdf9f4d50e280dae7b6cb731cb9fce92b81d95204bbc7ddd43ac930"
    else if text = holdingInputs "1000" "490" "100" "false" then
      "c2b7b23c1f23a5c0bae31f80147f8479763cf9936f7b2b34c016d2887b7ef742"
    else "778fe074c5b2051f2431b4da9623a8c4bba94e0a69c7c28aa6a013c6734a7051"

attribute [local instance] asciiCase epochText holdingHash Fund.dayText Fund.plainQuotes Fund.sameFloat

private def RunOp.finishes (ok : RunRecord → Bool) : RunOp → Bool
  | .finish record => ok record && record.decisions.any SleeveDecision.acted
  | _ => false

private theorem finishes_iff {ok : RunRecord → Bool} {op : RunOp} :
    op.finishes ok = true ↔
      ∃ record, op = .finish record ∧ ok record = true ∧ ∃ d ∈ record.decisions, d.acted = true := by
  unfold RunOp.finishes
  split
  next record => simp
  next other =>
      simp only [Bool.false_eq_true, false_iff, not_exists, not_and]
      exact fun record finishes => absurd finishes (other record)

/-- The price rises between the plans of a live run: the second plan sells what the first
    one bought more of, nothing is sent at all, and the decision counts as acted. -/
theorem acted_with_nothing_sent :
    ∃ trace rest, (runOnce (Fund.context .live)).Runs trace rest ∧
      ∃ made ∈ trace, ∃ record, made.1.op = .finish record ∧
        ∃ d ∈ record.decisions, d.acted = true ∧ ¬ record.ActedOn d := by
  obtain ⟨trace, rest, ran, sound⟩ : ∃ trace rest, (runOnce (Fund.context .live)).Runs trace rest ∧
      (trace.any fun made => made.1.op.finishes fun record =>
        record.placed.isEmpty && record.replan.any fun r => !r.orders.isEmpty) = true :=
    ⟨_, _, Prog.runs_traceOf (trading true) _ ⟨false, false⟩, by decide +kernel⟩
  obtain ⟨made, member, finishes⟩ := List.any_eq_true.1 sound
  obtain ⟨record, written, unsold, d, decided, acted⟩ := finishes_iff.1 finishes
  refine ⟨trace, rest, ran, made, member, record, written, d, decided, acted, ?_⟩
  intro carried
  simp only [Bool.and_eq_true, List.isEmpty_iff, Option.any_eq_true, Bool.not_eq_true'] at unsold
  obtain ⟨nothing, replan, again, wants⟩ := unsold
  cases orders : replan.orders with
  | nil => simp [orders] at wants
  | cons o os =>
      have wanted : o ∈ replan.wanted := by simp [PlanSummary.wanted, orders]
      obtain ⟨p, placed, -⟩ := carried.2 replan again o wanted
      rw [nothing] at placed
      cases placed

/-- The price stays: the buy is filled, and the decision is carried out as counted. -/
theorem bought_as_counted :
    ∃ (record : RunRecord) (d : SleeveDecision),
      record.placed ≠ [] ∧ d.acted = true ∧ record.ActedOn d := by
  obtain ⟨trace, rest, ran, sound⟩ : ∃ trace rest, (runOnce (Fund.context .live)).Runs trace rest ∧
      (trace.any fun made => made.1.op.finishes fun record => !record.placed.isEmpty &&
        record.replan.any fun r => r.skipped.isEmpty && r.wanted.all fun o => o.side == .buy) = true :=
    ⟨_, _, Prog.runs_traceOf (trading false) _ ⟨false, false⟩, by decide +kernel⟩
  obtain ⟨made, member, finishes⟩ := List.any_eq_true.1 sound
  obtain ⟨record, written, bought, d, decided, acted⟩ := finishes_iff.1 finishes
  simp only [Bool.and_eq_true, Bool.not_eq_true', Option.any_eq_true, List.isEmpty_iff,
    List.all_eq_true, beq_iff_eq, List.isEmpty_eq_false_iff] at bought
  obtain ⟨sent, replan, again, nothing, buys⟩ := bought
  have covered : record.Covered d := by
    intro plan second _ same
    obtain rfl := Option.some.inj (again.symm.trans same)
    exact ⟨fun o wanted sells => absurd ((buys o wanted).symm.trans sells) (by decide), by simp [nothing]⟩
  exact ⟨record, d, sent, acted, (acted_iff_covered (Fund.context .live) rfl trace rest ran made member
    record written d decided acted).2 covered⟩

end Sample

end RebalancerRun
