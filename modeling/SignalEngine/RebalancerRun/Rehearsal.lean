import SignalEngine.RebalancerRun.PipelineCalls

/-! # Paper and assisted runs

A run that is not live sends nothing but validate-only requests. It does cancel,
though: an order that already carries one of its tags, or that a validate-only
request comes back accepted with, is settled like a live one.
-/

open BrokerAdapters Interaction Text

namespace RebalancerRun

open RebalancerCore (InstantText Sha256 PlannedOrder SleeveTarget OrderPlan)

/-- How often the order being settled may still be read before it is cancelled. An
    order found under a tag is journaled before it is settled. -/
def readsLeft (maxPolls : Nat) (left : Option Nat) : (op : RunOp) → op.Answer → Option Nat
  | .broker (.place _), .ok (.accepted _ _ _ _) => some maxPolls
  | .journalOrder _ _, _ => some maxPolls
  | .broker (.getOrder _), .ok r => if r.status.isTerminal then none else left.map fun n => n - 1
  | .broker (.sleepSecs _), _ => left
  | _, _ => none

def readsAfter (maxPolls : Nat) (trace : List (Answered Asked Asked.Answer)) : Option Nat :=
  trace.foldl (fun left made => readsLeft maxPolls left made.1.op made.2) none

/-- At some point of the run an order it found was read `maxPolls` times and had not ended. -/
def Lingers (maxPolls : Nat) (trace : List (Answered Asked Asked.Answer)) : Prop :=
  ∃ before, before <+: trace ∧ readsAfter maxPolls before = some 0

/-- No effect at the broker: a paper run only has orders checked, an assisted run sends
    none, and neither cancels one. -/
def NoEffect (mode : ExecutionMode) (trace : List (Answered Asked Asked.Answer)) : Prop :=
  (∀ made ∈ trace, made.1.op.isCancel = false) ∧
    (mode = .paper → ∀ made ∈ trace, made.1.op.isRealPlace = false) ∧
    (mode = .assisted → ∀ made ∈ trace, made.1.op.isPlace = false)

/-- A cancel is due exactly when no reads are left. -/
def mayRehearsing (ctx : RunContext) (left : Option Nat) (asked : Asked) : Prop :=
  (asked.op.isCancel = true ↔ left = some 0) ∧
    (asked.op.isPlace = true → ctx.mode = .paper ∧ asked.op.isRealPlace = false)

def rehearsalLaw (ctx : RunContext) : Law Asked Asked.Answer (Option Nat) :=
  Law.logged (mayRehearsing ctx) fun left made =>
    readsLeft ctx.config.maxPolls left made.1.op made.2

namespace Run

variable {ctx : RunContext}

def Idle (left : Option Nat) : Prop := left = none

theorem quiet_noEffect {asked : Asked} (quiet : asked.quiet) (maxPolls : Nat) (left : Option Nat) :
    asked.op.isCancel = false ∧ asked.op.isPlace = false ∧
      ∀ answer, readsLeft maxPolls left asked.op answer = none := by
  obtain ⟨run, op⟩ := asked
  cases op with
  | broker op => cases op <;> simp_all [Asked.quiet, RunOp.quiet, RunOp.isCancel, RunOp.isPlace, readsLeft]
  | _ => simp_all [Asked.quiet, RunOp.quiet, RunOp.isCancel, RunOp.isPlace, readsLeft]

theorem quiet_idle (left : Option Nat) (asked : Asked) (idle : Idle left) (quiet : asked.quiet) :
    (rehearsalLaw ctx).allowed left asked ∧
      ∀ answer left', (rehearsalLaw ctx).next left asked answer left' → Idle left' := by
  obtain ⟨cancel, place, ended⟩ := quiet_noEffect quiet ctx.config.maxPolls left
  constructor
  · constructor
    · simp [cancel, show left = none from idle]
    · simp [place]
  · rintro answer left' rfl
    exact ended answer

theorem rehearse_ask {op : RunOp} {pre : Option Nat → Prop} {post : op.Answer → Option Nat → Prop}
    (allowed : ∀ left, pre left → (op.isCancel = true ↔ left = some 0) ∧
      (op.isPlace = true → ctx.mode = .paper ∧ op.isRealPlace = false))
    (next : ∀ left answer, pre left → post answer (readsLeft ctx.config.maxPolls left op answer)) :
    Triple (rehearsalLaw ctx) (fun _ left => pre left) (askFor op) fun answer _ left => post answer left := by
  intro run left start
  refine ⟨allowed left start, ?_⟩
  rintro answer left' rfl
  exact next left answer start

theorem getOrder_rehearsed (id : String) (n : Nat) :
    Triple (rehearsalLaw ctx) (fun _ left => left = some (n + 1)) (getOrder id) fun answer _ left =>
      match answer with
      | .ok r => if r.status.isTerminal then Idle left else left = some n
      | .error _ => Idle left := by
  apply rehearse_ask
  · rintro left rfl
    simp [RunOp.isCancel, RunOp.isPlace]
  · rintro left answer rfl
    match answer with
    | .error e => rfl
    | .ok r =>
        dsimp only [readsLeft]
        split
        · rfl
        · simp

theorem sleepSecs_rehearsed (secs n : Nat) (more : n ≠ 0) :
    Triple (rehearsalLaw ctx) (fun _ left => left = some n) (sleepSecs secs) fun _ _ left =>
      left = some n := by
  apply rehearse_ask
  · rintro left rfl
    simp [RunOp.isCancel, RunOp.isPlace, more]
  · rintro left answer rfl
    rfl

theorem cancelAndSettle_rehearsed (id : String) :
    Triple (rehearsalLaw ctx) (fun _ left => left = some 0) (cancelAndSettle id) fun _ _ left =>
      Idle left := by
  apply rehearse_ask
  · rintro left rfl
    simp [RunOp.isCancel, RunOp.isPlace]
  · rintro left answer rfl
    rfl

theorem journalOrder_rehearsed (key : RunKey) (entry : JournalEntry) :
    Triple (rehearsalLaw ctx) (fun _ left => Idle left) (journalOrder key entry) fun _ _ left =>
      left = some ctx.config.maxPolls := by
  apply rehearse_ask
  · rintro left ⟨⟩
    simp [RunOp.isCancel, RunOp.isPlace]
  · rintro left answer ⟨⟩
    rfl

theorem pollPlaced_rehearsed [DebugText] (id : String) (n : Nat) : ∀ placed,
    Triple (rehearsalLaw ctx) (fun _ left => left = some n) (pollPlaced ctx id n placed)
      fun r _ left => if r.2 then Idle left else left = some 0 := by
  induction n with
  | zero =>
      intro placed run left start
      exact start
  | succ n ih =>
      intro placed
      apply Triple.bind (getOrder_rehearsed id n)
      intro answer
      match answer with
      | .error e => exact fun _ _ start => start
      | .ok r =>
          dsimp only
          by_cases ended : r.status.isTerminal = true
          · simp only [ended, if_true]
            exact fun _ _ start => start
          · simp only [ended, Bool.false_eq_true, if_false]
            split
            next last => exact ih _
            next more => exact Triple.bind (sleepSecs_rehearsed _ n more) fun _ => ih _

theorem settleInto_rehearsed [DebugText] (placed : PlacedOrder) (id : String) :
    Triple (rehearsalLaw ctx) (fun _ left => left = some ctx.config.maxPolls)
      (settleInto ctx placed id) fun _ _ left => Idle left := by
  apply Triple.bind Triple.modify
  intro _
  apply Triple.bind (pollPlaced_rehearsed id _ _)
  intro r
  match r with
  | (placed, true) => exact fun _ _ start => start
  | (placed, false) =>
      apply Triple.bind ((cancelAndSettle_rehearsed id).weaken (fun _ _ start => start) fun _ _ _ final => final)
      intro answer
      match answer with
      | .ok (outcome, r) => exact fun _ _ start => start
      | .error e => exact fun _ _ start => start

theorem adopt_rehearsed [DebugText] (placed : PlacedOrder) (first : OrderReport) :
    Triple (rehearsalLaw ctx) (fun _ left => Idle left) (adopt ctx placed first) fun _ _ left =>
      Idle left := by
  apply Triple.bind (journalOrder_rehearsed _ _)
  intro answer
  match answer with
  | .ok () => exact settleInto_rehearsed _ _
  | .error e => exact settleInto_rehearsed _ _

theorem findByTag_rehearsed (tag : String) :
    Triple (rehearsalLaw ctx) (fun _ left => Idle left) (findByTag tag) fun _ _ left => Idle left :=
  Quiet.triple (askFor_quiet rfl) quiet_idle

theorem lookUpUnknown_rehearsed [DebugText] (o : PlannedOrder) (phase : Phase) (reason : String) :
    Triple (rehearsalLaw ctx) (fun _ left => Idle left) (lookUpUnknown ctx o phase reason)
      fun _ _ left => Idle left := by
  apply Triple.bind (findByTag_rehearsed _)
  intro answer
  match answer with
  | .ok (first :: others) => exact Triple.bind (adopt_rehearsed _ _) fun _ _ _ start => start
  | .ok [] => exact fun _ _ start => start
  | .error e => exact fun _ _ start => start

theorem place_rehearsed (paper : ctx.mode = .paper) (o : PlannedOrder) :
    Triple (rehearsalLaw ctx) (fun _ left => Idle left) (place (requestFor o true)) fun answer _ left =>
      match answer with
      | .ok (.accepted _ _ _ _) => left = some ctx.config.maxPolls
      | _ => Idle left := by
  apply rehearse_ask
  · rintro left ⟨⟩
    simp [RunOp.isCancel, RunOp.isPlace, RunOp.isRealPlace, requestFor, paper]
  · rintro left answer ⟨⟩
    match answer with
    | .ok (.accepted _ _ _ _) => rfl
    | .ok (.validatedOnly _ _ _) => rfl
    | .ok (.rejected _ _) => rfl
    | .ok (.unknownOutcome _ _) => rfl
    | .error e => rfl

theorem executeOrder_rehearsed [DebugText] (paper : ctx.mode = .paper) (o : PlannedOrder) :
    Triple (rehearsalLaw ctx) (fun _ left => Idle left) (executeOrder ctx o .rehearsal)
      fun _ _ left => Idle left := by
  apply Triple.bind Triple.get
  intro run
  split
  · exact fun _ _ start => start
  · split
    · exact fun _ _ start => start
    · apply Triple.bind (findByTag_rehearsed _)
      intro answer
      match answer with
      | .error e => exact fun _ _ start => start
      | .ok (first :: others) => exact adopt_rehearsed _ _
      | .ok [] =>
          apply Triple.bind (place_rehearsed paper o)
          intro answer
          match answer with
          | .ok (.accepted id _ _ _) => exact settleInto_rehearsed _ _
          | .ok (.validatedOnly _ _ _) => exact fun _ _ start => start
          | .ok (.rejected _ _) => exact fun _ _ start => start
          | .ok (.unknownOutcome reason _) => exact lookUpUnknown_rehearsed _ _ _
          | .error e => exact fun _ _ start => start

section Whole

variable [InstantText] [UnicodeCase] [DebugText] [DateText] [Sha256] [FloatFloor]

omit [DateText] [FloatFloor] in
theorem stepExecute_rehearsed (notLive : ctx.mode ≠ .live) (targets : List SleeveTarget)
    (plan : OrderPlan) :
    Stepwise (rehearsalLaw ctx) (fun _ left => Idle left) (stepExecute ctx targets plan)
      (fun _ left => Idle left) fun _ _ left => Idle left := by
  unfold stepExecute
  cases mode : ctx.mode with
  | live => exact absurd mode notLive
  | assisted => exact QuietStep.stepwise (QuietStep.lift (writeTickets_quiet plan)) quiet_idle
  | paper =>
      apply Stepwise.bind
      · apply Stepwise.lift
        apply Triple.forM
        intro o _
        apply Triple.bind (executeOrder_rehearsed mode o)
        intro p
        exact Calls.triple (modifyRec_calls _) quiet_idle
      · intro _
        exact QuietStep.stepwise (QuietStep.lift (note_quiet _ _)) quiet_idle

/-- A run that is not live obeys the law of rehearsals, whatever it is answered. -/
theorem runOnce_rehearsed (notLive : ctx.mode ≠ .live) :
    (runOnce ctx).Obeys (rehearsalLaw ctx) none fun _ left => Idle left :=
  runOnce_notLive notLive quiet_idle (stepExecute_rehearsed notLive) rfl

def quietLaw : Law Asked Asked.Answer Unit := Law.logged (fun _ asked => asked.quiet) fun _ _ => ()

theorem runOnce_assisted (assisted : ctx.mode = .assisted) :
    (runOnce ctx).Obeys quietLaw () fun _ _ => True := by
  have quietly : ∀ (g : Unit) (asked : Asked), True → asked.quiet →
      quietLaw.allowed g asked ∧ ∀ answer g', quietLaw.next g asked answer g' → True :=
    fun _ _ _ quiet => ⟨quiet, fun _ _ _ => trivial⟩
  apply runOnce_notLive (by simp [assisted]) quietly _ trivial
  intro targets plan
  unfold stepExecute
  rw [assisted]
  exact QuietStep.stepwise (QuietStep.lift (writeTickets_quiet plan)) quietly

end Whole

end Run

section Whole

variable [InstantText] [UnicodeCase] [DebugText] [DateText] [Sha256] [FloatFloor]
  {ctx : RunContext} {trace : List (Answered Asked Asked.Answer)} {record : RunRecord}

theorem assisted_quiet (assisted : ctx.mode = .assisted) (ran : (runOnce ctx).Runs trace (.done record)) :
    ∀ made ∈ trace, made.1.quiet := by
  intro made member
  obtain ⟨before, after, split⟩ := List.append_of_mem member
  exact (Prog.Obeys.runs ran (Run.runOnce_assisted assisted)).2 before made after split

/-- A run that is not live cancels exactly when an order it found lingers. -/
theorem cancels_iff (notLive : ctx.mode ≠ .live) (ran : (runOnce ctx).Runs trace (.done record)) :
    (trace.any fun made => made.1.op.isCancel) = true ↔ Lingers ctx.config.maxPolls trace := by
  obtain ⟨final, lawful⟩ := Prog.Obeys.runs ran (Run.runOnce_rehearsed notLive)
  rw [List.any_eq_true]
  constructor
  · rintro ⟨made, member, cancels⟩
    obtain ⟨before, after, split⟩ := List.append_of_mem member
    refine ⟨before, ⟨made :: after, split.symm⟩, ?_⟩
    exact (lawful before made after split).1.mp cancels
  · rintro ⟨before, ⟨after, split⟩, due⟩
    cases after with
    | nil =>
        -- The run never ends while an order is being settled.
        have idle : readsAfter ctx.config.maxPolls trace = none := final
        rw [List.append_nil] at split
        rw [split, idle] at due
        exact absurd due (by simp)
    | cons made after =>
        refine ⟨made, by simp [← split], ?_⟩
        exact (lawful before made after split.symm).1.mpr due

/-- An assisted run has no effect at the broker. A paper run has none exactly when no
    order that it finds is still open after the last read. -/
theorem rehearsal_noEffect (notLive : ctx.mode ≠ .live) (ran : (runOnce ctx).Runs trace (.done record)) :
    (ctx.mode = .assisted → NoEffect ctx.mode trace) ∧
      (NoEffect ctx.mode trace ↔ ¬ Lingers ctx.config.maxPolls trace) := by
  have lawful := (Prog.Obeys.runs ran (Run.runOnce_rehearsed notLive)).2
  have noPlace : ctx.mode = .assisted → ∀ made ∈ trace, made.1.op.isPlace = false := by
    intro assisted made member
    exact (Run.quiet_noEffect (assisted_quiet assisted ran made member) 0 none).2.1
  have checked : ∀ made ∈ trace, made.1.op.isRealPlace = false := by
    intro made member
    obtain ⟨before, after, split⟩ := List.append_of_mem member
    cases sends : made.1.op.isRealPlace with
    | false => rfl
    | true =>
        rw [← sends]
        exact ((lawful before made after split).2 (RunOp.isPlace_of_isRealPlace sends)).2
  have noCancel : (∀ made ∈ trace, made.1.op.isCancel = false) ↔
      ¬ Lingers ctx.config.maxPolls trace := by
    rw [← cancels_iff notLive ran, List.any_eq_true]
    simp only [not_exists, not_and, Bool.not_eq_true]
  constructor
  · intro assisted
    refine ⟨?_, fun _ => checked, noPlace⟩
    intro made member
    exact (Run.quiet_noEffect (assisted_quiet assisted ran made member) 0 none).1
  · rw [← noCancel]
    exact ⟨fun noEffect => noEffect.1, fun none => ⟨none, fun _ => checked, noPlace⟩⟩

end Whole

section Sample

open RebalancerCore (epochText)
open RebalancerCore.Amount (cents)

attribute [local instance] asciiCase epochText Fund.planHash Fund.dayText Fund.plainQuotes Fund.sameFloat

/-- An earlier buy under the tag of this run's buy, not filled yet. -/
private def openBuy : OrderReport :=
  ⟨"id1", some "rb1:19700101T000000Z:BTCUSD:buy:662843c7c6af61aa215b", "BTC/USD", some .buy, .open,
    cents 500, cents 0, none, none, none⟩

private def stillOpen : Unit → (asked : Asked) → asked.Answer × Unit
  | w, ⟨_, .broker (.findByTag _)⟩ => (.ok [openBuy], w)
  | w, ⟨_, .broker (.getOrder _)⟩ => (.ok openBuy, w)
  | w, ⟨_, .broker (.cancelAndSettle _)⟩ => (.ok (⟨1, false⟩, { openBuy with status := .canceled }), w)
  | w, ⟨_, op⟩ => (Fund.calm op, w)

private def calmly (w : Unit) (asked : Asked) : asked.Answer × Unit := (Fund.calm asked.op, w)

private theorem not_noEffect {mode : ExecutionMode} {trace : List (Answered Asked Asked.Answer)}
    (cancels : (trace.any fun made => made.1.op.isCancel) = true) : ¬ NoEffect mode trace := by
  rintro ⟨noCancel, -⟩
  obtain ⟨made, member, cancel⟩ := List.any_eq_true.1 cancels
  rw [noCancel made member] at cancel
  contradiction

/-- A paper run cancels the open order that it finds under its tag. -/
theorem paper_run_cancels :
    ∃ trace record, (runOnce (Fund.context .paper)).Runs trace (.done record) ∧
      ¬ NoEffect (Fund.context .paper).mode trace :=
  ⟨_, _, Prog.runs_traceOf stillOpen _ (), not_noEffect (by decide +kernel)⟩

/-- Where no order carries its tag, the same run only has its buy checked. -/
theorem calm_paper_run_noEffect :
    ∃ trace record, (runOnce (Fund.context .paper)).Runs trace (.done record) ∧
      (trace.any fun made => made.1.op.isPlace) = true ∧
      NoEffect (Fund.context .paper).mode trace := by
  have ran := Prog.runs_traceOf calmly (runOnce (Fund.context .paper)) ()
  refine ⟨_, _, ran, by decide +kernel, ?_⟩
  apply (rehearsal_noEffect (by decide) ran).2.mpr
  rw [← cancels_iff (by decide) ran]
  decide +kernel

end Sample

end RebalancerRun
