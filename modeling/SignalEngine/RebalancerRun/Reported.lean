import SignalEngine.RebalancerRun.PipelineCalls
import SignalEngine.Lib.Traced

/-! # Orders that may exist

An order that was accepted, or found under its tag, is read to its end or the
run halts. The exceptions are adopted orders: one that outlives its cancel keeps
the look of a finished one, and only the first of several is followed.
-/

open BrokerAdapters Interaction Text

namespace RebalancerRun

open RebalancerCore (InstantText Sha256 PlannedOrder)

abbrev Trace := List (Answered Asked Asked.Answer)

/-- The ids of the orders an answer speaks of: the one accepted, or those found under the tag. -/
def sighted (tag : String) : (op : RunOp) → op.Answer → List String
  | .broker (.place _), .ok (.accepted id _ _ _) => [id]
  | .broker (.findByTag t), .ok found => if t = tag then found.map OrderReport.brokerOrderId else []
  | _, _ => []

def sightings (tag : String) (trace : Trace) : List String := trace.flatMap fun made => sighted tag made.1.op made.2

def isUnknown : (op : RunOp) → op.Answer → Bool
  | .broker (.place _), .ok (.unknownOutcome _ _) => true
  | _, _ => false

def sentUnknown (trace : Trace) : Bool := trace.any fun made => isUnknown made.1.op made.2

def Said (trace : Trace) (op : RunOp) (answer : op.Answer) : Prop :=
  ∃ run, (⟨⟨run, op⟩, answer⟩ : Answered Asked Asked.Answer) ∈ trace

def Adopts (tag : String) (trace : Trace) : Prop :=
  ∃ first others, Said trace (.broker (.findByTag tag)) (.ok (first :: others))

/-- What the broker reported of an order: its answer for the id, or what it listed under the tag. -/
inductive ReportOf (tag : String) (trace : Trace) (id : String) (r : OrderReport) : Prop where
  | read (answered : Said trace (.broker (.getOrder id)) (.ok r))
  | cancelled (outcome : CancelOutcome) (answered : Said trace (.broker (.cancelAndSettle id)) (.ok (outcome, r)))
  | listed (found : List OrderReport) (answered : Said trace (.broker (.findByTag tag)) (.ok found))
      (member : r ∈ found) (named : r.brokerOrderId = id)

/-- The order carries a report that it has ended. -/
def PlacedOrder.Tells (p : PlacedOrder) (tag : String) (trace : Trace) (id : String) : Prop :=
  ∃ r ∈ p.reports, r.status.isTerminal = true ∧ ReportOf tag trace id r

variable {tag id : String} {was : PlacedOutcome} {p : PlacedOrder} {before : Trace}

theorem Said.append_left (after : Trace) {op : RunOp} {answer : op.Answer} (said : Said before op answer) :
    Said (before ++ after) op answer := by
  obtain ⟨run, member⟩ := said
  exact ⟨run, List.mem_append_left _ member⟩

theorem Said.append_right (before : Trace) {after : Trace} {op : RunOp} {answer : op.Answer} (said : Said after op answer) :
    Said (before ++ after) op answer := by
  obtain ⟨run, member⟩ := said
  exact ⟨run, List.mem_append_right _ member⟩

theorem said_now {run : Run} {op : RunOp} {answer : op.Answer} (after : Trace) :
    Said ((⟨⟨run, op⟩, answer⟩ : Answered Asked Asked.Answer) :: after) op answer := ⟨run, List.mem_cons_self⟩

theorem ReportOf.later {r : OrderReport} (before : Trace) {after : Trace} (report : ReportOf tag after id r) :
    ReportOf tag (before ++ after) id r := by
  cases report with
  | read answered => exact .read (answered.append_right before)
  | cancelled outcome answered => exact .cancelled outcome (answered.append_right before)
  | listed found answered member named => exact .listed found (answered.append_right before) member named

/-! ## Following an order -/

theorem sightings_append (tag : String) (before after : Trace) :
    sightings tag (before ++ after) = sightings tag before ++ sightings tag after := List.flatMap_append

theorem sightings_cons (tag : String) (made : Answered Asked Asked.Answer) (after : Trace) :
    sightings tag (made :: after) = sighted tag made.1.op made.2 ++ sightings tag after := List.flatMap_cons

/-- Calls that say nothing of orders under a tag, and send none. -/
def Wordless (trace : Trace) : Prop := (∀ tag, sightings tag trace = []) ∧ sentUnknown trace = false

theorem Wordless.append {after : Trace} (first : Wordless before) (second : Wordless after) :
    Wordless (before ++ after) := by
  constructor
  · intro tag
    rw [sightings_append, first.1 tag, second.1 tag, List.append_nil]
  · rw [sentUnknown, List.any_append]
    exact Bool.or_eq_false_iff.2 ⟨first.2, second.2⟩

theorem wordless_nil : Wordless [] := ⟨fun _ => rfl, rfl⟩

/-- How an order stands once it was followed; `was` is its outcome before. -/
inductive Fate (trace : Trace) (id : String) (was : PlacedOutcome) (p : PlacedOrder) : Prop where
  | ended (r : OrderReport) (member : r ∈ p.reports) (terminal : r.status.isTerminal = true)
      (answered : ∀ tag, ReportOf tag trace id r) (outcome : p.outcome ≠ .notSent ∧ p.outcome ≠ .rejected)
  | doubtful (noted : p.anomalies ≠ [])
  | unsettled (outcome : p.outcome = .unsettled)
  /-- Adopted, and still live after its cancel. -/
  | lingers (adopted : was = .adoptedExisting) (outcome : p.outcome = .adoptedExisting) (cancel : CancelOutcome) (r : OrderReport)
      (answered : Said trace (.broker (.cancelAndSettle id)) (.ok (cancel, r))) (live : r.status.isTerminal = false)

theorem Fate.later (before : Trace) {after : Trace} (fate : Fate after id was p) :
    Fate (before ++ after) id was p := by
  cases fate with
  | ended r member terminal answered outcome =>
      exact .ended r member terminal (fun tag => (answered tag).later before) outcome
  | doubtful noted => exact .doubtful noted
  | unsettled outcome => exact .unsettled outcome
  | lingers adopted outcome cancel r answered live =>
      exact .lingers adopted outcome cancel r (answered.append_right before) live

def Followable (was : PlacedOutcome) : Prop := was = .notSent ∨ was = .adoptedExisting

/-- An order that was followed from the outcome `was`. -/
structure Followed (tag : String) (was : PlacedOutcome) (id : String) (p : PlacedOrder) (seen : Trace) : Prop where
  tag : p.tag = tag
  known : p.outcome ≠ .unknownNotFound
  wordless : Wordless seen
  fate : Fate seen id was p

theorem Followed.later {after : Trace} (wordless : Wordless before) (followed : Followed tag was id p after) :
    Followed tag was id p (before ++ after) :=
  ⟨followed.tag, followed.known, wordless.append followed.wordless, followed.fate.later before⟩

theorem Followed.described {seen : Trace} (detail : String) (followed : Followed tag was id p seen) :
    Followed tag was id { p with detail } seen := by
  refine ⟨followed.tag, followed.known, followed.wordless, ?_⟩
  cases followed.fate with
  | ended r member terminal answered outcome => exact .ended r member terminal answered outcome
  | doubtful noted => exact .doubtful noted
  | unsettled outcome => exact .unsettled outcome
  | lingers adopted outcome cancel r answered live => exact .lingers adopted outcome cancel r answered live

theorem finalize_ended {placed : PlacedOrder} {r : OrderReport} (was : Followable placed.outcome) (ended : r.status.isTerminal = true) :
    (Run.finalize placed r).outcome ≠ .notSent ∧ (Run.finalize placed r).outcome ≠ .rejected ∧
      (Run.finalize placed r).outcome ≠ .unknownNotFound := by
  unfold Run.finalize Run.outcomeOf
  rcases was with unsent | adopted
  · simp only [unsent, reduceCtorEq, if_false, ended, Bool.and_true, if_true]
    split
    · decide
    · split <;> decide
  · simp [adopted]

/-- A live order is unsettled, unless it was adopted. -/
theorem finalize_live {placed : PlacedOrder} {r : OrderReport} (live : r.status.isTerminal = false) :
    (Run.finalize placed r).outcome = if placed.outcome = .adoptedExisting then .adoptedExisting else .unsettled := by
  have unfilled : r.status ≠ .filled := by
    intro filled
    rw [filled] at live
    cases live
  simp [Run.finalize, Run.outcomeOf, live, unfilled]

namespace Run

theorem asking {α : Type} {run : Run} (op : RunOp) {f : op.Answer → RunM α} {final : α → Run → Trace → Prop}
    (each : ∀ answer, Traced run (f answer) fun a run' later => final a run' (⟨⟨run, op⟩, answer⟩ :: later)) :
    Traced run (askFor op >>= f) final := Traced.call (⟨run, op⟩ : Asked) rfl each

variable [DebugText] {ctx : RunContext}

theorem pollPlaced_traced (id : String) (left : Nat) : ∀ (placed : PlacedOrder) (run : Run), Followable placed.outcome →
    Traced run (pollPlaced ctx id left placed) fun r _ seen =>
      if r.2 then Followed placed.tag placed.outcome id r.1 seen
      else r.1.tag = placed.tag ∧ r.1.outcome = placed.outcome ∧ Wordless seen := by
  induction left with
  | zero => exact fun placed run _ => Traced.pure ⟨rfl, rfl, wordless_nil⟩
  | succ left ih =>
      intro placed run was
      have rest : ∀ (r : OrderReport) (run' : Run) (seen : Trace), Wordless seen →
          Traced run' (pollPlaced ctx id left { placed with status := some r.status }) fun a _ later =>
            if a.2 then Followed placed.tag placed.outcome id a.1 (seen ++ later)
            else a.1.tag = placed.tag ∧ a.1.outcome = placed.outcome ∧ Wordless (seen ++ later) := by
        intro r run' seen wordless
        apply (ih { placed with status := some r.status } run' was).mono
        intro a _ later final
        by_cases done : a.2 = true
        · rw [if_pos done] at final ⊢
          exact ⟨final.tag, final.known, wordless.append final.wordless, final.fate.later seen⟩
        · rw [if_neg done] at final ⊢
          exact ⟨final.1, final.2.1, wordless.append final.2.2⟩
      refine asking (.broker (.getOrder id)) fun answer => ?_
      have wordless : Wordless [(⟨⟨run, .broker (.getOrder id)⟩, answer⟩ : Answered Asked Asked.Answer)] := ⟨fun _ => rfl, rfl⟩
      match answer with
      | .error e =>
          apply Traced.pure
          have noted : (unreadable placed e).anomalies ≠ [] := by simp [unreadable]
          have known : (unreadable placed e).outcome ≠ .unknownNotFound := by
            unfold unreadable
            rcases was with unsent | adopted
            · split <;> simp [unsent]
            · split <;> simp [adopted]
          exact ⟨rfl, known, wordless, .doubtful noted⟩
      | .ok r =>
          dsimp only
          by_cases ended : r.status.isTerminal = true
          · rw [if_pos ended]
            refine Traced.pure ?_
            obtain ⟨notUnsent, notRejected, known⟩ := finalize_ended was ended
            exact ⟨rfl, known, wordless, .ended r (by simp [finalize]) ended (fun tag => .read (said_now _)) ⟨notUnsent, notRejected⟩⟩
          · rw [if_neg ended]
            split
            · exact rest r run _ wordless
            · refine asking (.broker (.sleepSecs ctx.config.pollSecs)) fun slept => ?_
              have waited : Wordless [(⟨⟨run, .broker (.sleepSecs ctx.config.pollSecs)⟩, slept⟩ : Answered Asked Asked.Answer)] :=
                ⟨fun _ => rfl, rfl⟩
              exact rest r run _ (wordless.append waited)

theorem settleInto_traced {placed : PlacedOrder} (was : Followable placed.outcome) (id : String) (run : Run) :
    Traced run (settleInto ctx placed id) fun p _ seen => Followed placed.tag placed.outcome id p seen := by
  apply Traced.through (fun _ _ seen => seen = []) (Traced.modify rfl)
  rintro _ run' _ rfl
  apply Traced.bind (pollPlaced_traced id ctx.config.maxPolls { placed with brokerOrderId := some id } run' was)
  rintro ⟨p, done⟩ run'' seen polled
  match done with
  | true =>
      rw [if_pos rfl] at polled
      apply Traced.pure
      rw [List.append_nil]
      exact ⟨polled.tag, polled.known, polled.wordless, polled.fate⟩
  | false =>
      obtain ⟨tag, outcome, wordless⟩ := polled
      dsimp only at outcome
      refine asking (.broker (.cancelAndSettle id)) fun answer => ?_
      have later : Wordless [(⟨⟨run'', .broker (.cancelAndSettle id)⟩, answer⟩ : Answered Asked Asked.Answer)] := ⟨fun _ => rfl, rfl⟩
      match answer with
      | .error e => exact Traced.pure ⟨tag, by simp, wordless.append later, .unsettled rfl⟩
      | .ok (cancel, r) =>
          apply Traced.pure
          have was' : Followable p.outcome := by rwa [outcome]
          have answered : Said (seen ++ [⟨⟨run'', .broker (.cancelAndSettle id)⟩, .ok (cancel, r)⟩])
              (.broker (.cancelAndSettle id)) (.ok (cancel, r)) := (said_now []).append_right seen
          cases ended : r.status.isTerminal with
          | true =>
              obtain ⟨notUnsent, notRejected, known⟩ := finalize_ended was' ended
              exact ⟨tag, known, wordless.append later,
                .ended r (by simp [finalize]) ended (fun tag => .cancelled cancel answered) ⟨notUnsent, notRejected⟩⟩
          | false =>
              have live : (finalize p r).outcome = _ := finalize_live ended
              by_cases adopted : p.outcome = .adoptedExisting
              · rw [if_pos adopted] at live
                exact ⟨tag, by simp [live], wordless.append later,
                  .lingers (outcome.symm.trans adopted) live cancel r answered ended⟩
              · rw [if_neg adopted] at live
                exact ⟨tag, by simp [live], wordless.append later, .unsettled live⟩

omit [DebugText] in
theorem withAnomaly_tag (placed : PlacedOrder) (found : Bool) (text : String) : (withAnomaly placed found text).tag = placed.tag := by
  cases found <;> rfl

theorem journaled_traced {placed : PlacedOrder} (was : Followable placed.outcome) (entry : JournalEntry) (id : String)
    (text : RunStoreError → String) (run : Run) :
    Traced run (do
        match ← journalOrder ctx.key entry with
        | .ok () => settleInto ctx placed id
        | .error e => settleInto ctx (withAnomaly placed true (text e)) id)
      fun p _ seen => Followed placed.tag placed.outcome id p seen := by
  refine asking (.journalOrder ctx.key entry) fun answer => ?_
  have quiet : Wordless [(⟨⟨run, .journalOrder ctx.key entry⟩, answer⟩ : Answered Asked Asked.Answer)] := ⟨fun _ => rfl, rfl⟩
  match answer with
  | .ok () => exact (settleInto_traced was id run).mono fun p _ seen followed => followed.later quiet
  | .error e =>
      have noted : Followable (withAnomaly placed true (text e)).outcome := was
      exact (settleInto_traced noted id run).mono fun p _ seen followed => followed.later quiet

theorem adopt_traced (placed : PlacedOrder) (first : OrderReport) (run : Run) :
    Traced run (adopt ctx placed first) fun p _ seen =>
      Followed placed.tag .adoptedExisting first.brokerOrderId p seen := journaled_traced (.inr rfl) _ _ _ run

end Run

inductive Became (tag : String) (p : PlacedOrder) (seen : Trace) : Prop where
  /-- It was not sent, or refused. -/
  | absent (ids : sightings tag seen = []) (surely : sentUnknown seen = false) (known : p.outcome ≠ .unknownNotFound)
  /-- It may have been sent, and was not found. -/
  | unknown (ids : sightings tag seen = []) (outcome : p.outcome = .unknownNotFound)
  | accepted (id : String) (ids : sightings tag seen = [id]) (known : p.outcome ≠ .unknownNotFound)
      (fate : Fate seen id .notSent p)
  | adopted (first : OrderReport) (others : List OrderReport)
      (found : Said seen (.broker (.findByTag tag)) (.ok (first :: others)))
      (ids : sightings tag seen = (first :: others).map OrderReport.brokerOrderId) (known : p.outcome ≠ .unknownNotFound)
      (fate : Fate seen first.brokerOrderId .adoptedExisting p)

theorem Became.later {after : Trace} (wordless : Wordless before) (became : Became tag p after) :
    Became tag p (before ++ after) := by
  have same : sightings tag (before ++ after) = sightings tag after := by
    rw [sightings_append, wordless.1 tag, List.nil_append]
  cases became with
  | absent ids surely known =>
      refine .absent (same.trans ids) ?_ known
      rw [sentUnknown, List.any_append]
      exact Bool.or_eq_false_iff.2 ⟨wordless.2, surely⟩
  | unknown ids outcome => exact .unknown (same.trans ids) outcome
  | accepted id ids known fate => exact .accepted id (same.trans ids) known (fate.later before)
  | adopted first others found ids known fate =>
      exact .adopted first others (found.append_right before) (same.trans ids) known (fate.later before)

theorem Followed.accepted {seen : Trace} (followed : Followed tag .notSent id p seen) (before : Trace)
    (ids : sightings tag before = [id]) : p.tag = tag ∧ Became tag p (before ++ seen) := by
  refine ⟨followed.tag, .accepted id ?_ followed.known (followed.fate.later before)⟩
  rw [sightings_append, ids, followed.wordless.1 tag, List.append_nil]

theorem Followed.adopted {first : OrderReport} {others : List OrderReport} {p : PlacedOrder} {seen : Trace}
    (followed : Followed tag .adoptedExisting first.brokerOrderId p seen) (before : Trace)
    (ids : sightings tag before = []) (run : Run) :
    p.tag = tag ∧ Became tag p (before ++ ⟨⟨run, .broker (.findByTag tag)⟩, .ok (first :: others)⟩ :: seen) := by
  refine ⟨followed.tag, .adopted first others ((said_now _).append_right before) ?_ followed.known
    ((followed.fate.later [_]).later before)⟩
  rw [sightings_append, ids, sightings_cons, followed.wordless.1 tag, List.append_nil, List.nil_append]
  exact if_pos rfl

namespace Run

variable [DebugText] {ctx : RunContext}

variable (o : PlannedOrder) (phase : Phase)

theorem accepted_traced (id : String) (run : Run) :
    Traced run (accepted ctx o phase id) fun p _ seen => Followed o.tag .notSent id p seen := by
  unfold accepted
  split
  · exact settleInto_traced (.inl rfl) id run
  · exact journaled_traced (.inl rfl) _ _ _ run

theorem lookUpUnknown_traced (o : PlannedOrder) (phase : Phase) (reason : String) (run : Run) (before : Trace)
    (unsighted : sightings o.tag before = []) : Traced run (lookUpUnknown ctx o phase reason) fun p _ seen =>
      p.tag = o.tag ∧ Became o.tag p (before ++ seen) := by
  unfold lookUpUnknown
  refine asking (.broker (.findByTag o.tag)) fun answer => ?_
  match answer with
  | .ok [] =>
      refine Traced.pure ⟨rfl, .unknown ?_ rfl⟩
      rw [sightings_append, unsighted, sightings_cons, List.nil_append, List.append_eq_nil_iff]
      exact ⟨if_pos rfl, rfl⟩
  | .error e =>
      refine Traced.pure ⟨rfl, .unknown ?_ rfl⟩
      rw [sightings_append, unsighted]
      rfl
  | .ok (first :: others) =>
      apply Traced.bind (adopt_traced _ first run)
      intro p run' seen followed
      apply Traced.pure
      rw [List.append_nil]
      rw [withAnomaly_tag] at followed
      exact (followed.described _).adopted before unsighted run

theorem sendOrder_traced (run : Run) : Traced run (sendOrder ctx o phase) fun p _ seen =>
    p.tag = o.tag ∧ Became o.tag p seen := by
  unfold sendOrder
  refine asking (.broker (.place (requestFor o (phase = .rehearsal)))) fun answer => ?_
  match answer with
  | .ok (.accepted id _ _ _) =>
      apply (accepted_traced o phase id run).mono
      intro p _ seen followed
      exact followed.accepted [_] rfl
  | .ok (.validatedOnly _ _ _) => exact Traced.pure ⟨rfl, .absent rfl rfl (by simp)⟩
  | .ok (.rejected errors _) => exact Traced.pure ⟨rfl, .absent rfl rfl (by simp)⟩
  | .ok (.unknownOutcome reason _) => exact lookUpUnknown_traced o phase reason run [_] rfl
  | .error e => exact Traced.pure ⟨rfl, .absent rfl rfl (by simp [unsent])⟩

theorem journalAndSend_traced (run : Run) :
    Traced run (journalAndSend ctx o phase) fun p _ seen => p.tag = o.tag ∧ Became o.tag p seen := by
  unfold journalAndSend
  split
  · exact sendOrder_traced o phase run
  · refine asking (.journalOrder ctx.key ⟨o.tag, none, o.notional⟩) fun answer => ?_
    have quiet : Wordless [(⟨⟨run, .journalOrder ctx.key ⟨o.tag, none, o.notional⟩⟩, answer⟩ : Answered Asked Asked.Answer)] :=
      ⟨fun _ => rfl, rfl⟩
    match answer with
    | .ok () => exact (sendOrder_traced o phase run).mono fun p _ seen sent => ⟨sent.1, sent.2.later quiet⟩
    | .error e => exact Traced.pure ⟨rfl, .absent rfl rfl (by simp [unsent])⟩

theorem executeOrder_traced (run : Run) :
    Traced run (executeOrder ctx o phase) fun p _ seen => p.tag = o.tag ∧ Became o.tag p seen := by
  have unsent_absent : ∀ (text : String) (seen : Trace), sightings o.tag seen = [] → sentUnknown seen = false →
      (unsent o phase text).tag = o.tag ∧ Became o.tag (unsent o phase text) seen :=
    fun text seen ids surely => ⟨rfl, .absent ids surely (by simp [unsent])⟩
  apply Traced.get
  split
  · exact Traced.pure (unsent_absent _ _ rfl rfl)
  · split
    · exact Traced.pure (unsent_absent _ _ rfl rfl)
    · refine asking (.broker (.findByTag o.tag)) fun answer => ?_
      match answer with
      | .error e => exact Traced.pure (unsent_absent _ _ rfl rfl)
      | .ok (first :: others) =>
          apply (adopt_traced _ first run).mono
          intro p _ seen followed
          rw [withAnomaly_tag] at followed
          exact followed.adopted [] rfl run
      | .ok [] =>
          apply (journalAndSend_traced o phase run).mono
          rintro p _ seen ⟨tag, became⟩
          have quiet : Wordless [(⟨⟨run, .broker (.findByTag o.tag)⟩, .ok []⟩ : Answered Asked Asked.Answer)] := by
            refine ⟨fun t => ?_, rfl⟩
            rw [sightings_cons, List.append_eq_nil_iff]
            exact ⟨ite_self _, rfl⟩
          exact ⟨tag, became.later quiet⟩

end Run

end RebalancerRun
