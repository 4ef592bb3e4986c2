import SignalEngine.Lib.Interaction

/-! # The calls of a run

The trace of a program: its calls with the answers they got. Rules for programs
that can stop early, and for what a program may call at all.
-/

namespace Interaction

variable {Op : Type} {Ans : Op → Type} {α β σ G W : Type}

/-- A call that was answered. -/
abbrev Answered (Op : Type) (Ans : Op → Type) := (op : Op) × Ans op

namespace Prog

/-- After the answered calls of `trace`, `rest` is left of the program. -/
inductive Runs : Prog Op Ans α → List (Answered Op Ans) → Prog Op Ans α → Prop where
  | nil (p : Prog Op Ans α) : Runs p [] p
  | cons {op : Op} {next : Ans op → Prog Op Ans α} {answer : Ans op}
      {trace : List (Answered Op Ans)} {rest : Prog Op Ans α} (later : Runs (next answer) trace rest) :
      Runs (.call op next) (⟨op, answer⟩ :: trace) rest

/-- The trace against an environment that answers from its own state. -/
def traceOf (reply : W → (op : Op) → Ans op × W) : Prog Op Ans α → W → List (Answered Op Ans)
  | done _, _ => []
  | call op next, w => ⟨op, (reply w op).1⟩ :: (next (reply w op).1).traceOf reply (reply w op).2

def resultOf (reply : W → (op : Op) → Ans op × W) : Prog Op Ans α → W → α
  | done value, _ => value
  | call op next, w => (next (reply w op).1).resultOf reply (reply w op).2

/-- The environment after the run. -/
def stateOf (reply : W → (op : Op) → Ans op × W) : Prog Op Ans α → W → W
  | done _, w => w
  | call op next, w => (next (reply w op).1).stateOf reply (reply w op).2

/-- A lawful program ends in `post` against every environment that answers lawfully. -/
theorem Obeys.served {law : Law Op Ans G} {reply : W → (op : Op) → Ans op × W} {view : W → G}
    {p : Prog Op Ans α} {post : α → G → Prop}
    (lawful : ∀ w op, law.next (view w) op (reply w op).1 (view (reply w op).2)) :
    ∀ {w : W}, p.Obeys law (view w) post → post (p.resultOf reply w) (view (p.stateOf reply w)) := by
  induction p with
  | done value =>
      intro w obeys
      exact obeys
  | call op next ih =>
      intro w obeys
      exact ih _ (obeys.2 _ _ (lawful w op))

/-- What every answer keeps, a program keeps, whatever it calls. -/
theorem obeys_of_answers {law : Law Op Ans G} {R : G → G → Prop} (refl : ∀ g, R g g)
    (trans : ∀ {g g' g''}, R g g' → R g' g'' → R g g'') (allowed : ∀ g op, law.allowed g op)
    (one : ∀ {g op answer g'}, law.next g op answer g' → R g g') (p : Prog Op Ans α) :
    ∀ g, p.Obeys law g fun _ g' => R g g' := by
  induction p with
  | done value => exact refl
  | call op next ih =>
      intro g
      refine ⟨allowed g op, fun answer g' step => ?_⟩
      exact (ih answer g').mono fun _ _ later => trans (one step) later

theorem Obeys.and {law : Law Op Ans G} {p : Prog Op Ans α} {post post' : α → G → Prop} : ∀ {g : G},
    p.Obeys law g post → p.Obeys law g post' → p.Obeys law g fun a g' => post a g' ∧ post' a g' := by
  induction p with
  | done value =>
      intro g first second
      exact ⟨first, second⟩
  | call op next ih =>
      rintro g ⟨ok, first⟩ ⟨-, second⟩
      exact ⟨ok, fun answer g' step => ih answer (first answer g' step) (second answer g' step)⟩

theorem runs_traceOf (reply : W → (op : Op) → Ans op × W) (p : Prog Op Ans α) :
    ∀ w, Runs p (p.traceOf reply w) (.done (p.resultOf reply w)) := by
  induction p with
  | done value =>
      intro w
      exact .nil _
  | call op next ih =>
      intro w
      exact .cons (ih _ _)

end Prog

/-- A law whose log is a function of the calls and answers so far. -/
def Law.logged (allowed : G → Op → Prop) (log : G → Answered Op Ans → G) : Law Op Ans G where
  allowed := allowed
  next := fun g op answer g' => g' = log g ⟨op, answer⟩

/-- Every call of a run was allowed when it was made, and the rest of the program is
    lawful after the log of the run. -/
theorem Prog.Obeys.runs {allowed : G → Op → Prop} {log : G → Answered Op Ans → G}
    {p rest : Prog Op Ans α} {trace : List (Answered Op Ans)} {post : α → G → Prop}
    (ran : p.Runs trace rest) : ∀ {g : G}, p.Obeys (Law.logged allowed log) g post →
      rest.Obeys (Law.logged allowed log) (trace.foldl log g) post ∧
      ∀ before made after, trace = before ++ made :: after → allowed (before.foldl log g) made.1 := by
  induction ran with
  | nil p =>
      intro g obeys
      exact ⟨obeys, by simp⟩
  | @cons op next answer trace rest later ih =>
      rintro g ⟨ok, onward⟩
      obtain ⟨final, earlier⟩ := ih (onward answer _ rfl)
      refine ⟨final, ?_⟩
      intro before made after split
      cases before with
      | nil =>
          obtain ⟨rfl, -⟩ := List.cons.inj split
          exact ok
      | cons first before =>
          obtain ⟨rfl, same⟩ := List.cons.inj split
          exact earlier before made after same

/-! ## Programs that can stop early -/

/-- A program with a local state that may stop before its end. -/
abbrev Stopping (σ : Type) (Op : Type) (Ans : Op → Type) := OptionT (StateT σ (Prog Op Ans))

/-- From `pre` only allowed calls; `post` at the end, `stop` if it stops early. -/
def Stepwise (law : Law Op Ans G) (pre : σ → G → Prop) (x : Stopping σ Op Ans α)
    (stop : σ → G → Prop) (post : α → σ → G → Prop) : Prop :=
  Triple law pre x.run fun r s g =>
    match r with
    | some a => post a s g
    | none => stop s g

namespace Stepwise

variable {law : Law Op Ans G} {pre pre' stop stop' : σ → G → Prop} {x : Stopping σ Op Ans α}
  {post post' : α → σ → G → Prop}

theorem weaken (h : Stepwise law pre x stop post) (stronger : ∀ s g, pre' s g → pre s g)
    (stopped : ∀ s g, stop s g → stop' s g) (weaker : ∀ a s g, post a s g → post' a s g) :
    Stepwise law pre' x stop' post' := by
  apply Triple.weaken h stronger
  intro r s g final
  cases r with
  | none => exact stopped s g final
  | some a => exact weaker a s g final

theorem bind {f : α → Stopping σ Op Ans β} {final : β → σ → G → Prop}
    (first : Stepwise law pre x stop post)
    (second : ∀ a, Stepwise law (post a) (f a) stop final) :
    Stepwise law pre (x >>= f) stop final := by
  have both : Triple law pre (x.run >>= fun r =>
      match r with
      | some a => (f a).run
      | none => Pure.pure none) fun r s g =>
        match r with
        | some b => final b s g
        | none => stop s g := by
    apply Triple.bind first
    intro r
    cases r with
    | none => exact fun _ _ start => start
    | some a => exact second a
  exact both

/-- The same, with what holds in between given. -/
theorem through (post : α → σ → G → Prop) {f : α → Stopping σ Op Ans β} {final : β → σ → G → Prop}
    (first : Stepwise law pre x stop post)
    (second : ∀ a, Stepwise law (post a) (f a) stop final) :
    Stepwise law pre (x >>= f) stop final := bind first second

theorem reading {f : σ → Stopping σ Op Ans β} {final : β → σ → G → Prop}
    (h : ∀ now, Stepwise law (fun s g => s = now ∧ pre s g) (f now) stop final) :
    Stepwise law pre (MonadState.get >>= f) stop final := fun s g start => h s s g ⟨rfl, start⟩

theorem lift {y : StateT σ (Prog Op Ans) α} (h : Triple law pre y post) :
    Stepwise law pre (liftM y : Stopping σ Op Ans α) stop post := by
  intro s g start
  apply Prog.Obeys.bind
  exact (h s g start).mono fun r g' final => final

end Stepwise

/-! ## What a program may call -/

/-- Only calls in `ok`, whatever the answers. -/
def Law.only (ok : Op → Prop) : Law Op Ans Unit where
  allowed := fun _ op => ok op
  next := fun _ _ _ _ => True

/-- What a program returns, it returns under every law that allows its calls. -/
theorem Prog.Obeys.under {ok : Op → Prop} {law : Law Op Ans G} {p : Prog Op Ans α} {post : α → Prop}
    (obeys : p.Obeys (Law.only ok) () fun a _ => post a) (allowed : ∀ g op, ok op → law.allowed g op)
    {g : G} : p.Obeys law g fun a _ => post a := by
  induction p generalizing g with
  | done => exact obeys
  | call op next ih =>
      exact ⟨allowed g op obeys.1, fun answer g' _ => ih answer (obeys.2 answer () trivial)⟩

def Calls (ok : Op → Prop) (x : StateT σ (Prog Op Ans) α) : Prop :=
  Triple (Law.only ok) (fun _ _ => True) x fun _ _ _ => True

def StepCalls (ok : Op → Prop) (x : Stopping σ Op Ans α) : Prop := Calls ok x.run

namespace Calls

variable {ok ok' : Op → Prop} {x : StateT σ (Prog Op Ans) α}

theorem mono (h : Calls ok x) (weaker : ∀ op, ok op → ok' op) : Calls ok' x := by
  intro s g _
  have obeys := h s g trivial
  generalize x s = p at obeys
  induction p with
  | done => trivial
  | call op next ih => exact ⟨weaker op obeys.1, fun answer g' _ => ih answer (obeys.2 answer g' trivial)⟩

theorem pure {value : α} : Calls ok (Pure.pure value : StateT σ (Prog Op Ans) α) := fun _ _ _ => trivial

theorem modify {f : σ → σ} : Calls ok (modifyGet fun s => (⟨⟩, f s) : StateT σ (Prog Op Ans) PUnit) := fun _ _ _ => trivial

theorem get : Calls ok (MonadState.get : StateT σ (Prog Op Ans) σ) := fun _ _ _ => trivial

theorem bind {f : α → StateT σ (Prog Op Ans) β} (first : Calls ok x) (second : ∀ a, Calls ok (f a)) :
    Calls ok (x >>= f) :=
  Triple.bind first fun a => (second a).weaken (fun _ _ _ => trivial) fun _ _ _ _ => trivial

/-- A program of quiet calls keeps what the quiet calls keep. -/
theorem triple (h : Calls ok x) {law : Law Op Ans G} {P : G → Prop}
    (quiet : ∀ g op, P g → ok op → law.allowed g op ∧ ∀ answer g', law.next g op answer g' → P g') :
    Triple law (fun _ g => P g) x fun _ _ g => P g := by
  intro s g start
  have obeys := h s () trivial
  generalize x s = p at obeys
  induction p generalizing g with
  | done => exact start
  | call op next ih =>
      obtain ⟨allowed, keeps⟩ := quiet g op start obeys.1
      exact ⟨allowed, fun answer g' step => ih answer g' (keeps answer g' step) (obeys.2 answer () trivial)⟩

end Calls

namespace StepCalls

variable {ok : Op → Prop} {x : Stopping σ Op Ans α}

theorem pure {value : α} : StepCalls ok (Pure.pure value : Stopping σ Op Ans α) := fun _ _ _ => trivial

theorem get : StepCalls ok (MonadState.get : Stopping σ Op Ans σ) := fun _ _ _ => trivial

theorem modify {f : σ → σ} : StepCalls ok (modifyGet fun s => (⟨⟩, f s) : Stopping σ Op Ans PUnit) :=
  fun _ _ _ => trivial

theorem failure : StepCalls ok (Alternative.failure : Stopping σ Op Ans α) := fun _ _ _ => trivial

theorem bind {f : α → Stopping σ Op Ans β} (first : StepCalls ok x)
    (second : ∀ a, StepCalls ok (f a)) : StepCalls ok (x >>= f) := by
  have both : Calls ok (x.run >>= fun r =>
      match r with
      | some a => (f a).run
      | none => Pure.pure none) := by
    apply Calls.bind first
    intro r
    cases r with
    | none => exact Calls.pure
    | some a => exact second a
  exact both

theorem lift {y : StateT σ (Prog Op Ans) α} (h : Calls ok y) :
    StepCalls ok (liftM y : Stopping σ Op Ans α) := by
  intro s g start
  apply Prog.Obeys.bind
  exact (h s g start).mono fun r g' final => final

theorem stepwise (h : StepCalls ok x) {law : Law Op Ans G} {P : G → Prop}
    (quiet : ∀ g op, P g → ok op → law.allowed g op ∧ ∀ answer g', law.next g op answer g' → P g') :
    Stepwise law (fun _ g => P g) x (fun _ g => P g) fun _ _ g => P g := by
  apply (Calls.triple h quiet).weaken (fun _ _ start => start)
  intro r s g final
  cases r with
  | none => exact final
  | some a => exact final

end StepCalls

/-! ## What a program leaves as it was -/

/-- A relation between two moments of a run that composes. -/
structure Frame (R : σ → G → σ → G → Prop) : Prop where
  refl : ∀ s g, R s g s g
  trans : ∀ {s g s' g' s'' g''}, R s g s' g' → R s' g' s'' g'' → R s g s'' g''

/-- Only allowed calls, and `R` between the start and the end. -/
def Framed (law : Law Op Ans G) (R : σ → G → σ → G → Prop) (x : StateT σ (Prog Op Ans) α) : Prop :=
  ∀ s g, (x s).Obeys law g fun r g' => R s g r.2 g'

/-- The same, for a program that does not stop early. -/
def FramedStep (law : Law Op Ans G) (R : σ → G → σ → G → Prop) (x : Stopping σ Op Ans α) : Prop :=
  ∀ s g, (x.run s).Obeys law g fun r g' => r.1.isSome = true → R s g r.2 g'

section Frame

variable {law : Law Op Ans G} {R R' : σ → G → σ → G → Prop}

namespace Framed

variable {x : StateT σ (Prog Op Ans) α}

theorem bind (frame : Frame R)
    {f : α → StateT σ (Prog Op Ans) β} (first : Framed law R x) (second : ∀ a, Framed law R (f a)) :
    Framed law R (x >>= f) := by
  intro s g
  apply Prog.Obeys.bind
  apply (first s g).mono
  intro r g' here
  exact (second r.1 r.2 g').mono fun _ _ onward => frame.trans here onward

theorem forM (frame : Frame R) {γ : Type} {f : γ → StateT σ (Prog Op Ans) PUnit} {items : List γ}
    (each : ∀ item ∈ items, Framed law R (f item)) : Framed law R (items.forM f) := by
  induction items with
  | nil => exact fun s g => frame.refl s g
  | cons item items ih =>
      apply bind frame (each item (by simp))
      intro _
      exact ih fun later member => each later (by simp [member])

/-- A program that may stop early, framed at both ends. -/
theorem stepBind (frame : Frame R) {y : Stopping σ Op Ans α} {f : α → Stopping σ Op Ans β}
    (first : Framed law R y.run) (second : ∀ a, Framed law R (f a).run) : Framed law R (y >>= f).run := by
  have both : Framed law R (y.run >>= fun r =>
      match r with
      | some a => (f a).run
      | none => Pure.pure none) := by
    apply bind frame first
    intro r
    cases r with
    | none => exact fun s g => frame.refl s g
    | some a => exact second a
  exact both

theorem stepLift (h : Framed law R x) : Framed law R (liftM x : Stopping σ Op Ans α).run := by
  intro s g
  apply Prog.Obeys.bind
  exact (h s g).mono fun _ _ related => related

/-- A frame on the local state holds under every law that allows the calls. -/
theorem under {ok : Op → Prop} {S : σ → σ → Prop} (h : Framed (Law.only ok) (fun s (_ : Unit) s' _ => S s s') x)
    (allowed : ∀ g op, ok op → law.allowed g op) : Framed law (fun s _ s' _ => S s s') x :=
  fun s _ => (h s ()).under allowed

/-- What `R` keeps, the program keeps. -/
theorem keeps (h : Framed law R x) {P : σ → G → Prop}
    (stable : ∀ {s g s' g'}, R s g s' g' → P s g → P s' g') :
    Triple law P x fun _ => P := by
  intro s g start
  exact (h s g).mono fun _ _ related => stable related start

end Framed

namespace FramedStep

variable {x : Stopping σ Op Ans α}

theorem mono (h : FramedStep law R x) (weaker : ∀ {s g s' g'}, R s g s' g' → R' s g s' g') :
    FramedStep law R' x := fun s g => (h s g).mono fun _ _ related ended => weaker (related ended)

theorem bind (frame : Frame R)
    {f : α → Stopping σ Op Ans β} (first : FramedStep law R x) (second : ∀ a, FramedStep law R (f a)) :
    FramedStep law R (x >>= f) := by
  intro s g
  apply Prog.Obeys.bind
  apply (first s g).mono
  intro r g' here
  obtain ⟨result, s'⟩ := r
  cases result with
  | none =>
      intro ended
      cases ended
  | some a => exact (second a s' g').mono fun _ _ onward ended => frame.trans (here rfl) (onward ended)

theorem lift {y : StateT σ (Prog Op Ans) α} (h : Framed law R y) :
    FramedStep law R (liftM y : Stopping σ Op Ans α) := by
  intro s g
  apply Prog.Obeys.bind
  exact (h s g).mono fun r g' related => (fun _ => related : _ → R s g r.2 g')

/-- A program that always stops leaves nothing to show. -/
theorem of_stops (h : Stepwise law (fun _ _ => True) x (fun _ _ => True) fun _ _ _ => False) :
    FramedStep law R x := by
  intro s g
  apply (h s g trivial).mono
  intro r g' final ended
  obtain ⟨result, s'⟩ := r
  cases result with
  | none => cases ended
  | some a => exact absurd final id

theorem keeps (h : FramedStep law R x) {P : σ → G → Prop}
    (stable : ∀ {s g s' g'}, R s g s' g' → P s g → P s' g') :
    Stepwise law P x (fun _ _ => True) fun _ => P := by
  intro s g start
  apply (h s g).mono
  intro r g' related
  obtain ⟨result, s'⟩ := r
  cases result with
  | none => trivial
  | some a => exact stable (related rfl) start

end FramedStep

end Frame

end Interaction
