import SignalEngine.Lib.Effects

/-! # What a run has seen

A program from a given state, with the trace of its whole run: the rules follow
the program step by step, and what was seen before a step is put in front of
what is seen after it.
-/

namespace Interaction

variable {Op : Type} {Ans : Op → Type} {α β σ : Type}

/-- Every call is allowed, and the log is the trace. -/
def Law.recording : Law Op Ans (List (Answered Op Ans)) :=
  Law.logged (fun _ _ => True) fun log made => log ++ [made]

theorem foldl_recorded (trace log : List (Answered Op Ans)) :
    trace.foldl (fun log made => log ++ [made]) log = log ++ trace := by
  induction trace generalizing log with
  | nil => simp
  | cons made trace ih => simp [ih]

/-- From the state `s` every run ends in `post`, given its value, its last state and its trace. -/
def Traced (s : σ) (x : StateT σ (Prog Op Ans) α) (post : α → σ → List (Answered Op Ans) → Prop) : Prop :=
  ∀ before, (x s).Obeys Law.recording before fun r log => ∃ seen, log = before ++ seen ∧ post r.1 r.2 seen

namespace Traced

variable {s : σ} {x : StateT σ (Prog Op Ans) α} {post post' : α → σ → List (Answered Op Ans) → Prop}

theorem ran (traced : Traced s x post) {trace : List (Answered Op Ans)} {value : α} {last : σ}
    (ran : (x s).Runs trace (.done (value, last))) : post value last trace := by
  obtain ⟨seen, log, final⟩ := (Prog.Obeys.runs ran (traced [])).1
  rw [foldl_recorded, List.nil_append, List.nil_append] at log
  rwa [← log] at final

theorem mono (traced : Traced s x post) (weaker : ∀ a s' seen, post a s' seen → post' a s' seen) : Traced s x post' := by
  intro before
  apply (traced before).mono
  rintro r log ⟨seen, rfl, final⟩
  exact ⟨seen, rfl, weaker _ _ _ final⟩

theorem pure {a : α} (final : post a s []) : Traced s (Pure.pure a) post := fun _ => ⟨[], (List.append_nil _).symm, final⟩

theorem bind {f : α → StateT σ (Prog Op Ans) β} {final : β → σ → List (Answered Op Ans) → Prop} (first : Traced s x post)
    (second : ∀ a s' seen, post a s' seen → Traced s' (f a) fun b s'' later => final b s'' (seen ++ later)) :
    Traced s (x >>= f) final := by
  intro before
  apply Prog.Obeys.bind
  apply (first before).mono
  rintro r log ⟨seen, rfl, mid⟩
  apply (second r.1 r.2 seen mid (before ++ seen)).mono
  rintro r' log ⟨later, rfl, done⟩
  exact ⟨seen ++ later, List.append_assoc _ _ _, done⟩

/-- One call that leaves the state alone. -/
theorem called (op : Op) {y : StateT σ (Prog Op Ans) (Ans op)} (one : y s = .call op fun answer => .done (answer, s)) :
    Traced s y fun answer s' seen => s' = s ∧ seen = [⟨op, answer⟩] := by
  intro before
  rw [one]
  refine ⟨trivial, ?_⟩
  rintro answer log rfl
  exact ⟨[⟨op, answer⟩], rfl, rfl, rfl⟩

/-- The same, in front of the rest. -/
theorem call (op : Op) {y : StateT σ (Prog Op Ans) (Ans op)} (one : y s = .call op fun answer => .done (answer, s))
    {f : Ans op → StateT σ (Prog Op Ans) β} {final : β → σ → List (Answered Op Ans) → Prop}
    (each : ∀ answer, Traced s (f answer) fun b s' later => final b s' (⟨op, answer⟩ :: later)) :
    Traced s (y >>= f) final := by
  apply bind (called op one)
  rintro answer _ _ ⟨rfl, rfl⟩
  exact each answer

theorem and (first : Traced s x post) (second : Traced s x post') :
    Traced s x fun a s' seen => post a s' seen ∧ post' a s' seen := by
  intro before
  apply ((first before).and (second before)).mono
  rintro r log ⟨⟨seen, rfl, one⟩, seen', same, other⟩
  obtain rfl : seen = seen' := List.append_cancel_left same
  exact ⟨seen, rfl, one, other⟩

theorem through (post : α → σ → List (Answered Op Ans) → Prop) {f : α → StateT σ (Prog Op Ans) β}
    {final : β → σ → List (Answered Op Ans) → Prop} (first : Traced s x post)
    (second : ∀ a s' seen, post a s' seen → Traced s' (f a) fun b s'' later => final b s'' (seen ++ later)) :
    Traced s (x >>= f) final := bind first second

theorem get {f : σ → StateT σ (Prog Op Ans) β} {final : β → σ → List (Answered Op Ans) → Prop}
    (rest : Traced s (f s) final) : Traced s (MonadState.get >>= f) final := rest

theorem modify {g : σ → σ} {final : PUnit → σ → List (Answered Op Ans) → Prop} (after : final ⟨⟩ (g s) []) :
    Traced s (modifyGet fun s => (⟨⟩, g s)) final := fun _ => ⟨[], (List.append_nil _).symm, after⟩

/-- What is only allowed some calls makes no others. -/
theorem of_only {ok : Op → Prop} {final : α × σ → Prop} (obeys : (x s).Obeys (Law.only ok) () fun r _ => final r) :
    Traced s x fun a s' seen => final (a, s') ∧ ∀ made ∈ seen, ok made.1 := by
  have both : ∀ (p : Prog Op Ans (α × σ)) (log : List (Answered Op Ans)),
      p.Obeys (Law.only ok) () (fun r _ => final r) → p.Obeys Law.recording log fun r log' =>
        ∃ seen, log' = log ++ seen ∧ final r ∧ ∀ made ∈ seen, ok made.1 := by
    intro p
    induction p with
    | done r => exact fun log obeys => ⟨[], (List.append_nil _).symm, obeys, by simp⟩
    | call op next ih =>
        rintro log ⟨allowed, later⟩
        refine ⟨trivial, ?_⟩
        intro answer log' recorded
        obtain rfl : log' = log ++ [(⟨op, answer⟩ : Answered Op Ans)] := recorded
        apply (ih answer _ (later answer () trivial)).mono
        rintro r log'' ⟨seen, rfl, done, each⟩
        exact ⟨⟨op, answer⟩ :: seen, List.append_assoc _ _ _, done, List.forall_mem_cons.2 ⟨allowed, each⟩⟩
  exact fun before => both (x s) before obeys

theorem any : Traced s x fun _ _ _ => True := by
  have free : (x s).Obeys (Law.only fun _ : Op => True) () fun _ _ => True := Prog.obeys_of_allowed (fun _ _ => trivial) (x s) ()
  exact (of_only free).mono fun _ _ _ _ => trivial

end Traced

/-- The same for a program that may stop. -/
def TracedStep (s : σ) (x : Stopping σ Op Ans α) (stop : σ → List (Answered Op Ans) → Prop)
    (post : α → σ → List (Answered Op Ans) → Prop) : Prop :=
  Traced s x.run fun r s' seen =>
    match r with
    | some a => post a s' seen
    | none => stop s' seen

namespace TracedStep

variable {s : σ} {x : Stopping σ Op Ans α} {stop stop' : σ → List (Answered Op Ans) → Prop}
  {post post' : α → σ → List (Answered Op Ans) → Prop}

theorem mono (traced : TracedStep s x stop post) (stopped : ∀ s' seen, stop s' seen → stop' s' seen)
    (weaker : ∀ a s' seen, post a s' seen → post' a s' seen) : TracedStep s x stop' post' := by
  apply Traced.mono traced
  intro r s' seen final
  cases r with
  | none => exact stopped s' seen final
  | some a => exact weaker a s' seen final

theorem pure {a : α} (final : post a s []) : TracedStep s (Pure.pure a) stop post :=
  fun _ => ⟨[], (List.append_nil _).symm, final⟩

theorem failure (stopped : stop s []) : TracedStep s Alternative.failure stop post :=
  fun _ => ⟨[], (List.append_nil _).symm, stopped⟩

theorem bind {f : α → Stopping σ Op Ans β} {final : β → σ → List (Answered Op Ans) → Prop}
    (first : TracedStep s x stop post)
    (second : ∀ a s' seen, post a s' seen →
      TracedStep s' (f a) (fun s'' later => stop s'' (seen ++ later)) fun b s'' later => final b s'' (seen ++ later)) :
    TracedStep s (x >>= f) stop final := by
  have both : Traced s (x.run >>= fun r =>
      match r with
      | some a => (f a).run
      | none => Pure.pure none) fun r s' seen =>
        match r with
        | some b => final b s' seen
        | none => stop s' seen := by
    apply Traced.bind first
    intro r s' seen mid
    cases r with
    | none => exact Traced.pure (by rwa [List.append_nil])
    | some a => exact second a s' seen mid
  exact both

theorem lift {y : StateT σ (Prog Op Ans) α} (traced : Traced s y post) : TracedStep s (liftM y) stop post := by
  intro before
  apply Prog.Obeys.bind
  exact (traced before).mono fun r log final => final

/-- One call that leaves the state alone, in front of the rest. -/
theorem call (op : Op) {y : StateT σ (Prog Op Ans) (Ans op)} (one : y s = .call op fun answer => .done (answer, s))
    {f : Ans op → Stopping σ Op Ans β} {final : β → σ → List (Answered Op Ans) → Prop}
    (each : ∀ answer, TracedStep s (f answer) (fun s' later => stop s' (⟨op, answer⟩ :: later))
      fun b s' later => final b s' (⟨op, answer⟩ :: later)) :
    TracedStep s (liftM y >>= f) stop final := by
  apply bind (lift (Traced.called op one))
  rintro answer _ _ ⟨rfl, rfl⟩
  exact each answer

/-- What makes no call, in front of the rest. -/
theorem done {y : StateT σ (Prog Op Ans) α} {a : α} {s' : σ} (one : y s = .done (a, s')) {f : α → Stopping σ Op Ans β}
    {final : β → σ → List (Answered Op Ans) → Prop} (rest : TracedStep s' (f a) stop final) :
    TracedStep s (liftM y >>= f) stop final := by
  have single : Traced s y fun b s'' seen => b = a ∧ s'' = s' ∧ seen = [] := by
    intro before
    rw [one]
    exact ⟨[], (List.append_nil _).symm, rfl, rfl, rfl⟩
  apply bind (lift single)
  rintro _ _ _ ⟨rfl, rfl, rfl⟩
  exact rest

theorem get {f : σ → Stopping σ Op Ans β} {final : β → σ → List (Answered Op Ans) → Prop}
    (rest : TracedStep s (f s) stop final) : TracedStep s (MonadState.get >>= f) stop final := rest

end TracedStep

end Interaction
