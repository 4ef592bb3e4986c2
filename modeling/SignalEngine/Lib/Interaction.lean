import Mathlib.Data.List.Basic

/-! # Programs that call an environment

A program is a tree of calls; the environment picks each answer, and may move on
its own between two calls. A law says which calls a program may make and what a
log of the answers records. The rules below prove a program lawful piece by
piece, and carry an invariant of the environment through every run of it,
abandoned and started again at any point.
-/

namespace Interaction

inductive Prog (Op : Type) (Ans : Op → Type) (α : Type) where
  | done (value : α)
  | call (op : Op) (next : Ans op → Prog Op Ans α)

variable {Op : Type} {Ans : Op → Type} {α β σ G : Type}

namespace Prog

protected def bind : Prog Op Ans α → (α → Prog Op Ans β) → Prog Op Ans β
  | done value, f => f value
  | call op next, f => call op fun answer => (next answer).bind f

instance : Monad (Prog Op Ans) where
  pure := done
  bind := Prog.bind

/-- One call, with its answer. -/
def ask (op : Op) : Prog Op Ans (Ans op) := call op done

end Prog

/-- Which calls may be made after the log `G`, and the logs an answer leads to. -/
structure Law (Op : Type) (Ans : Op → Type) (G : Type) where
  allowed : G → Op → Prop
  next : G → (op : Op) → Ans op → G → Prop

variable {law : Law Op Ans G}

/-- Whatever the answers, every call is allowed and the program ends in `post`. -/
def Prog.Obeys (law : Law Op Ans G) : Prog Op Ans α → G → (α → G → Prop) → Prop
  | done value, g, post => post value g
  | call op next, g, post =>
      law.allowed g op ∧
        ∀ answer g', law.next g op answer g' → (next answer).Obeys law g' post

theorem Prog.Obeys.mono {x : Prog Op Ans α} {post post' : α → G → Prop}
    (weaker : ∀ a g, post a g → post' a g) : ∀ {g : G}, x.Obeys law g post → x.Obeys law g post' := by
  induction x with
  | done value =>
      intro g obeys
      exact weaker value g obeys
  | call op next ih =>
      rintro g ⟨allowed, later⟩
      exact ⟨allowed, fun answer g' step => ih answer (later answer g' step)⟩

theorem Prog.Obeys.ask {op : Op} {f : Ans op → Prog Op Ans β} {g : G} {post : β → G → Prop}
    (allowed : law.allowed g op)
    (later : ∀ answer g', law.next g op answer g' → (f answer).Obeys law g' post) :
    (Prog.ask op >>= f).Obeys law g post :=
  ⟨allowed, later⟩

theorem Prog.Obeys.bind {x : Prog Op Ans α} {f : α → Prog Op Ans β} {post : β → G → Prop} :
    ∀ {g : G}, x.Obeys law g (fun a g' => (f a).Obeys law g' post) → (x >>= f).Obeys law g post := by
  induction x with
  | done value =>
      intro g obeys
      exact obeys
  | call op next ih =>
      rintro g ⟨allowed, later⟩
      exact ⟨allowed, fun answer g' step => ih answer (later answer g' step)⟩

/-- Where every call is allowed, every program is lawful. -/
theorem Prog.obeys_of_allowed (free : ∀ g op, law.allowed g op) (x : Prog Op Ans α) :
    ∀ g, x.Obeys law g fun _ _ => True := by
  induction x with
  | done value => exact fun _ => trivial
  | call op next ih => exact fun g => ⟨free g op, fun answer g' _ => ih answer g'⟩

/-! ## Programs with a local state -/

/-- One call, inside a program that also carries a local state. -/
def ask (op : Op) : StateT σ (Prog Op Ans) (Ans op) := fun s => .call op fun answer => .done (answer, s)

/-- From `pre` the program makes only allowed calls, and it ends in `post`. -/
def Triple (law : Law Op Ans G) (pre : σ → G → Prop) (x : StateT σ (Prog Op Ans) α)
    (post : α → σ → G → Prop) : Prop :=
  ∀ s g, pre s g → Prog.Obeys law (x s) g fun r g' => post r.1 r.2 g'

namespace Triple

variable {pre pre' : σ → G → Prop} {x : StateT σ (Prog Op Ans) α} {post post' : α → σ → G → Prop}

theorem weaken (h : Triple law pre x post) (stronger : ∀ s g, pre' s g → pre s g)
    (weaker : ∀ a s g, post a s g → post' a s g) : Triple law pre' x post' := by
  intro s g start
  exact (h s g (stronger s g start)).mono fun r g' final => weaker r.1 r.2 g' final

theorem pure {value : α} : Triple law (post value) (pure value) post := fun _ _ start => start

theorem bind {f : α → StateT σ (Prog Op Ans) β} {final : β → σ → G → Prop}
    (first : Triple law pre x post) (second : ∀ a, Triple law (post a) (f a) final) :
    Triple law pre (x >>= f) final := by
  intro s g start
  apply Prog.Obeys.bind
  exact (first s g start).mono fun r g' mid => second r.1 r.2 g' mid

/-- Changes and readings of the local state, for what only the log decides. -/
theorem modify {P : G → Prop} {f : σ → σ} :
    Triple law (fun _ g => P g) (modify f) fun _ _ g => P g := fun _ _ start => start

theorem get {P : G → Prop} : Triple law (fun (_ : σ) g => P g) get fun _ _ g => P g :=
  fun _ _ start => start

/-- What is read of the local state is the local state. -/
theorem reading {f : σ → StateT σ (Prog Op Ans) β} {final : β → σ → G → Prop}
    (h : ∀ now, Triple law (fun s g => s = now ∧ pre s g) (f now) final) :
    Triple law pre (MonadState.get >>= f) final := fun s g start => h s s g ⟨rfl, start⟩

theorem ask {op : Op} {post : Ans op → σ → G → Prop} :
    Triple law (fun s g => law.allowed g op ∧ ∀ answer g', law.next g op answer g' → post answer s g')
      (ask op) post := fun _ _ start => start

theorem forM {γ : Type} {I : σ → G → Prop} {f : γ → StateT σ (Prog Op Ans) PUnit} {items : List γ}
    (each : ∀ item ∈ items, Triple law I (f item) fun _ => I) :
    Triple law I (items.forM f) fun _ => I := by
  induction items with
  | nil => exact fun _ _ start => start
  | cons item items ih =>
      apply bind (each item (by simp))
      intro _
      exact ih fun later member => each later (by simp [member])

end Triple

/-! ## Runs -/

/-- How the environment `W` answers calls (`none`: not an answer it can give) and
    moves on its own, and the programs that may be started in it. -/
structure Machine (Op : Type) (Ans : Op → Type) (W E S α : Type) where
  reply : W → (op : Op) → Ans op → Option W
  move : W → E → Option W
  start : S → Prog Op Ans α

inductive Event (Op : Type) (Ans : Op → Type) (E S : Type) where
  | reply (op : Op) (answer : Ans op)
  | move (e : E)
  /-- The program, finished or not, is dropped and another one is started. -/
  | restart (s : S)

structure Config (Op : Type) (Ans : Op → Type) (W α : Type) where
  prog : Prog Op Ans α
  world : W

namespace Machine

variable {W E S : Type} [DecidableEq Op] (m : Machine Op Ans W E S α)

def step (c : Config Op Ans W α) : Event Op Ans E S → Option (Config Op Ans W α)
  | .reply op answer =>
      match c.prog with
      | .done _ => none
      | .call asked next =>
          if same : op = asked then
            (m.reply c.world op answer).map fun world => ⟨next (same ▸ answer), world⟩
          else none
  | .move e => (m.move c.world e).map fun world => { c with world }
  | .restart s => some { c with prog := m.start s }

def run (c : Config Op Ans W α) (events : List (Event Op Ans E S)) : Option (Config Op Ans W α) :=
  events.foldlM m.step c

/-- Every step of the run is taken under the condition `C`. -/
def Guarded (C : W → Event Op Ans E S → Prop) : Config Op Ans W α → List (Event Op Ans E S) → Prop
  | _, [] => True
  | c, event :: events =>
      C c.world event ∧
        match m.step c event with
        | some c' => Guarded C c' events
        | none => True

instance decidableGuarded {C : W → Event Op Ans E S → Prop} [∀ w event, Decidable (C w event)] :
    (c : Config Op Ans W α) → (events : List (Event Op Ans E S)) → Decidable (m.Guarded C c events)
  | _, [] => isTrue trivial
  | c, event :: events =>
      have : Decidable (match m.step c event with
          | some c' => m.Guarded C c' events
          | none => True) :=
        match m.step c event with
        | some c' => decidableGuarded c' events
        | none => isTrue trivial
      inferInstanceAs (Decidable (_ ∧ _))

variable {m} {c c' : Config Op Ans W α}

theorem step_cases {event : Event Op Ans E S} (h : m.step c event = some c') :
    (∃ op answer next, event = .reply op answer ∧ c.prog = .call op next ∧
      c'.prog = next answer ∧ m.reply c.world op answer = some c'.world) ∨
    (∃ e, event = .move e ∧ c'.prog = c.prog ∧ m.move c.world e = some c'.world) ∨
    (∃ s, event = .restart s ∧ c'.prog = m.start s ∧ c'.world = c.world) := by
  cases event with
  | reply op answer =>
      left
      simp only [step] at h
      split at h
      next => simp at h
      next asked next called =>
          split at h
          next same =>
              subst same
              simp only [Option.map_eq_some_iff] at h
              obtain ⟨world, replied, rfl⟩ := h
              exact ⟨op, answer, next, rfl, called, rfl, replied⟩
          next => simp at h
  | move e =>
      right; left
      simp only [step, Option.map_eq_some_iff] at h
      obtain ⟨world, moved, rfl⟩ := h
      exact ⟨e, rfl, rfl, moved⟩
  | restart s =>
      right; right
      cases h
      exact ⟨s, rfl, rfl, rfl⟩

theorem Guarded.cons {C : W → Event Op Ans E S → Prop} {event : Event Op Ans E S}
    {events : List (Event Op Ans E S)} (guarded : m.Guarded C c (event :: events))
    (stepped : m.step c event = some c') : C c.world event ∧ m.Guarded C c' events := by
  rw [Guarded, stepped] at guarded
  exact guarded

/-- A run, one event at a time. -/
theorem run_reply {op : Op} {answer : Ans op} {next : Ans op → Prog Op Ans α} {w : W}
    {events : List (Event Op Ans E S)} :
    m.run ⟨.call op next, w⟩ (.reply op answer :: events) =
      (m.reply w op answer).bind fun w' => m.run ⟨next answer, w'⟩ events := by
  cases replied : m.reply w op answer <;> simp [run, step, replied]

theorem run_move {p : Prog Op Ans α} {e : E} {w : W} {events : List (Event Op Ans E S)} :
    m.run ⟨p, w⟩ (.move e :: events) = (m.move w e).bind fun w' => m.run ⟨p, w'⟩ events := by
  cases moved : m.move w e <;> simp [run, step, moved]

theorem run_restart {p : Prog Op Ans α} {s : S} {w : W} {events : List (Event Op Ans E S)} :
    m.run ⟨p, w⟩ (.restart s :: events) = m.run ⟨m.start s, w⟩ events := by
  simp [run, step]

theorem run_nil (c : Config Op Ans W α) : m.run c [] = some c := rfl

theorem guarded_true (c : Config Op Ans W α) (events : List (Event Op Ans E S)) :
    m.Guarded (fun _ _ => True) c events := by
  induction events generalizing c with
  | nil => trivial
  | cons event events ih =>
      refine ⟨trivial, ?_⟩
      split
      · exact ih _
      · trivial

theorem run_cons {event : Event Op Ans E S} {events : List (Event Op Ans E S)}
    (ran : m.run c (event :: events) = some c') :
    ∃ mid, m.step c event = some mid ∧ m.run mid events = some c' := by
  simpa only [run, List.foldlM_cons, Option.bind_eq_bind, Option.bind_eq_some_iff] using ran

theorem guarded_append {C : W → Event Op Ans E S → Prop} {first second : List (Event Op Ans E S)} :
    ∀ {c mid : Config Op Ans W α}, m.Guarded C c (first ++ second) → m.run c first = some mid →
      m.Guarded C c first ∧ m.Guarded C mid second := by
  induction first with
  | nil =>
      intro c mid guarded ran
      cases ran
      exact ⟨trivial, guarded⟩
  | cons event first ih =>
      intro c mid guarded ran
      obtain ⟨c', stepped, rest⟩ := run_cons ran
      obtain ⟨here, later⟩ := guarded.cons stepped
      obtain ⟨before, after⟩ := ih later rest
      refine ⟨⟨here, ?_⟩, after⟩
      rw [stepped]
      exact before

/-- An invariant `I` between the log and the environment that moves, allowed
    calls and restarts keep under `C`. -/
structure Invariant (m : Machine Op Ans W E S α) (law : Law Op Ans G)
    (C : W → Event Op Ans E S → Prop) (I : G → W → Prop) : Prop where
  move : ∀ {g w e w'}, I g w → C w (.move e) → m.move w e = some w' → I g w'
  reply : ∀ {g w op answer w'}, I g w → law.allowed g op → C w (.reply op answer) →
    m.reply w op answer = some w' → ∃ g', law.next g op answer g' ∧ I g' w'
  restart : ∀ {g w s}, I g w → C w (.restart s) →
    ∃ g', (m.start s).Obeys law g' (fun _ _ => True) ∧ I g' w

/-- The rest of the program is lawful after some log that fits the environment. -/
def Lawful (law : Law Op Ans G) (I : G → W → Prop) (c : Config Op Ans W α) : Prop :=
  ∃ g, c.prog.Obeys law g (fun _ _ => True) ∧ I g c.world

variable {C : W → Event Op Ans E S → Prop} {I : G → W → Prop}

theorem Invariant.step (inv : Invariant m law C I) {event : Event Op Ans E S}
    (lawful : Lawful law I c) (ok : C c.world event) (h : m.step c event = some c') :
    Lawful law I c' := by
  obtain ⟨g, obeys, holds⟩ := lawful
  obtain ⟨op, answer, next, rfl, called, prog, replied⟩ | ⟨e, rfl, prog, moved⟩ |
    ⟨s, rfl, prog, world⟩ := step_cases h
  · rw [called] at obeys
    obtain ⟨g', logged, holds'⟩ := inv.reply holds obeys.1 ok replied
    refine ⟨g', ?_, holds'⟩
    rw [prog]
    exact obeys.2 answer g' logged
  · refine ⟨g, ?_, inv.move holds ok moved⟩
    rw [prog]
    exact obeys
  · obtain ⟨g', fresh, holds'⟩ := inv.restart holds ok
    refine ⟨g', ?_, ?_⟩
    · rw [prog]
      exact fresh
    · rw [world]
      exact holds'

/-- A run under `C` keeps the invariant, and relates the environments at its two
    ends by any reflexive and transitive relation its steps respect. -/
theorem Invariant.run (inv : Invariant m law C I) {R : W → W → Prop} (refl : ∀ w, R w w)
    (trans : ∀ {u v w}, R u v → R v w → R u w)
    (one : ∀ {c event c'}, Lawful law I c → C c.world event → m.step c event = some c' →
      R c.world c'.world) {events : List (Event Op Ans E S)} : ∀ {c c' : Config Op Ans W α},
    Lawful law I c → m.Guarded C c events → m.run c events = some c' →
      Lawful law I c' ∧ R c.world c'.world := by
  induction events with
  | nil =>
      intro c c' lawful _ ran
      cases ran
      exact ⟨lawful, refl c.world⟩
  | cons event events ih =>
      intro c c' lawful guarded ran
      obtain ⟨mid, stepped, rest⟩ := run_cons ran
      obtain ⟨here, later⟩ := guarded.cons stepped
      obtain ⟨final, onward⟩ := ih (inv.step lawful here stepped) later rest
      exact ⟨final, trans (one lawful here stepped) onward⟩

/-- The rest of the program, whatever the answers, ends in `post`. -/
def Ends (law : Law Op Ans G) (I : G → W → Prop) (post : α → G → Prop) (c : Config Op Ans W α) : Prop :=
  ∃ g, c.prog.Obeys law g post ∧ I g c.world

/-- A run without restarts leads to what the program was to end in. -/
theorem Ends.run {E : Type} {m : Machine Op Ans W E Empty α} {C : W → Event Op Ans E Empty → Prop}
    {post : α → G → Prop}
    (moved : ∀ {g w e w'}, I g w → C w (.move e) → m.move w e = some w' → I g w')
    (replied : ∀ {g w op answer w'}, I g w → law.allowed g op → C w (.reply op answer) →
      m.reply w op answer = some w' → ∃ g', law.next g op answer g' ∧ I g' w')
    {events : List (Event Op Ans E Empty)} : ∀ {c c' : Config Op Ans W α},
    Ends law I post c → m.Guarded C c events → m.run c events = some c' → Ends law I post c' := by
  induction events with
  | nil =>
      intro c c' ends _ ran
      cases ran
      exact ends
  | cons event events ih =>
      intro c c' ends guarded ran
      obtain ⟨mid, stepped, rest⟩ := run_cons ran
      obtain ⟨here, later⟩ := guarded.cons stepped
      refine ih ?_ later rest
      obtain ⟨g, obeys, holds⟩ := ends
      obtain ⟨op, answer, next, rfl, called, prog, reply⟩ | ⟨e, rfl, prog, move⟩ | ⟨s, -, -, -⟩ :=
        step_cases stepped
      · rw [called] at obeys
        obtain ⟨g', logged, holds'⟩ := replied holds obeys.1 here reply
        refine ⟨g', ?_, holds'⟩
        rw [prog]
        exact obeys.2 answer g' logged
      · refine ⟨g, ?_, moved holds here move⟩
        rw [prog]
        exact obeys
      · exact s.elim

end Machine

end Interaction
