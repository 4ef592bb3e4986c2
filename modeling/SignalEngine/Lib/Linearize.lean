import SignalEngine.Lib.Interaction
import Mathlib.Logic.Relation

/-! # Concurrent calls that take effect at their last statement

Any number of calls run at the same time, each a program of statements on a
shared world; a statement is atomic, and between two statements of one call the
others may make theirs. A call that answers right after a statement is compared
with an object that serves whole calls one at a time, in the order in which they
answer.
-/

namespace Linearize

open Interaction

variable {Op : Type} {Ans : Op → Type} {W C A : Type} {R : C → Type}

/-- A call, with the statements it still has to make. -/
abbrev Task (Op : Type) (Ans : Op → Type) (R : C → Type) := (c : C) × Prog Op Ans (R c)

/-- The calls that have answered, with their answers. -/
abbrev Log (R : C → Type) := List ((c : C) × R c)

structure Pool (Op : Type) (Ans : Op → Type) (W : Type) (R : C → Type) where
  world : W
  tasks : List (Task Op Ans R)
  log : Log R

/-- A task waits for its next statement, or its answer is out. -/
def Pool.settle (p : Pool Op Ans W R) (c : C) : Prog Op Ans (R c) → Pool Op Ans W R
  | .done r => { p with log := p.log ++ [⟨c, r⟩] }
  | .call op next => { p with tasks := p.tasks ++ [⟨c, .call op next⟩] }

structure Service (Op : Type) (Ans : Op → Type) (W : Type) (R : C → Type) where
  /-- The answers a statement can give, with the world it leaves behind. -/
  effect : W → (op : Op) → Ans op → W → Prop
  body : (c : C) → Prog Op Ans (R c)

/-- When a call may come, and when a task may make its next statement beside the
    others. -/
structure Guard (Op : Type) (Ans : Op → Type) (W : Type) (R : C → Type) where
  call : C → Prop
  statement : W → List (Task Op Ans R) → Task Op Ans R → Prop

/-- A guard that lets everything through. -/
def Guard.none : Guard Op Ans W R := ⟨fun _ => True, fun _ _ _ => True⟩

inductive Step (s : Service Op Ans W R) (g : Guard Op Ans W R) :
    Pool Op Ans W R → Pool Op Ans W R → Prop where
  | start {p : Pool Op Ans W R} (c : C) (allowed : g.call c) : Step s g p (p.settle c (s.body c))
  | statement {p : Pool Op Ans W R} {before after : List (Task Op Ans R)} {c : C} {op : Op}
      {next : Ans op → Prog Op Ans (R c)} {answer : Ans op} {world : W}
      (chosen : p.tasks = before ++ ⟨c, .call op next⟩ :: after)
      (allowed : g.statement p.world (before ++ after) ⟨c, .call op next⟩)
      (effect : s.effect p.world op answer world) :
      Step s g p (Pool.settle ⟨world, before ++ after, p.log⟩ c (next answer))

/-- The pools of every interleaving, from a world without calls. -/
def Reaches (s : Service Op Ans W R) (g : Guard Op Ans W R) (world : W) (p : Pool Op Ans W R) : Prop :=
  Relation.ReflTransGen (Step s g) ⟨world, [], []⟩ p

/-! ## Against an object that serves one call at a time -/

section Object

variable (serve : A → (c : C) → A × R c) (agree : (c : C) → R c → R c → Prop)

/-- The logged answers are the object's, call by call. -/
def Matches : A → Log R → Prop
  | _, [] => True
  | a, ⟨c, r⟩ :: log => agree c r (serve a c).2 ∧ Matches (serve a c).1 log

def served (a : A) (log : Log R) : A := log.foldl (fun a entry => (serve a entry.1).1) a

variable {serve agree}

theorem Matches.snoc {log : Log R} {c : C} {r : R c} : ∀ {a : A}, Matches serve agree a log →
    agree c r (serve (served serve a log) c).2 → Matches serve agree a (log ++ [⟨c, r⟩]) := by
  induction log with
  | nil => exact fun _ same => ⟨same, trivial⟩
  | cons entry log ih =>
      obtain ⟨c', r'⟩ := entry
      exact fun before same => ⟨before.1, ih before.2 same⟩

theorem served_snoc (a : A) (log : Log R) (c : C) (r : R c) :
    served serve a (log ++ [⟨c, r⟩]) = (serve (served serve a log) c).1 := by
  simp [served]

end Object

/-- A call that answers is where the object serves it; a task that goes on leaves
    the object alone. -/
def Settles (serve : A → (c : C) → A × R c) (agree : (c : C) → R c → R c → Prop)
    (related : W → A → Prop) (pending : W → Task Op Ans R → Prop) (w : W) (a : A) (c : C) :
    Prog Op Ans (R c) → Prop
  | .done r => related w (serve a c).1 ∧ agree c r (serve a c).2
  | .call op next => related w a ∧ pending w ⟨c, .call op next⟩

/-- The next statement of a task, whatever it answers, settles the task and keeps
    what is known of the others. -/
def Proceeds (s : Service Op Ans W R) (serve : A → (c : C) → A × R c)
    (agree : (c : C) → R c → R c → Prop) (related : W → A → Prop) (pending : W → Task Op Ans R → Prop)
    (w : W) (a : A) (others : List (Task Op Ans R)) : Task Op Ans R → Prop
  | ⟨_, .done _⟩ => True
  | ⟨c, .call op next⟩ => ∀ (answer : Ans op) (w' : W), s.effect w op answer w' →
      Settles serve agree related pending w' a c (next answer) ∧ ∀ t ∈ others, pending w t → pending w' t

/-- The service refines the object: `related` says which worlds and objects belong
    together, `pending` what is known of a task between its statements. -/
structure Simulation (s : Service Op Ans W R) (g : Guard Op Ans W R) (serve : A → (c : C) → A × R c)
    (agree : (c : C) → R c → R c → Prop) (related : W → A → Prop)
    (pending : W → Task Op Ans R → Prop) : Prop where
  start {w : W} {a : A} {c : C} (fits : related w a) (allowed : g.call c) :
    Settles serve agree related pending w a c (s.body c)
  statement {w : W} {a : A} {t : Task Op Ans R} {others : List (Task Op Ans R)} (fits : related w a)
    (known : pending w t) (allowed : g.statement w others t) :
    Proceeds s serve agree related pending w a others t

namespace Simulation

variable {s : Service Op Ans W R} {g : Guard Op Ans W R} {serve : A → (c : C) → A × R c}
  {agree : (c : C) → R c → R c → Prop} {related : W → A → Prop} {pending : W → Task Op Ans R → Prop}

/-- The logged answers are the object's so far, and the rest is in place. -/
def Holds (serve : A → (c : C) → A × R c) (agree : (c : C) → R c → R c → Prop)
    (related : W → A → Prop) (pending : W → Task Op Ans R → Prop) (a : A) (p : Pool Op Ans W R) : Prop :=
  Matches serve agree a p.log ∧ related p.world (served serve a p.log) ∧ ∀ t ∈ p.tasks, pending p.world t

theorem holds_settle {a : A} {p : Pool Op Ans W R} {c : C} {rest : Prog Op Ans (R c)}
    (matching : Matches serve agree a p.log) (waiting : ∀ t ∈ p.tasks, pending p.world t)
    (settles : Settles serve agree related pending p.world (served serve a p.log) c rest) :
    Holds serve agree related pending a (p.settle c rest) := by
  cases rest with
  | done r =>
      refine ⟨matching.snoc settles.2, ?_, waiting⟩
      simp only [Pool.settle]
      rw [served_snoc]
      exact settles.1
  | call op next =>
      refine ⟨matching, settles.1, fun t member => ?_⟩
      rcases List.mem_append.1 member with old | new
      · exact waiting t old
      · obtain rfl := List.mem_singleton.1 new
        exact settles.2

theorem holds_step (sim : Simulation s g serve agree related pending) {a : A} {p p' : Pool Op Ans W R}
    (step : Step s g p p') (before : Holds serve agree related pending a p) :
    Holds serve agree related pending a p' := by
  obtain ⟨matching, fits, waiting⟩ := before
  cases step with
  | start c allowed => exact holds_settle matching waiting (sim.start fits allowed)
  | @statement before after c op next answer world chosen allowed effect =>
      have known : pending p.world ⟨c, .call op next⟩ := waiting _ (by simp [chosen])
      obtain ⟨settles, kept⟩ := sim.statement fits known allowed answer world effect
      refine holds_settle matching (fun t member => kept t member (waiting t ?_)) settles
      rw [chosen]
      rcases List.mem_append.1 member with left | right
      · exact List.mem_append_left _ left
      · exact List.mem_append_right _ (List.mem_cons_of_mem _ right)

/-- In every interleaving the answers are the object's, in the order of answering. -/
theorem reaches_matches (sim : Simulation s g serve agree related pending) {w : W} {a : A}
    (fits : related w a) {p : Pool Op Ans W R} (reached : Reaches s g w p) :
    Matches serve agree a p.log := by
  have all : Holds serve agree related pending a p := by
    induction reached with
    | refl => exact ⟨trivial, fits, by simp⟩
    | tail _ step ih => exact sim.holds_step step ih
  exact all.1

end Simulation

/-! ## What every statement keeps -/

/-- A task that waits is known. -/
def Waits (pending : W → Task Op Ans R → Prop) (w : W) (c : C) : Prog Op Ans (R c) → Prop
  | .done _ => True
  | .call op next => pending w ⟨c, .call op next⟩

/-- The next statement of a task, whatever it answers, keeps what is known of the world
    and of all tasks. -/
def Safe (s : Service Op Ans W R) (good : W → Prop) (pending : W → Task Op Ans R → Prop) (w : W) :
    Task Op Ans R → Prop
  | ⟨_, .done _⟩ => True
  | ⟨c, .call op next⟩ => ∀ (answer : Ans op) (w' : W), s.effect w op answer w' →
      good w' ∧ Waits pending w' c (next answer) ∧ ∀ t, pending w t → pending w' t

structure Keeps (s : Service Op Ans W R) (g : Guard Op Ans W R) (good : W → Prop)
    (pending : W → Task Op Ans R → Prop) : Prop where
  start {w : W} {c : C} (here : good w) (allowed : g.call c) : Waits pending w c (s.body c)
  statement {w : W} {t : Task Op Ans R} {others : List (Task Op Ans R)} (here : good w) (known : pending w t)
    (allowed : g.statement w others t) : Safe s good pending w t

/-- A task that is known, in front of its statement. -/
theorem Waits.of_pending {pending : W → Task Op Ans R → Prop} {w : W} {c : C} {rest : Prog Op Ans (R c)}
    (known : pending w ⟨c, rest⟩) : Waits pending w c rest := by
  cases rest with
  | done r => exact trivial
  | call op next => exact known

def Pool.Known (good : W → Prop) (pending : W → Task Op Ans R → Prop) (p : Pool Op Ans W R) : Prop :=
  good p.world ∧ ∀ t ∈ p.tasks, pending p.world t

theorem Pool.Known.settle {good : W → Prop} {pending : W → Task Op Ans R → Prop} {p : Pool Op Ans W R}
    (known : p.Known good pending) {c : C} {rest : Prog Op Ans (R c)} (waits : Waits pending p.world c rest) :
    (p.settle c rest).Known good pending := by
  cases rest with
  | done r => exact known
  | call op next =>
      refine ⟨known.1, fun t member => ?_⟩
      rcases List.mem_append.1 member with old | new
      · exact known.2 t old
      · obtain rfl := List.mem_singleton.1 new
        exact waits

theorem Keeps.steps {s : Service Op Ans W R} {g : Guard Op Ans W R} {good : W → Prop}
    {pending : W → Task Op Ans R → Prop} (keeps : Keeps s g good pending) {p p' : Pool Op Ans W R}
    (known : p.Known good pending) (steps : Relation.ReflTransGen (Step s g) p p') : p'.Known good pending := by
  induction steps with
  | refl => exact known
  | @tail q q' _ step before =>
      cases step with
      | start c allowed => exact before.settle (keeps.start before.1 allowed)
      | @statement left right c op next answer world chosen allowed effect =>
          have here : pending q.world ⟨c, .call op next⟩ := before.2 _ (by simp [chosen])
          obtain ⟨good', waits, kept⟩ := keeps.statement before.1 here allowed answer world effect
          refine Pool.Known.settle (p := ⟨world, left ++ right, q.log⟩) ⟨good', fun t member => kept t (before.2 t ?_)⟩ waits
          rw [chosen]
          rcases List.mem_append.1 member with old | old
          · exact List.mem_append_left _ old
          · exact List.mem_append_right _ (List.mem_cons_of_mem _ old)

/-! ## One call after the other -/

/-- The statements of a call that no other call is beside. -/
inductive Alone (s : Service Op Ans W R) (g : Guard Op Ans W R) (c : C) : W → Prog Op Ans (R c) → R c → W → Prop where
  | done {w : W} (r : R c) : Alone s g c w (.done r) r w
  | statement {w w' w'' : W} {op : Op} {next : Ans op → Prog Op Ans (R c)} {answer : Ans op} {r : R c}
      (allowed : g.statement w [] ⟨c, .call op next⟩) (effect : s.effect w op answer w')
      (rest : Alone s g c w' (next answer) r w'') : Alone s g c w (.call op next) r w''

variable {s : Service Op Ans W R} {g : Guard Op Ans W R}

theorem Alone.of_eq {c : C} {w w' : W} {rest rest' : Prog Op Ans (R c)} {r : R c} (same : rest = rest')
    (alone : Alone s g c w rest' r w') : Alone s g c w rest r w' := same ▸ alone

/-- One more call, begun and answered after all others. -/
theorem steps_call {p : Pool Op Ans W R} {w w' : W} {log : Log R}
    (steps : Relation.ReflTransGen (Step s g) p ⟨w, [], log⟩) {c : C} {r : R c} (allowed : g.call c)
    (alone : Alone s g c w (s.body c) r w') : Relation.ReflTransGen (Step s g) p ⟨w', [], log ++ [⟨c, r⟩]⟩ := by
  have begun : Relation.ReflTransGen (Step s g) p (Pool.settle ⟨w, [], log⟩ c (s.body c)) := steps.tail (.start c allowed)
  clear steps
  generalize s.body c = rest at alone begun
  induction alone with
  | done r => exact begun
  | @statement w w' w'' op next answer r allowed effect _ ih =>
      have chosen : (Pool.settle ⟨w, [], log⟩ c (.call op next)).tasks = [] ++ ⟨c, .call op next⟩ :: [] := rfl
      have step := Step.statement chosen allowed effect
      exact ih (begun.tail step)

section First

variable {s : Service Op Ans W R} {g : Guard Op Ans W R} {p : Pool Op Ans W R} {w w' : W} {c : C} {op : Op}
  {next : Ans op → Prog Op Ans (R c)} {answer : Ans op} {others : List (Task Op Ans R)} {log : Log R}

/-- The task that has waited longest makes its next statement, and waits for another one. -/
theorem steps_asks (steps : Relation.ReflTransGen (Step s g) p ⟨w, ⟨c, .call op next⟩ :: others, log⟩)
    (allowed : g.statement w others ⟨c, .call op next⟩) (effect : s.effect w op answer w') {op' : Op}
    {next' : Ans op' → Prog Op Ans (R c)} (proceeds : next answer = .call op' next') :
    Relation.ReflTransGen (Step s g) p ⟨w', others ++ [⟨c, .call op' next'⟩], log⟩ := by
  have chosen : (⟨w, ⟨c, .call op next⟩ :: others, log⟩ : Pool Op Ans W R).tasks = [] ++ ⟨c, .call op next⟩ :: others := rfl
  have step := Step.statement chosen allowed effect
  rw [proceeds] at step
  exact steps.tail step

/-- The task that has waited longest makes its last statement. -/
theorem steps_answers (steps : Relation.ReflTransGen (Step s g) p ⟨w, ⟨c, .call op next⟩ :: others, log⟩)
    (allowed : g.statement w others ⟨c, .call op next⟩) (effect : s.effect w op answer w') {r : R c}
    (proceeds : next answer = .done r) : Relation.ReflTransGen (Step s g) p ⟨w', others, log ++ [⟨c, r⟩]⟩ := by
  have chosen : (⟨w, ⟨c, .call op next⟩ :: others, log⟩ : Pool Op Ans W R).tasks = [] ++ ⟨c, .call op next⟩ :: others := rfl
  have step := Step.statement chosen allowed effect
  rw [proceeds] at step
  exact steps.tail step

end First

theorem Reaches.call {start w w' : W} {log : Log R} (reached : Reaches s g start ⟨w, [], log⟩) {c : C} {r : R c}
    (allowed : g.call c) (alone : Alone s g c w (s.body c) r w') : Reaches s g start ⟨w', [], log ++ [⟨c, r⟩]⟩ :=
  steps_call reached allowed alone

end Linearize
