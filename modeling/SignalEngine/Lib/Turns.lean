import SignalEngine.Lib.Interaction
import SignalEngine.Lib.Runs
import Mathlib.Logic.Function.Basic

/-! # Programs that take turns

Any number of programs against one environment, their calls interleaved in any
order. A turn answers the call that one program waits on; a program that is
abandoned gets no more turns. The rule at the end carries an invariant between
the logs of the programs and the environment through every run.
-/

namespace Interaction

variable {Op : Type} {Ans : Op → Type} {W E S α G : Type}

structure Pool (Op : Type) (Ans : Op → Type) (W α : Type) where
  progs : List (Prog Op Ans α)
  world : W

inductive Turn (E S : Type) where
  | start (s : S)
  /-- Program `who` gets its answer; what the environment leaves open is chosen. -/
  | answer (who : Nat) (choice : E)

/-- The programs that may be started, and how the environment answers a program. -/
structure Shared (Op : Type) (Ans : Op → Type) (W E S α : Type) where
  start : S → Prog Op Ans α
  reply : W → (who : Nat) → (choice : E) → (op : Op) → Option (Ans op × W)

namespace Shared

variable (m : Shared Op Ans W E S α)

/-- A turn that cannot be taken changes nothing. -/
def step (p : Pool Op Ans W α) : Turn E S → Pool Op Ans W α
  | .start s => { p with progs := p.progs ++ [m.start s] }
  | .answer who choice =>
      match p.progs[who]? with
      | some (.call op next) =>
          match m.reply p.world who choice op with
          | some (answer, world) => ⟨p.progs.set who (next answer), world⟩
          | none => p
      | _ => p

/-- The condition `C` on the call that a turn answers. -/
def under (C : W → Nat → Op → Prop) (p : Pool Op Ans W α) : Turn E S → Prop
  | .start _ => True
  | .answer who _ =>
      match p.progs[who]? with
      | some (.call op _) => C p.world who op
      | _ => True

instance decidableUnder {C : W → Nat → Op → Prop} [∀ w who op, Decidable (C w who op)]
    (p : Pool Op Ans W α) : (turn : Turn E S) → Decidable (under C p turn)
  | .start _ => isTrue trivial
  | .answer who _ =>
      match asked : p.progs[who]? with
      | some (.call op _) => decidable_of_iff (C p.world who op) (by simp [under, asked])
      | some (.done _) => isTrue (by simp [under, asked])
      | none => isTrue (by simp [under, asked])

/-- An invariant `I` between the logs and the environment that new programs and
    allowed calls keep under `C`. -/
structure Invariant (law : Law Op Ans G) (C : W → Nat → Op → Prop) (I : (Nat → G) → W → Prop) : Prop where
  start : ∀ {logs w} who s, I logs w →
    ∃ g, (m.start s).Obeys law g (fun _ _ => True) ∧ I (Function.update logs who g) w
  reply : ∀ {logs w who choice op answer w'}, I logs w → law.allowed (logs who) op → C w who op →
    m.reply w who choice op = some (answer, w') →
    ∃ g, law.next (logs who) op answer g ∧ I (Function.update logs who g) w'

/-- What is left of each program is lawful after some log, and the logs fit the
    environment. -/
def Lawful (law : Law Op Ans G) (I : (Nat → G) → W → Prop) (p : Pool Op Ans W α) : Prop :=
  ∃ logs, (∀ who (prog : Prog Op Ans α), p.progs[who]? = some prog →
      prog.Obeys law (logs who) fun _ _ => True) ∧
    I logs p.world

variable {m} {law : Law Op Ans G} {C : W → Nat → Op → Prop} {I : (Nat → G) → W → Prop}
  {p : Pool Op Ans W α}

theorem Invariant.started (inv : m.Invariant law C I) (lawful : Lawful law I p) (s : S) :
    Lawful law I (m.step p (.start s)) := by
  obtain ⟨logs, obeys, holds⟩ := lawful
  obtain ⟨g, fresh, holds'⟩ := inv.start p.progs.length s holds
  refine ⟨_, ?_, holds'⟩
  intro who prog found
  obtain earlier | ⟨rfl, rfl⟩ : p.progs[who]? = some prog ∨
      who = p.progs.length ∧ prog = m.start s := by
    simp only [step, List.getElem?_append] at found
    split at found
    · exact .inl found
    · right
      obtain ⟨last, rfl⟩ := List.getElem?_eq_some_iff.1 found
      simp only [List.length_singleton, Nat.lt_one_iff] at last
      exact ⟨by omega, by simp [last]⟩
  · have old : who ≠ p.progs.length := by
      obtain ⟨inside, -⟩ := List.getElem?_eq_some_iff.1 earlier
      omega
    rw [Function.update_of_ne old]
    exact obeys who prog earlier
  · rw [Function.update_self]
    exact fresh

theorem Invariant.answered (inv : m.Invariant law C I) (lawful : Lawful law I p) (who : Nat)
    (choice : E) (ok : under (S := S) C p (.answer who choice)) :
    Lawful law I (m.step p (.answer who choice)) := by
  obtain ⟨logs, obeys, holds⟩ := lawful
  unfold step
  split
  next who' choice' same =>
      cases same
  next who' choice' same =>
      cases same
      split
      next op next asked =>
          have mine := obeys who _ asked
          simp only [under, asked] at ok
          split
          next answer world replied =>
              obtain ⟨g, logged, holds'⟩ := inv.reply holds mine.1 ok replied
              refine ⟨_, ?_, holds'⟩
              intro other prog found
              simp only [List.getElem?_set] at found
              split at found
              next same =>
                  subst same
                  split at found
                  · cases found
                    rw [Function.update_self]
                    exact mine.2 answer g logged
                  · cases found
              next differs =>
                  rw [Function.update_of_ne (Ne.symm differs)]
                  exact obeys other prog found
          next => exact ⟨logs, obeys, holds⟩
      next => exact ⟨logs, obeys, holds⟩

/-- Every state of a run under `C` keeps the invariant. -/
theorem Invariant.run (inv : m.Invariant law C I) (lawful : Lawful law I p) {turns : List (Turn E S)}
    (guarded : Runs.Guarded m.step (under C) p turns) :
    Runs.Visits m.step (Lawful law I) p turns := by
  apply Runs.visits_of_guarded _ lawful guarded
  intro p turn lawful ok
  cases turn with
  | start s => exact inv.started lawful s
  | answer who choice => exact inv.answered lawful who choice ok

end Shared

end Interaction
