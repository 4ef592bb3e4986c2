import Mathlib.Data.List.Basic

/-! # Runs of a step function

A deterministic system is a step function on states and events; a run feeds it a
list of events. The rules carry a fact about one step to every state of a run.
-/

namespace Runs

variable {σ ε : Type} (step : σ → ε → σ)

def run (s : σ) (events : List ε) : σ := events.foldl step s

@[simp] theorem run_nil (s : σ) : run step s [] = s := rfl
@[simp] theorem run_cons (s : σ) (e : ε) (events : List ε) :
    run step s (e :: events) = run step (step s e) events := rfl
theorem run_append (s : σ) (first second : List ε) :
    run step s (first ++ second) = run step (run step s first) second := List.foldl_append

/-- `P` holds of the first state and of every state reached after it. -/
def Visits (P : σ → Prop) : σ → List ε → Prop
  | s, [] => P s
  | s, e :: events => P s ∧ Visits P (step s e) events

/-- Every step of the run is taken under the condition `C`. -/
def Guarded (C : σ → ε → Prop) : σ → List ε → Prop
  | _, [] => True
  | s, e :: events => C s e ∧ Guarded C (step s e) events

variable {step}

variable {R : σ → σ → Prop} {I P : σ → Prop} {C : σ → ε → Prop}

theorem Visits.head {s : σ} {events : List ε} (h : Visits step P s events) : P s := by
  cases events with
  | nil => exact h
  | cons e events => exact h.1

theorem visits_iff_take {events : List ε} : ∀ {s : σ},
    Visits step P s events ↔ ∀ n, P (run step s (events.take n)) := by
  induction events with
  | nil =>
      intro s
      simp [Visits]
  | cons e events ih =>
      intro s
      simp only [Visits, ih]
      constructor
      · rintro ⟨here, later⟩ n
        cases n with
        | zero => exact here
        | succ n => exact later n
      · intro all
        exact ⟨all 0, fun n => all (n + 1)⟩

/-- If one step keeps `P` exactly under `C`, a run that starts in `P` stays in it
    exactly when all its steps are taken under `C`. -/
theorem visits_iff_guarded (exact_step : ∀ s e, P s → (P (step s e) ↔ C s e)) {events : List ε} : ∀ {s : σ}, P s →
    (Visits step P s events ↔ Guarded step C s events) := by
  induction events with
  | nil =>
      intro s start
      simp [Visits, Guarded, start]
  | cons e events ih =>
      intro s start
      simp only [Visits, Guarded, start, true_and]
      constructor
      · intro visits
        exact ⟨(exact_step s e start).1 visits.head, (ih visits.head).1 visits⟩
      · rintro ⟨here, later⟩
        exact (ih ((exact_step s e start).2 here)).2 later

/-- The same for runs whose steps are all allowed, from states with an invariant. -/
theorem visits_iff_guarded_of {A C : σ → ε → Prop}
    (exact_step : ∀ s e, I s → P s → A s e → I (step s e) ∧ (P (step s e) ↔ C s e)) {events : List ε} : ∀ {s : σ},
    I s → P s → Guarded step A s events → (Visits step P s events ↔ Guarded step C s events) := by
  induction events with
  | nil =>
      intro s _ start _
      simp [Visits, Guarded, start]
  | cons e events ih =>
      intro s invariant start allowed
      obtain ⟨next, exactly⟩ := exact_step s e invariant start allowed.1
      simp only [Visits, Guarded, start, true_and]
      constructor
      · intro visits
        exact ⟨exactly.1 visits.head, (ih next visits.head allowed.2).1 visits⟩
      · rintro ⟨here, later⟩
        exact (ih next (exactly.2 here) allowed.2).2 later

theorem guarded_of_forall (all : ∀ s e, C s e) {events : List ε} : ∀ {s : σ}, Guarded step C s events := by
  induction events with
  | nil => exact trivial
  | cons e events ih => exact ⟨all _ e, ih⟩

/-- What holds of every step under `C` from a state with an invariant holds of every step of
    a run under `C`. -/
theorem guarded_of_guarded {I : σ → Prop} {C D : σ → ε → Prop}
    (one : ∀ s e, I s → C s e → I (step s e) ∧ D s e) {events : List ε} : ∀ {s : σ}, I s →
    Guarded step C s events → Guarded step D s events := by
  induction events with
  | nil => exact fun _ _ => trivial
  | cons e events ih =>
      intro s start guarded
      obtain ⟨next, here⟩ := one s e start guarded.1
      exact ⟨here, ih next guarded.2⟩

/-- What every step under `C` keeps, a run under `C` keeps. -/
theorem visits_of_guarded (one : ∀ s e, P s → C s e → P (step s e)) {events : List ε} : ∀ {s : σ}, P s →
    Guarded step C s events → Visits step P s events := by
  induction events with
  | nil =>
      intro s start _
      exact start
  | cons e events ih =>
      intro s start guarded
      exact ⟨start, ih (one s e start guarded.1) guarded.2⟩

/-- What every step under `C` keeps holds at the end of a run under `C`. -/
theorem run_of_guarded (one : ∀ s e, P s → C s e → P (step s e)) {events : List ε} : ∀ {s : σ}, P s →
    Guarded step C s events → P (run step s events) := by
  induction events with
  | nil =>
      intro s start _
      exact start
  | cons e events ih =>
      intro s start guarded
      exact ih (one s e start guarded.1) guarded.2

theorem Visits.mono {Q : σ → Prop} (weaker : ∀ s, P s → Q s) {events : List ε} : ∀ {s : σ},
    Visits step P s events → Visits step Q s events := by
  induction events with
  | nil =>
      intro s visits
      exact weaker s visits
  | cons e events ih =>
      intro s visits
      exact ⟨weaker s visits.1, ih visits.2⟩

theorem Guarded.and {D : σ → ε → Prop} {events : List ε} : ∀ {s : σ}, Guarded step C s events →
    Guarded step D s events → Guarded step (fun s e => C s e ∧ D s e) s events := by
  induction events with
  | nil => exact fun _ _ => trivial
  | cons e events ih => exact fun first second => ⟨⟨first.1, second.1⟩, ih first.2 second.2⟩

instance decidableGuarded {C : σ → ε → Prop} [∀ s e, Decidable (C s e)] :
    (s : σ) → (events : List ε) → Decidable (Guarded step C s events)
  | _, [] => isTrue trivial
  | s, e :: events =>
      have : Decidable (Guarded step C (step s e) events) := decidableGuarded (step s e) events
      inferInstanceAs (Decidable (_ ∧ _))

/-- A reflexive and transitive relation that every allowed step respects relates
    the ends of every allowed run. -/
theorem run_related {A : ε → Prop} (refl : ∀ s, I s → R s s) (trans : ∀ {a b c}, R a b → R b c → R a c)
    (one : ∀ s e, I s → A e → I (step s e) ∧ R s (step s e)) {events : List ε} : ∀ {s : σ}, I s →
    (∀ e ∈ events, A e) → I (run step s events) ∧ R s (run step s events) := by
  induction events with
  | nil =>
      intro s start _
      exact ⟨start, refl s start⟩
  | cons e events ih =>
      intro s start allowed
      obtain ⟨next, first⟩ := one s e start (allowed e (by simp))
      obtain ⟨final, rest⟩ := ih next fun e' member => allowed e' (by simp [member])
      exact ⟨final, trans first rest⟩

theorem guarded_append {first second : List ε} : ∀ {s : σ},
    Guarded step C s (first ++ second) ↔
      Guarded step C s first ∧ Guarded step C (run step s first) second := by
  induction first with
  | nil =>
      intro s
      simp [Guarded]
  | cons e first ih =>
      intro s
      simp only [List.cons_append, Guarded, ih, run_cons, and_assoc]

/-- The same for a condition that reads the state before the step. -/
theorem guarded_related (refl : ∀ s, I s → R s s) (trans : ∀ {a b c}, R a b → R b c → R a c)
    (one : ∀ s e, I s → C s e → I (step s e) ∧ R s (step s e)) {events : List ε} : ∀ {s : σ}, I s →
    Guarded step C s events → I (run step s events) ∧ R s (run step s events) := by
  induction events with
  | nil =>
      intro s start _
      exact ⟨start, refl s start⟩
  | cons e events ih =>
      intro s start guarded
      obtain ⟨next, first⟩ := one s e start guarded.1
      obtain ⟨final, rest⟩ := ih next guarded.2
      exact ⟨final, trans first rest⟩

section Answers

variable {ρ : Type} (answer : σ → ε → ρ)

variable (step) in
/-- What the events of a run are answered. -/
def answers : σ → List ε → List ρ
  | _, [] => []
  | s, e :: events => answer s e :: answers (step s e) events

/-- States that every event keeps related, and that answer it alike, cannot be told
    apart by any run. -/
theorem answers_related {R : σ → σ → Prop}
    (one : ∀ s t e, R s t → answer s e = answer t e ∧ R (step s e) (step t e)) {events : List ε} : ∀ {s t : σ},
    R s t → answers step answer s events = answers step answer t events ∧ R (run step s events) (run step t events) := by
  induction events with
  | nil =>
      intro s t related
      exact ⟨rfl, related⟩
  | cons e events ih =>
      intro s t related
      obtain ⟨same, next⟩ := one s t e related
      obtain ⟨later, final⟩ := ih next
      exact ⟨by rw [answers, answers, same, later], final⟩

end Answers

end Runs
