import Mathlib.Data.List.Forall2

/-! # Computations that can fail

Inversion rules for `Except`: what a successful or a failed sequence of steps
went through.
-/

namespace Outcome

variable {ε α β : Type}

theorem bind_eq_ok {x : Except ε α} {f : α → Except ε β} {b : β} :
    (x >>= f) = .ok b ↔ ∃ a, x = .ok a ∧ f a = .ok b := by
  cases x <;> simp [bind, Except.bind]

theorem bind_eq_error {x : Except ε α} {f : α → Except ε β} {e : ε} :
    (x >>= f) = .error e ↔ x = .error e ∨ ∃ a, x = .ok a ∧ f a = .error e := by
  cases x <;> simp [bind, Except.bind]

theorem ok_bind (a : α) (f : α → Except ε β) : (Except.ok a >>= f) = f a := rfl

theorem toOption_eq_some {x : Except ε α} {a : α} : x.toOption = some a ↔ x = .ok a := by
  cases x <;> simp [Except.toOption]

theorem pure_eq_ok {a b : α} : (pure a : Except ε α) = .ok b ↔ a = b :=
  ⟨Except.ok.inj, congrArg Except.ok⟩

/-- A check that refuses, in front of the rest of a computation. -/
theorem refuse_eq_ok {c : Prop} [Decidable c] {e : ε} {f : PUnit → Except ε α} {rest : Except ε α}
    {a : α} : (if c then throw e >>= f else rest) = .ok a ↔ ¬ c ∧ rest = .ok a := by
  by_cases h : c
  · simp [h, bind, Except.bind, throw, throwThe, MonadExceptOf.throw]
  · simp [h]

theorem refuse_last_eq_ok {c : Prop} [Decidable c] {e : ε} {rest : Except ε α}
    {a : α} : (if c then throw e else rest) = .ok a ↔ ¬ c ∧ rest = .ok a := by
  by_cases h : c
  · simp [h, throw, throwThe, MonadExceptOf.throw]
  · simp [h]

/-- A list of computations succeeds when each of them does. -/
theorem mapM_eq_ok {f : α → Except ε β} {as : List α} {bs : List β} :
    as.mapM f = .ok bs ↔ List.Forall₂ (fun a b => f a = .ok b) as bs := by
  induction as generalizing bs with
  | nil =>
      rw [List.mapM_nil]
      constructor
      · intro h
        obtain rfl := Except.ok.inj h
        exact .nil
      · intro h
        cases h
        rfl
  | cons a as ih =>
      simp only [List.mapM_cons, bind_eq_ok]
      constructor
      · rintro ⟨b, head, bs', tail, done⟩
        obtain rfl := Except.ok.inj done
        exact .cons head (ih.1 tail)
      · intro h
        cases h with
        | cons head tail => exact ⟨_, head, _, ih.2 tail, rfl⟩

/-- What the start has and every step keeps, the end of a fold has. -/
theorem foldlM_invariant {f : β → α → Except ε β} {P : β → Prop} {as : List α} {start finish : β}
    (init : P start) (step : ∀ a ∈ as, ∀ b b', P b → f b a = .ok b' → P b')
    (h : as.foldlM f start = .ok finish) : P finish := by
  induction as generalizing start with
  | nil =>
      obtain rfl := Except.ok.inj h
      exact init
  | cons a as ih =>
      rw [List.foldlM_cons] at h
      obtain ⟨next, head, tail⟩ := bind_eq_ok.1 h
      exact ih (step a (by simp) start next init head)
        (fun a' member => step a' (by simp [member])) tail

/-! ## What a computation gives -/

/-- A value with `Q`, or a failure with `E`. -/
def Gives (E : ε → Prop) (Q : α → Prop) : Except ε α → Prop
  | .ok a => Q a
  | .error e => E e

section Gives

variable {E : ε → Prop} {P : α → Prop} {Q : β → Prop}

theorem Gives.mono {P' : α → Prop} {x : Except ε α} (h : Gives E P x) (weaker : ∀ a, P a → P' a) :
    Gives E P' x := by
  cases x with
  | ok a => exact weaker a h
  | error e => exact h

theorem Gives.bind {x : Except ε α} {f : α → Except ε β} (first : Gives E P x)
    (second : ∀ a, P a → Gives E Q (f a)) : Gives E Q (x >>= f) := by
  cases x with
  | ok a => exact second a first
  | error e => exact first

/-- A fold whose every step gives what the next one needs. -/
theorem Gives.foldlM {f : β → α → Except ε β} {I : List α → β → Prop}
    (step : ∀ a as b, I (a :: as) b → Gives E (I as) (f b a)) (as : List α) :
    ∀ start : β, I as start → Gives E (I []) (as.foldlM f start) := by
  induction as with
  | nil => exact fun start init => init
  | cons a as ih =>
      intro start init
      rw [List.foldlM_cons]
      exact (step a as start init).bind ih

/-- A list of computations each of which gives `Q`. -/
theorem Gives.mapM {f : α → Except ε β} (each : ∀ a, Gives E Q (f a)) (as : List α) :
    Gives E (fun bs => ∀ b ∈ bs, Q b) (as.mapM f) := by
  induction as with
  | nil =>
      rw [List.mapM_nil]
      simp [Gives, pure, Except.pure]
  | cons a as ih =>
      rw [List.mapM_cons]
      refine (each a).bind fun b own => ih.bind fun bs rest => ?_
      simp only [Gives, pure, Except.pure, List.mem_cons, forall_eq_or_imp]
      exact ⟨own, rest⟩

end Gives

end Outcome
