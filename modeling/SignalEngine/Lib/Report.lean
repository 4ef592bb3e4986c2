import Mathlib.Tactic.Cases

/-! # Checks that report findings

A check goes through its rules in order and reports every finding; it stops
early only when a computation fails. A check is clean when it went through and
reported nothing.
-/

structure Report (ε δ α : Type) where
  result : Except ε α
  findings : List δ

namespace Report

variable {ε δ α β : Type}

instance : Monad (Report ε δ) where
  pure a := ⟨.ok a, []⟩
  bind x f :=
    match x.result with
    | .error e => ⟨.error e, x.findings⟩
    | .ok a => ⟨(f a).result, x.findings ++ (f a).findings⟩

instance : MonadLift (Except ε) (Report ε δ) := ⟨fun x => ⟨x, []⟩⟩

def report (finding : δ) : Report ε δ Unit := ⟨.ok (), [finding]⟩

def reportIf (found : Bool) (finding : δ) : Report ε δ Unit :=
  if found then report finding else pure ()

def skipIf (skip : Bool) (x : Report ε δ Unit) : Report ε δ Unit := if skip then pure () else x

/-- The check went through with value `a` and reported nothing. -/
def Clean (x : Report ε δ α) (a : α) : Prop := x.result = .ok a ∧ x.findings = []

@[simp] theorem clean_pure {a b : α} : (pure a : Report ε δ α).Clean b ↔ a = b := by
  simp [Clean, pure]

theorem clean_bind {x : Report ε δ α} {f : α → Report ε δ β} {b : β} :
    (x >>= f).Clean b ↔ ∃ a, x.Clean a ∧ (f a).Clean b := by
  cases x with
  | mk result findings =>
      cases result with
      | error e => simp [Clean, bind]
      | ok a =>
          simp only [Clean, bind, Except.ok.injEq, List.append_eq_nil_iff]
          constructor
          · rintro ⟨value, empty, rest⟩
            exact ⟨a, ⟨rfl, empty⟩, value, rest⟩
          · rintro ⟨_, ⟨rfl, empty⟩, value, rest⟩
            exact ⟨value, empty, rest⟩

theorem exists_unit {p : Unit → Prop} : (∃ u, p u) ↔ p () := ⟨fun ⟨_, h⟩ => h, fun h => ⟨(), h⟩⟩

@[simp] theorem clean_lift {x : Except ε α} {a : α} :
    (liftM x : Report ε δ α).Clean a ↔ x = .ok a := by
  simp [Clean, liftM, monadLift, MonadLift.monadLift]

@[simp] theorem not_clean_report {finding : δ} {u : Unit} :
    ¬ (report finding : Report ε δ Unit).Clean u := by
  simp [Clean, report]

@[simp] theorem clean_reportIf {found : Bool} {finding : δ} {u : Unit} :
    (reportIf found finding : Report ε δ Unit).Clean u ↔ found = false := by
  cases found <;> simp [reportIf]

@[simp] theorem clean_skipIf {skip : Bool} {x : Report ε δ Unit} {u : Unit} :
    (skipIf skip x).Clean u ↔ (skip = false → x.Clean u) := by
  cases skip <;> simp [skipIf]

/-! ## Up to what the findings say -/

variable {κ : Type} {key : δ → κ}

/-- The checks end in the same way, with findings of the same keys. -/
def Alike (key : δ → κ) (x y : Report ε δ α) : Prop :=
  x.result = y.result ∧ x.findings.map key = y.findings.map key

theorem alike_refl (x : Report ε δ α) : x.Alike key x := ⟨rfl, rfl⟩

theorem alike_report {f g : δ} (same : key f = key g) : (report f : Report ε δ Unit).Alike key (report g) :=
  ⟨rfl, congrArg (fun k => [k]) same⟩

theorem alike_reportIf {found : Bool} {f g : δ} (same : key f = key g) :
    (reportIf found f : Report ε δ Unit).Alike key (reportIf found g) := by
  cases found with
  | true => exact alike_report same
  | false => exact alike_refl _

theorem alike_skipIf {skip : Bool} {x y : Report ε δ Unit} (alike : x.Alike key y) :
    (skipIf skip x).Alike key (skipIf skip y) := by
  cases skip with
  | true => exact alike_refl _
  | false => exact alike

theorem alike_ite {c : Prop} [Decidable c] {x y x' y' : Report ε δ α} (first : x.Alike key x')
    (second : y.Alike key y') : (if c then x else y).Alike key (if c then x' else y') := by
  split
  · exact first
  · exact second

theorem alike_bind {x y : Report ε δ α} {f g : α → Report ε δ β} (first : x.Alike key y)
    (rest : ∀ a, (f a).Alike key (g a)) : (x >>= f).Alike key (y >>= g) := by
  obtain ⟨result, findings⟩ := x
  obtain ⟨result', findings'⟩ := y
  obtain ⟨rfl, same⟩ := first
  cases result with
  | error e => exact ⟨rfl, same⟩
  | ok a =>
      refine ⟨(rest a).1, ?_⟩
      show (findings ++ (f a).findings).map key = (findings' ++ (g a).findings).map key
      rw [List.map_append, List.map_append, (rest a).2, same]

/-! ## What the findings can be -/

/-- The check goes through, and all it reports satisfies `P`. -/
def Within (P : δ → Prop) (x : Report ε δ α) : Prop := (∃ a, x.result = .ok a) ∧ ∀ f ∈ x.findings, P f

variable {P : δ → Prop}

theorem within_pure (a : α) : (pure a : Report ε δ α).Within P := ⟨⟨a, rfl⟩, by simp [pure]⟩

theorem within_report {f : δ} (holds : P f) : (report f : Report ε δ Unit).Within P :=
  ⟨⟨(), rfl⟩, by simpa [report] using holds⟩

theorem within_reportIf {found : Bool} {f : δ} (holds : P f) : (reportIf found f : Report ε δ Unit).Within P := by
  cases found with
  | true => exact within_report holds
  | false => exact within_pure ()

theorem within_bind {x : Report ε δ α} {f : α → Report ε δ β} (first : x.Within P)
    (rest : ∀ a, x.result = .ok a → (f a).Within P) : (x >>= f).Within P := by
  obtain ⟨result, findings⟩ := x
  obtain ⟨⟨a, ended⟩, holds⟩ := first
  obtain rfl : result = .ok a := ended
  obtain ⟨later, laterHolds⟩ := rest a rfl
  refine ⟨later, fun g member => ?_⟩
  rcases List.mem_append.1 member with early | late
  · exact holds g early
  · exact laterHolds g late

end Report
