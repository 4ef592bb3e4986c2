import Mathlib.Logic.Function.Basic
import Mathlib.Algebra.Order.Ring.Int

/-! # Locks with a lease

One row a key: who holds it, and until when. A row that ran out may be taken over, and a
holder gives back its own row only. What a holder may rely on is not that it is alone,
but that nobody was let in before its lease ran out.
-/

namespace Leases

variable {K T : Type} [DecidableEq K] [DecidableEq T]

structure Lease (T : Type) where
  holder : T
  ends : Int

abbrev Table (K T : Type) := K → Option (Lease T)

namespace Table

/-- Take the row if there is none, or if it ran out. -/
def acquire (w : Table K T) (key : K) (token : T) (now length : Int) : Bool × Table K T :=
  match w key with
  | none => (true, Function.update w key (some ⟨token, now + length⟩))
  | some lease =>
      if lease.ends < now then (true, Function.update w key (some ⟨token, now + length⟩)) else (false, w)

/-- Delete the row, if it is still one's own. -/
def release (w : Table K T) (key : K) (token : T) : Table K T :=
  match w key with
  | none => w
  | some lease => if lease.holder = token then Function.update w key none else w

end Table

variable {w : Table K T} {key key' : K} {token token' : T} {now since length : Int}

omit [DecidableEq T] in
theorem acquire_cases (w : Table K T) (key : K) (token : T) (now length : Int) :
    (w.acquire key token now length = (true, Function.update w key (some ⟨token, now + length⟩)) ∧
      ∀ lease, w key = some lease → lease.ends < now) ∨
    w.acquire key token now length = (false, w) ∧ ∃ lease, w key = some lease ∧ now ≤ lease.ends := by
  unfold Table.acquire
  cases w key with
  | none => exact .inl ⟨rfl, by simp⟩
  | some lease =>
      by_cases over' : lease.ends < now
      · refine .inl ⟨if_pos over', ?_⟩
        rintro _ ⟨⟩
        exact over'
      · exact .inr ⟨if_neg over', lease, rfl, not_lt.1 over'⟩

theorem release_cases (w : Table K T) (key : K) (token : T) :
    w.release key token = w ∨
      (∃ lease, w key = some lease ∧ lease.holder = token) ∧ w.release key token = Function.update w key none := by
  unfold Table.release
  cases w key with
  | none => exact .inl rfl
  | some lease =>
      by_cases own : lease.holder = token
      · exact .inr ⟨⟨lease, rfl, own⟩, if_pos own⟩
      · exact .inl (if_neg own)

/-- The row is still the holder's, or its lease has run out. -/
def Covered (w : Table K T) (now length : Int) (key : K) (token : T) (since : Int) : Prop :=
  w key = some ⟨token, since + length⟩ ∨ since + length < now

/-- No row outlasts a whole lease from now. -/
def Bounded (w : Table K T) (now length : Int) : Prop := ∀ key lease, w key = some lease → lease.ends ≤ now + length

omit [DecidableEq K] [DecidableEq T] in
theorem Covered.later {now' : Int} (covered : Covered w now length key token since) (later : now ≤ now') :
    Covered w now' length key token since := covered.imp_right fun ended => ended.trans_le later

omit [DecidableEq K] [DecidableEq T] in
theorem Bounded.later {now' : Int} (bounded : Bounded w now length) (later : now ≤ now') : Bounded w now' length := by
  intro key lease found
  have := bounded key lease found
  omega

omit [DecidableEq T] in
theorem Bounded.acquire (bounded : Bounded w now length) :
    Bounded (w.acquire key token now length).2 now length := by
  obtain ⟨taken, -⟩ | ⟨refused, -⟩ := acquire_cases w key token now length
  · rw [taken]
    intro key' lease found
    change Function.update w key (some ⟨token, now + length⟩) key' = some lease at found
    by_cases same : key' = key
    · rw [same, Function.update_self, Option.some.injEq] at found
      rw [← found]
    · rw [Function.update_of_ne same] at found
      exact bounded key' lease found
  · rw [refused]
    exact bounded

theorem Bounded.release (bounded : Bounded w now length) : Bounded (w.release key token) now length := by
  obtain same | ⟨-, deleted⟩ := release_cases w key token
  · rw [same]
    exact bounded
  · rw [deleted]
    intro key' lease found
    by_cases same : key' = key
    · rw [same, Function.update_self] at found
      cases found
    · rw [Function.update_of_ne same] at found
      exact bounded key' lease found

omit [DecidableEq T] in
/-- Someone asks for a row; whoever holds one is covered as before. -/
theorem Covered.acquire (covered : Covered w now length key token since) :
    Covered (w.acquire key' token' now length).2 now length key token since := by
  obtain ⟨taken, free⟩ | ⟨refused, -⟩ := acquire_cases w key' token' now length
  · rw [taken]
    rcases covered with own | ended
    · by_cases same : key = key'
      · subst same
        exact .inr (free _ own)
      · exact .inl ((Function.update_of_ne same ..).trans own)
    · exact .inr ended
  · rw [refused]
    exact covered

/-- Someone else gives a row back. -/
theorem Covered.release (covered : Covered w now length key token since) (other : token ≠ token') :
    Covered (w.release key' token') now length key token since := by
  obtain same | ⟨⟨lease, found, own⟩, deleted⟩ := release_cases w key' token'
  · rw [same]
    exact covered
  · rw [deleted]
    rcases covered with row | ended
    · have apart : key ≠ key' := by
        rintro rfl
        rw [row, Option.some.injEq] at found
        exact other (by rw [← own, ← found])
      exact .inl ((Function.update_of_ne apart ..).trans row)
    · exact .inr ended

omit [DecidableEq T] in
/-- Whoever is let in is covered. -/
theorem covered_of_acquired (let' : (w.acquire key token now length).1 = true) :
    Covered (w.acquire key token now length).2 now length key token now := by
  obtain ⟨taken, -⟩ | ⟨refused, -⟩ := acquire_cases w key token now length
  · rw [taken]
    exact .inl (Function.update_self ..)
  · rw [refused] at let'
    cases let'

omit [DecidableEq T] in
/-- Whoever is let in comes after the lease of every holder of the row. -/
theorem Covered.ended_of_acquired (covered : Covered w now length key token since)
    (let' : (w.acquire key token' now length).1 = true) : since + length < now := by
  rcases covered with own | ended
  · obtain ⟨-, free⟩ | ⟨refused, -⟩ := acquire_cases w key token' now length
    · exact free _ own
    · rw [refused] at let'
      cases let'
  · exact ended

omit [DecidableEq T] in
/-- A row that no one took for longer than a lease may be taken. -/
theorem acquire_of_ended (ended : ∀ lease, w key = some lease → lease.ends < now) :
    (w.acquire key token now length).1 = true := by
  obtain ⟨taken, -⟩ | ⟨-, lease, found, le⟩ := acquire_cases w key token now length
  · rw [taken]
  · have := ended lease found
    omega

end Leases
