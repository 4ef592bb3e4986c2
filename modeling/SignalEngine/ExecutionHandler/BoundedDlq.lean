import SignalEngine.Lib.Runs
import SignalEngine.Lib.UpdateFirst
import Mathlib.Data.List.Perm.Basic
import Mathlib.Algebra.Order.Group.Nat

/-! # The bounded dead letter queue

Failed orders wait in memory up to a bound; a policy says what gives way when the
bound is reached. Every section under the lock of the queue is one step, and the
callers that wait for space take several.
-/

namespace ExecutionHandler

/-! ## Entries -/

inductive DlqOverflowPolicy where
  | dropOldest
  | dropNewest
  | dropLowestPriority
  | block
  | persistAndEvict
  deriving DecidableEq

inductive DeadLetterStatus where
  | pending
  | retrying
  | resolved
  | requiresManualReview
  | dismissed
  | permanentFailure
  deriving DecidableEq

/-- A failed order; what the order was is only carried along. -/
structure DeadLetterEntry (O : Type) where
  id : String
  order : O
  errorMessage : String
  retryCount : UInt32
  maxRetries : UInt32
  lastRetryTimestamp : Option Nat
  status : DeadLetterStatus
  deriving DecidableEq

/-- Higher is more important to keep. -/
def entryPriority {O : Type} (e : DeadLetterEntry O) : Nat :=
  let statusPriority := match e.status with
    | .requiresManualReview => 100
    | .pending => 80
    | .retrying => 70
    | .permanentFailure => 50
    | .resolved => 10
    | .dismissed => 5
  let ageBonus := (if e.retryCount = 0 then 1 else 0) * 10
  statusPriority + ageBonus

structure BoundedDlqConfig where
  maxEntries : Nat
  overflowPolicy : DlqOverflowPolicy

inductive EnqueueResult where
  | enqueued (id : String)
  | dropped
  deriving DecidableEq

structure BoundedDeadLetterQueue (O : Type) where
  entries : List (DeadLetterEntry O)
  entryCounter : Nat
  droppedCounter : Nat
  evictedCounter : Nat
  peakEntries : Nat
  overflowEntries : List (DeadLetterEntry O)

namespace BoundedDeadLetterQueue

variable {O : Type}

def new : BoundedDeadLetterQueue O := ⟨[], 0, 0, 0, 0, []⟩

/-! ## Sections under the lock -/

/-- The first of the entries with the lowest priority. -/
def lowestIdx (entries : List (DeadLetterEntry O)) : Option Nat :=
  entries.findIdx? fun e => entries.all fun other => entryPriority e ≤ entryPriority other

/-- The entry goes to the back, under a new id if it has none. -/
def pushBack (q : BoundedDeadLetterQueue O) (entry : DeadLetterEntry O) (timestamp : Nat) :
    BoundedDeadLetterQueue O × EnqueueResult :=
  if entry.id = "" then
    let id := s!"bdlq_{timestamp}_{q.entryCounter}"
    ({ q with entries := q.entries ++ [{ entry with id }], entryCounter := q.entryCounter + 1 }, .enqueued id)
  else ({ q with entries := q.entries ++ [entry] }, .enqueued entry.id)

/-- What the policy makes of a queue before an entry is added. -/
inductive Room (O : Type) where
  /-- The entry may be added; another was dropped for it, or none. -/
  | made (queue : BoundedDeadLetterQueue O) (dropped : Option (DeadLetterEntry O))
  | rejected (queue : BoundedDeadLetterQueue O)
  /-- The lock is released. -/
  | awaited (queue : BoundedDeadLetterQueue O)

def makeRoom (config : BoundedDlqConfig) (q : BoundedDeadLetterQueue O) : Room O :=
  if config.maxEntries ≤ q.entries.length then
    match config.overflowPolicy with
    | .dropOldest =>
        match q.entries with
        | dropped :: rest => .made { q with entries := rest, droppedCounter := q.droppedCounter + 1 } (some dropped)
        | [] => .made q none
    | .dropNewest => .rejected { q with droppedCounter := q.droppedCounter + 1 }
    | .dropLowestPriority =>
        match lowestIdx q.entries with
        | some idx =>
            match q.entries[idx]? with
            | some dropped =>
                .made { q with entries := q.entries.eraseIdx idx, droppedCounter := q.droppedCounter + 1 } (some dropped)
            | none => .made q none
        | none => .made q none
    | .block => .awaited q
    | .persistAndEvict =>
        match q.entries with
        | evicted :: rest =>
            .made { q with entries := rest, overflowEntries := q.overflowEntries ++ [evicted],
                           evictedCounter := q.evictedCounter + 1 } none
        | [] => .made q none
  else .made q none

/-- The first section of a call: the queue, the entry dropped for the new one, and the
    answer unless the caller waits. -/
def enqueue (config : BoundedDlqConfig) (q : BoundedDeadLetterQueue O) (entry : DeadLetterEntry O) (timestamp : Nat) :
    BoundedDeadLetterQueue O × Option (DeadLetterEntry O) × Option EnqueueResult :=
  match makeRoom config { q with peakEntries := max q.peakEntries (q.entries.length + 1) } with
  | .made q dropped =>
      let (q, answer) := q.pushBack entry timestamp
      (q, dropped, some answer)
  | .rejected q => (q, none, some .dropped)
  | .awaited q => (q, none, none)

def mark (q : BoundedDeadLetterQueue O) (id : String) (change : DeadLetterEntry O → DeadLetterEntry O) :
    BoundedDeadLetterQueue O :=
  { q with entries := updateFirst (·.id == id) change q.entries }

def markResolved (q : BoundedDeadLetterQueue O) (id : String) : BoundedDeadLetterQueue O :=
  q.mark id fun e => { e with status := .resolved }

def markRetrying (q : BoundedDeadLetterQueue O) (id : String) (timestamp : Nat) : BoundedDeadLetterQueue O :=
  q.mark id fun e =>
    { e with status := .retrying, lastRetryTimestamp := some timestamp, retryCount := e.retryCount + 1 }

def markRetryFailed (q : BoundedDeadLetterQueue O) (id newError : String) : BoundedDeadLetterQueue O :=
  q.mark id fun e =>
    { e with
      errorMessage := newError
      status := if e.maxRetries ≤ e.retryCount then .requiresManualReview else .pending }

/-- The last entries of the overflow come back, one after the other. -/
def popOverflow : Nat → BoundedDeadLetterQueue O → BoundedDeadLetterQueue O
  | 0, q => q
  | n + 1, q =>
      match q.overflowEntries.getLast? with
      | none => popOverflow n q
      | some entry =>
          popOverflow n { q with overflowEntries := q.overflowEntries.dropLast, entries := q.entries ++ [entry] }

def recoverFromOverflow (config : BoundedDlqConfig) (q : BoundedDeadLetterQueue O) (maxToRecover : Nat) :
    BoundedDeadLetterQueue O :=
  let availableSpace := config.maxEntries - q.entries.length
  let toRecover := min (min maxToRecover availableSpace) q.overflowEntries.length
  popOverflow toRecover q

end BoundedDeadLetterQueue

/-! ## Callers -/

inductive DlqPhase where
  | sleeping
  | woken
  | done
  deriving DecidableEq

/-- A caller that found the queue full under `block`. -/
structure DlqCaller (O : Type) where
  entry : DeadLetterEntry O
  phase : DlqPhase

/-- An entry that was dropped for another, and what was kept. -/
structure DlqLoss (O : Type) where
  lost : DeadLetterEntry O
  kept : List (DeadLetterEntry O)

/-- The queue and its callers, with the answers and the losses so far. -/
structure DlqWorld (O : Type) where
  queue : BoundedDeadLetterQueue O
  callers : List (DlqCaller O)
  answers : List (O × EnqueueResult)
  losses : List (DlqLoss O)

inductive DlqEvent (O : Type) where
  | enqueue (entry : DeadLetterEntry O) (timestamp : Nat)
  /-- A waiting caller looks whether there is space. -/
  | poll (caller : Nat)
  /-- A caller that saw space takes the lock again. -/
  | reenter (caller timestamp : Nat)
  | markResolved (id : String)
  | markRetrying (id : String) (timestamp : Nat)
  | markRetryFailed (id newError : String)
  | recoverFromOverflow (maxToRecover : Nat)

namespace DlqWorld

variable {O : Type}

def new : DlqWorld O := ⟨.new, [], [], []⟩

/-- A caller answered or waiting, and the loss written down. -/
def record (w : DlqWorld O) (entry : DeadLetterEntry O) :
    BoundedDeadLetterQueue O × Option (DeadLetterEntry O) × Option EnqueueResult → DlqWorld O
  | (queue, dropped, answer) => {
      queue := queue
      callers := if answer.isNone then w.callers ++ [⟨entry, .sleeping⟩] else w.callers
      answers := w.answers ++ (answer.map fun a => (entry.order, a)).toList
      losses := w.losses ++ (dropped.map fun e => ⟨e, queue.entries⟩).toList }

def step (config : BoundedDlqConfig) (w : DlqWorld O) : DlqEvent O → DlqWorld O
  | .enqueue entry timestamp => w.record entry (w.queue.enqueue config entry timestamp)
  | .poll i =>
      match w.callers[i]? with
      | some ⟨entry, .sleeping⟩ =>
          if w.queue.entries.length < config.maxEntries then { w with callers := w.callers.set i ⟨entry, .woken⟩ } else w
      | _ => w
  | .reenter i timestamp =>
      match w.callers[i]? with
      | some ⟨entry, .woken⟩ =>
          let (queue, answer) := w.queue.pushBack entry timestamp
          { w with queue, callers := w.callers.set i ⟨entry, .done⟩, answers := w.answers ++ [(entry.order, answer)] }
      | _ => w
  | .markResolved id => { w with queue := w.queue.markResolved id }
  | .markRetrying id timestamp => { w with queue := w.queue.markRetrying id timestamp }
  | .markRetryFailed id newError => { w with queue := w.queue.markRetryFailed id newError }
  | .recoverFromOverflow maxToRecover => { w with queue := w.queue.recoverFromOverflow config maxToRecover }

def enqueued (w : DlqWorld O) : List O := (w.answers.filter fun a => a.2 ≠ .dropped).map Prod.fst

def rejected (w : DlqWorld O) : Nat := w.answers.countP fun a => a.2 = .dropped

/-- The bound holds, every order answered with an id is in memory, in the overflow or
    lost, and what is lost has no higher priority than what is kept for it. -/
structure Sound (config : BoundedDlqConfig) (w : DlqWorld O) : Prop where
  bound : w.queue.entries.length ≤ config.maxEntries
  places : w.enqueued.Perm (w.queue.entries.map DeadLetterEntry.order ++
    w.queue.overflowEntries.map DeadLetterEntry.order ++ w.losses.map fun loss => loss.lost.order)
  counted : w.enqueued.length + w.rejected =
    w.queue.entries.length + w.queue.overflowEntries.length + w.queue.droppedCounter
  rejects : config.overflowPolicy ≠ .dropNewest → w.rejected = 0
  lowest : config.overflowPolicy = .dropLowestPriority →
    ∀ loss ∈ w.losses, ∀ e ∈ loss.kept, entryPriority loss.lost ≤ entryPriority e

/-- An entry that is added to a full queue has not the lowest priority of all. -/
def Fair (config : BoundedDlqConfig) (w : DlqWorld O) : DlqEvent O → Prop
  | .enqueue entry _ =>
      config.overflowPolicy = .dropLowestPriority → config.maxEntries ≤ w.queue.entries.length →
        ∃ e ∈ w.queue.entries, entryPriority e ≤ entryPriority entry
  | _ => True

end DlqWorld

/-! ## What a section does -/

namespace BoundedDeadLetterQueue

variable {O : Type} {config : BoundedDlqConfig} {q q' : BoundedDeadLetterQueue O}

def held (q : BoundedDeadLetterQueue O) : List O :=
  q.entries.map DeadLetterEntry.order ++ q.overflowEntries.map DeadLetterEntry.order

theorem pushBack_spec (q : BoundedDeadLetterQueue O) (entry : DeadLetterEntry O) (timestamp : Nat) :
    ∃ entry' id, (q.pushBack entry timestamp).2 = .enqueued id ∧ entry'.order = entry.order ∧
      entryPriority entry' = entryPriority entry ∧
      (q.pushBack entry timestamp).1.entries = q.entries ++ [entry'] ∧
      (q.pushBack entry timestamp).1.overflowEntries = q.overflowEntries ∧
      (q.pushBack entry timestamp).1.droppedCounter = q.droppedCounter := by
  unfold pushBack
  split
  · exact ⟨{ entry with id := s!"bdlq_{timestamp}_{q.entryCounter}" }, _, rfl, rfl, rfl, rfl, rfl, rfl⟩
  · exact ⟨entry, _, rfl, rfl, rfl, rfl, rfl, rfl⟩

theorem exists_lowest {entries : List (DeadLetterEntry O)} (some : entries ≠ []) :
    ∃ e ∈ entries, ∀ other ∈ entries, entryPriority e ≤ entryPriority other := by
  induction entries with
  | nil => exact absurd rfl some
  | cons a rest ih =>
      by_cases alone : rest = []
      · exact ⟨a, by simp, by simp [alone]⟩
      · obtain ⟨e, member, least⟩ := ih alone
        rcases Nat.le_total (entryPriority a) (entryPriority e) with le | le
        · refine ⟨a, by simp, fun other inside => ?_⟩
          rcases List.mem_cons.1 inside with rfl | later
          · exact le_rfl
          · exact le.trans (least other later)
        · refine ⟨e, by simp [member], fun other inside => ?_⟩
          rcases List.mem_cons.1 inside with rfl | later
          · exact le
          · exact least other later

/-- A queue with entries has a lowest one. -/
theorem lowestIdx_spec {entries : List (DeadLetterEntry O)} (some : entries ≠ []) :
    ∃ idx e, lowestIdx entries = .some idx ∧ entries[idx]? = .some e ∧ e ∈ entries ∧
      ∀ other ∈ entries, entryPriority e ≤ entryPriority other := by
  cases found : lowestIdx entries with
  | none =>
      exfalso
      obtain ⟨e, member, least⟩ := exists_lowest some
      have fails := List.findIdx?_eq_none_iff.1 found e member
      rw [← Bool.not_eq_true, List.all_eq_true] at fails
      exact fails fun other inside => decide_eq_true (least other inside)
  | some idx =>
      obtain ⟨within, holds, -⟩ := List.findIdx?_eq_some_iff_getElem.1 found
      refine ⟨idx, entries[idx], rfl, List.getElem?_eq_getElem within, List.getElem_mem within, fun other inside => ?_⟩
      exact of_decide_eq_true (List.all_eq_true.1 holds other inside)

/-- What making room does: nothing where there is space; else one entry goes to the
    overflow or is dropped. -/
theorem makeRoom_made {dropped : Option (DeadLetterEntry O)} (positive : 1 ≤ config.maxEntries)
    (bound : q.entries.length ≤ config.maxEntries) (made : makeRoom config q = .made q' dropped) :
    q'.entries.length < config.maxEntries ∧
      q.held.Perm (q'.held ++ (dropped.map DeadLetterEntry.order).toList) ∧
      q'.droppedCounter = q.droppedCounter + dropped.toList.length := by
  unfold makeRoom at made
  split at made
  next full =>
    have some : q.entries ≠ [] := by
      intro none
      rw [none, List.length_nil] at full
      omega
    split at made
    next =>
      split at made
      next e rest entries =>
        obtain ⟨rfl, rfl⟩ := Room.made.inj made
        rw [entries, List.length_cons] at bound
        refine ⟨by simp only; omega, ?_, rfl⟩
        simp only [held, entries, List.map_cons, Option.map_some, Option.toList_some, List.cons_append]
        exact (List.perm_append_singleton _ _).symm
      next none => exact absurd none some
    next => cases made
    next =>
      obtain ⟨idx, e, lowest, here, -, -⟩ := lowestIdx_spec some
      rw [lowest] at made
      simp only [here] at made
      obtain ⟨rfl, rfl⟩ := Room.made.inj made
      obtain ⟨within, value⟩ := List.getElem?_eq_some_iff.1 here
      have size := List.length_eraseIdx_of_lt within
      refine ⟨by simp only; omega, ?_, rfl⟩
      have taken : (q.entries.map DeadLetterEntry.order).Perm
          (e.order :: (q.entries.eraseIdx idx).map DeadLetterEntry.order) := by
        rw [← value, ← List.map_cons]
        exact (List.getElem_cons_eraseIdx_perm within).symm.map _
      simp only [held, Option.map_some, Option.toList_some]
      exact (taken.append_right _).trans (List.perm_append_singleton _ _).symm
    next => cases made
    next =>
      split at made
      next e rest entries =>
        obtain ⟨rfl, rfl⟩ := Room.made.inj made
        rw [entries, List.length_cons] at bound
        refine ⟨by simp only; omega, ?_, rfl⟩
        simp only [held, entries, List.map_cons, List.map_append, List.map_nil, Option.map_none, Option.toList_none,
          List.append_nil, ← List.append_assoc]
        exact (List.perm_append_singleton _ _).symm
      next none => exact absurd none some
  next space =>
    obtain ⟨rfl, rfl⟩ := Room.made.inj made
    exact ⟨not_le.1 space, by simp, rfl⟩

theorem makeRoom_lowest {e : DeadLetterEntry O} (policy : config.overflowPolicy = .dropLowestPriority)
    (made : makeRoom config q = .made q' (some e)) : config.maxEntries ≤ q.entries.length ∧ e ∈ q.entries ∧
      (∀ other ∈ q.entries, entryPriority e ≤ entryPriority other) ∧ ∀ other ∈ q'.entries, other ∈ q.entries := by
  unfold makeRoom at made
  split at made
  next full =>
    rw [policy] at made
    simp only at made
    by_cases none : q.entries = []
    · rw [none] at made
      cases made
    · obtain ⟨idx, e', lowest, here, member, least⟩ := lowestIdx_spec none
      rw [lowest] at made
      simp only [here] at made
      obtain ⟨rfl, same⟩ := Room.made.inj made
      obtain rfl := Option.some.inj same
      exact ⟨full, member, least, fun other inside => List.mem_of_mem_eraseIdx inside⟩
  next => cases made

theorem makeRoom_lowest_full (policy : config.overflowPolicy = .dropLowestPriority) (positive : 1 ≤ config.maxEntries)
    (full : config.maxEntries ≤ q.entries.length) : ∃ q' e, makeRoom config q = .made q' (some e) := by
  have some : q.entries ≠ [] := by
    intro none
    rw [none, List.length_nil] at full
    omega
  obtain ⟨idx, e, lowest, here, -, -⟩ := lowestIdx_spec some
  refine ⟨{ q with entries := q.entries.eraseIdx idx, droppedCounter := q.droppedCounter + 1 }, e, ?_⟩
  rw [makeRoom, if_pos full, policy]
  simp only [lowest, here]

theorem makeRoom_rejected (rejected : makeRoom config q = .rejected q') : config.overflowPolicy = .dropNewest ∧
    q'.entries = q.entries ∧ q'.overflowEntries = q.overflowEntries ∧ q'.droppedCounter = q.droppedCounter + 1 := by
  unfold makeRoom at rejected
  split at rejected
  · split at rejected
    · split at rejected <;> cases rejected
    next policy =>
      obtain rfl := Room.rejected.inj rejected
      exact ⟨policy, rfl, rfl, rfl⟩
    · split at rejected
      · split at rejected <;> cases rejected
      · cases rejected
    · cases rejected
    · split at rejected <;> cases rejected
  · cases rejected

theorem makeRoom_awaited (awaited : makeRoom config q = .awaited q') :
    config.overflowPolicy = .block ∧ config.maxEntries ≤ q.entries.length ∧ q' = q := by
  unfold makeRoom at awaited
  split at awaited
  next full =>
    split at awaited
    · split at awaited <;> cases awaited
    · cases awaited
    · split at awaited
      · split at awaited <;> cases awaited
      · cases awaited
    next policy =>
      obtain rfl := Room.awaited.inj awaited
      exact ⟨policy, full, rfl⟩
    · split at awaited <;> cases awaited
  · cases awaited

theorem makeRoom_block {dropped : Option (DeadLetterEntry O)} (policy : config.overflowPolicy = .block)
    (made : makeRoom config q = .made q' dropped) : q' = q ∧ q.entries.length < config.maxEntries := by
  unfold makeRoom at made
  split at made
  · rw [policy] at made
    cases made
  next space =>
    obtain ⟨rfl, -⟩ := Room.made.inj made
    exact ⟨rfl, not_le.1 space⟩

/-- Entries that come back fill the space that is there. -/
theorem popOverflow_spec (n : Nat) : ∀ q : BoundedDeadLetterQueue O, (popOverflow n q).held.Perm q.held ∧
    q.entries.length ≤ (popOverflow n q).entries.length ∧ (popOverflow n q).entries.length ≤ q.entries.length + n ∧
    (popOverflow n q).droppedCounter = q.droppedCounter := by
  induction n with
  | zero => exact fun q => ⟨.refl _, le_rfl, le_rfl, rfl⟩
  | succ n ih =>
      intro q
      rw [popOverflow]
      split
      next =>
        obtain ⟨places, more, bound, dropped⟩ := ih q
        exact ⟨places, more, by omega, dropped⟩
      next entry last =>
        obtain ⟨places, more, bound, dropped⟩ :=
          ih { q with overflowEntries := q.overflowEntries.dropLast, entries := q.entries ++ [entry] }
        simp only [List.length_append, List.length_singleton] at more bound
        refine ⟨places.trans ?_, by omega, by omega, dropped⟩
        have split : q.overflowEntries = q.overflowEntries.dropLast ++ [entry] := by
          rw [List.dropLast_append_getLast? _ last]
        have moved : (q.overflowEntries.map DeadLetterEntry.order).Perm
            (entry.order :: q.overflowEntries.dropLast.map DeadLetterEntry.order) := by
          conv_lhs => rw [split, List.map_append]
          exact List.perm_append_singleton _ _
        simp only [held, List.map_append, List.map_cons, List.map_nil, List.append_assoc, List.singleton_append]
        exact (moved.append_left _).symm

theorem recoverFromOverflow_spec (bound : q.entries.length ≤ config.maxEntries) (n : Nat) :
    (recoverFromOverflow config q n).held.Perm q.held ∧
      q.entries.length ≤ (recoverFromOverflow config q n).entries.length ∧
      (recoverFromOverflow config q n).entries.length ≤ config.maxEntries ∧
      (recoverFromOverflow config q n).droppedCounter = q.droppedCounter := by
  obtain ⟨places, more, atMost, dropped⟩ :=
    popOverflow_spec (min (min n (config.maxEntries - q.entries.length)) q.overflowEntries.length) q
  refine ⟨places, more, ?_, dropped⟩
  rw [recoverFromOverflow]
  omega

/-- A mark moves nothing. -/
theorem mark_spec {change : DeadLetterEntry O → DeadLetterEntry O} (same : ∀ e, (change e).order = e.order)
    (q : BoundedDeadLetterQueue O) (id : String) :
    (q.mark id change).held = q.held ∧ (q.mark id change).entries.length = q.entries.length ∧
      (q.mark id change).droppedCounter = q.droppedCounter := by
  have orders := map_updateFirst (p := fun e : DeadLetterEntry O => e.id == id) same q.entries
  refine ⟨?_, ?_, rfl⟩
  · rw [held, mark, orders, held]
  · have size := congrArg List.length orders
    rwa [List.length_map, List.length_map] at size

end BoundedDeadLetterQueue

/-! ## Runs -/

namespace DlqWorld

open BoundedDeadLetterQueue

variable {O : Type} {config : BoundedDlqConfig} {w : DlqWorld O}

/-- What holds under every policy. Under `block` a full queue stays full, so a caller
    that waits is never woken. -/
structure Steady (config : BoundedDlqConfig) (w : DlqWorld O) : Prop where
  bound : w.queue.entries.length ≤ config.maxEntries
  places : w.enqueued.Perm (w.queue.held ++ w.losses.map fun loss => loss.lost.order)
  counted : w.losses.length + w.rejected = w.queue.droppedCounter
  rejects : config.overflowPolicy ≠ .dropNewest → w.rejected = 0
  asleep : ∀ c ∈ w.callers, c.phase = .sleeping
  full : w.callers ≠ [] → config.overflowPolicy = .block ∧ config.maxEntries ≤ w.queue.entries.length

/-- The losses so far went to entries with no lower priority. -/
def LosesLowest (config : BoundedDlqConfig) (w : DlqWorld O) : Prop :=
  config.overflowPolicy = .dropLowestPriority →
    ∀ loss ∈ w.losses, ∀ e ∈ loss.kept, entryPriority loss.lost ≤ entryPriority e

theorem Steady.sound_iff (steady : Steady config w) : Sound config w ↔ LosesLowest config w := by
  constructor
  · exact Sound.lowest
  · intro lowest
    refine ⟨steady.bound, steady.places, ?_, steady.rejects, lowest⟩
    have sizes := steady.places.length_eq
    simp only [held, List.length_append, List.length_map] at sizes
    rw [sizes, ← steady.counted]
    omega

theorem steady_new (config : BoundedDlqConfig) : Steady config (new : DlqWorld O) :=
  ⟨Nat.zero_le _, .refl _, rfl, fun _ => rfl, by simp [new], fun some => absurd rfl some⟩

theorem Steady.moved (steady : Steady config w) {queue : BoundedDeadLetterQueue O} (places : queue.held.Perm w.queue.held)
    (bound : queue.entries.length ≤ config.maxEntries) (more : w.queue.entries.length ≤ queue.entries.length)
    (dropped : queue.droppedCounter = w.queue.droppedCounter) : Steady config { w with queue } where
  bound := bound
  places := steady.places.trans (places.symm.append_right _)
  counted := steady.counted.trans dropped.symm
  rejects := steady.rejects
  asleep := steady.asleep
  full some := ⟨(steady.full some).1, (steady.full some).2.trans more⟩

theorem Steady.marked (steady : Steady config w) {change : DeadLetterEntry O → DeadLetterEntry O}
    (same : ∀ e, (change e).order = e.order) (id : String) : Steady config { w with queue := w.queue.mark id change } := by
  obtain ⟨places, size, dropped⟩ := mark_spec same w.queue id
  exact steady.moved (.of_eq places) (size ▸ steady.bound) size.ge dropped

/-- An entry that found or was made room for: the caller is answered at once. -/
theorem Steady.added (positive : 1 ≤ config.maxEntries) (steady : Steady config w) {q : BoundedDeadLetterQueue O}
    {dropped : Option (DeadLetterEntry O)} (entry : DeadLetterEntry O) (timestamp peak : Nat)
    (made : makeRoom config { w.queue with peakEntries := peak } = .made q dropped) :
    Steady config (w.record entry ((q.pushBack entry timestamp).1, dropped, some (q.pushBack entry timestamp).2)) := by
  obtain ⟨space, places, counter⟩ :=
    makeRoom_made (q := { w.queue with peakEntries := peak }) positive steady.bound made
  obtain ⟨entry', id, answer, order, -, entries, overflow, same⟩ := pushBack_spec q entry timestamp
  have enqueued : (w.record entry ((q.pushBack entry timestamp).1, dropped, some (q.pushBack entry timestamp).2)).enqueued =
      w.enqueued ++ [entry.order] := by
    simp [DlqWorld.enqueued, record, answer]
  have rejected : (w.record entry ((q.pushBack entry timestamp).1, dropped, some (q.pushBack entry timestamp).2)).rejected =
      w.rejected := by
    simp [DlqWorld.rejected, record, answer]
  constructor
  case bound =>
    simp only [record, entries, List.length_append, List.length_singleton]
    omega
  case places =>
    rw [enqueued]
    classical
    rw [List.perm_iff_count]
    intro o
    have before := steady.places.count_eq o
    have moved := places.count_eq o
    simp only [held, List.count_append] at before moved
    cases dropped <;>
      simp only [record, held, entries, overflow, order, List.map_append, List.map_cons, List.map_nil, List.count_append, List.count_nil,
        Option.map_none, Option.map_some, Option.toList_none, Option.toList_some, List.append_nil] at moved ⊢ <;>
      omega
  case counted =>
    have counted := steady.counted
    rw [rejected]
    cases dropped <;>
      simp only [record, same, counter, List.length_append, Option.map_none, Option.map_some, Option.toList_none,
        Option.toList_some, List.length_singleton, List.length_nil] <;>
      omega
  case rejects =>
    rw [rejected]
    exact steady.rejects
  case asleep => exact steady.asleep
  case full =>
    intro waiting
    obtain ⟨policy, full⟩ := steady.full waiting
    exact absurd (makeRoom_block policy made).2 (not_lt.2 full)

theorem losesLowest_added (positive : 1 ≤ config.maxEntries) (lowest : LosesLowest config w)
    {q : BoundedDeadLetterQueue O} {dropped : Option (DeadLetterEntry O)} (entry : DeadLetterEntry O)
    (timestamp peak : Nat) (made : makeRoom config { w.queue with peakEntries := peak } = .made q dropped) :
    LosesLowest config (w.record entry ((q.pushBack entry timestamp).1, dropped, some (q.pushBack entry timestamp).2)) ↔
      Fair config w (.enqueue entry timestamp) := by
  obtain ⟨entry', id, -, -, same, entries, -, -⟩ := pushBack_spec q entry timestamp
  cases dropped with
  | none =>
      constructor
      · intro _ policy full
        obtain ⟨q', e, loses⟩ := makeRoom_lowest_full (q := { w.queue with peakEntries := peak }) policy positive full
        rw [loses] at made
        cases made
      · intro _ policy loss member
        exact lowest policy loss (by simpa [record] using member)
  | some e =>
      constructor
      · intro fair policy _
        obtain ⟨-, member, -, -⟩ := makeRoom_lowest policy made
        refine ⟨e, member, ?_⟩
        have kept := fair policy ⟨e, (q.pushBack entry timestamp).1.entries⟩ (by simp [record]) entry' (by simp [entries])
        exact same ▸ kept
      · intro fair policy loss member kept inside
        obtain ⟨full, -, least, fewer⟩ := makeRoom_lowest policy made
        simp only [record, Option.map_some, Option.toList_some, List.mem_append, List.mem_singleton] at member
        rcases member with earlier | rfl
        · exact lowest policy loss earlier kept inside
        · simp only [entries, List.mem_append, List.mem_singleton] at inside
          rcases inside with old | rfl
          · exact least kept (fewer kept old)
          · obtain ⟨other, here, le⟩ := fair policy full
            rw [same]
            exact (least other here).trans le

theorem Steady.step (positive : 1 ≤ config.maxEntries) (steady : Steady config w) (event : DlqEvent O) :
    Steady config (w.step config event) := by
  cases event with
  | enqueue entry timestamp =>
      rw [DlqWorld.step, BoundedDeadLetterQueue.enqueue]
      split
      next q dropped made => exact steady.added positive entry timestamp _ made
      next q rejected =>
        obtain ⟨policy, entries, overflow, dropped⟩ := makeRoom_rejected rejected
        constructor
        case bound => exact entries ▸ steady.bound
        case places => simpa [record, DlqWorld.enqueued, held, entries, overflow] using steady.places
        case counted =>
          have counted := steady.counted
          simp only [DlqWorld.rejected] at counted
          simp only [record, DlqWorld.rejected, dropped, ← counted]
          simp [Nat.add_assoc]
        case rejects => exact fun other => absurd policy other
        case asleep => exact fun c member => steady.asleep c (by simpa [record] using member)
        case full =>
          intro waiting
          have before := steady.full (by simpa [record] using waiting)
          rw [policy] at before
          exact absurd before.1 (by decide)
      next q awaited =>
        obtain ⟨policy, full, rfl⟩ := makeRoom_awaited awaited
        constructor
        case bound => exact steady.bound
        case places => simpa [record, DlqWorld.enqueued, held] using steady.places
        case counted => simpa [record, DlqWorld.rejected] using steady.counted
        case rejects => simpa [record, DlqWorld.rejected] using steady.rejects
        case asleep =>
          intro c member
          simp only [record, Option.isNone_none, if_true, List.mem_append, List.mem_singleton] at member
          rcases member with earlier | rfl
          · exact steady.asleep c earlier
          · rfl
        case full => exact fun _ => ⟨policy, full⟩
  | poll i =>
      rw [DlqWorld.step]
      split
      next entry found =>
        obtain ⟨-, full⟩ := steady.full (List.ne_nil_of_mem (List.mem_of_getElem? found))
        rw [if_neg (not_lt.2 full)]
        exact steady
      next => exact steady
  | reenter i timestamp =>
      rw [DlqWorld.step]
      split
      next entry found => exact absurd (steady.asleep _ (List.mem_of_getElem? found)) (by simp)
      next => exact steady
  | markResolved id =>
      apply steady.marked
      exact fun _ => rfl
  | markRetrying id timestamp =>
      apply steady.marked
      exact fun _ => rfl
  | markRetryFailed id newError =>
      apply steady.marked
      exact fun _ => rfl
  | recoverFromOverflow n =>
      obtain ⟨places, more, bound, dropped⟩ := recoverFromOverflow_spec steady.bound n
      exact steady.moved places bound more dropped

theorem losesLowest_step (positive : 1 ≤ config.maxEntries) (lowest : LosesLowest config w) (event : DlqEvent O) :
    LosesLowest config (w.step config event) ↔ Fair config w event := by
  cases event with
  | enqueue entry timestamp =>
      rw [DlqWorld.step, BoundedDeadLetterQueue.enqueue]
      split
      next q dropped made => exact losesLowest_added positive lowest entry timestamp _ made
      next q rejected =>
        have policy := (makeRoom_rejected rejected).1
        constructor
        · exact fun _ other => absurd (policy.symm.trans other) (by decide)
        · exact fun _ other => absurd (policy.symm.trans other) (by decide)
      next q awaited =>
        have policy := (makeRoom_awaited awaited).1
        constructor
        · exact fun _ other => absurd (policy.symm.trans other) (by decide)
        · exact fun _ other => absurd (policy.symm.trans other) (by decide)
  | poll i =>
      rw [DlqWorld.step]
      split
      · split <;> exact iff_of_true lowest trivial
      · exact iff_of_true lowest trivial
  | reenter i timestamp =>
      rw [DlqWorld.step]
      split
      · exact iff_of_true lowest trivial
      · exact iff_of_true lowest trivial
  | markResolved id => exact iff_of_true lowest trivial
  | markRetrying id timestamp => exact iff_of_true lowest trivial
  | markRetryFailed id newError => exact iff_of_true lowest trivial
  | recoverFromOverflow n => exact iff_of_true lowest trivial

/-- The queue keeps its bound and its entries, and drops the lowest of all, exactly in
    the runs that add no entry below the lowest to a full queue. -/
theorem queue_sound_iff (positive : 1 ≤ config.maxEntries) (events : List (DlqEvent O)) :
    Runs.Visits (step config) (Sound config) new events ↔ Runs.Guarded (step config) (Fair config) new events := by
  have start := steady_new (O := O) config
  refine Runs.visits_iff_guarded_of (I := Steady config) (A := fun _ _ => True) ?_ start
    (start.sound_iff.2 fun _ => by simp [new]) (Runs.guarded_of_forall fun _ _ => trivial)
  intro w event steady sound _
  have next := steady.step positive event
  refine ⟨next, ?_⟩
  rw [next.sound_iff]
  exact losesLowest_step positive (steady.sound_iff.1 sound) event

/-! ## A permanent failure that pushes out a pending order -/

namespace FullQueue

def oneEntry : BoundedDlqConfig := ⟨1, .dropLowestPriority⟩

def failed (status : DeadLetterStatus) (order : Nat) : DeadLetterEntry Nat :=
  ⟨"", order, "rejected", 0, 3, none, status⟩

/-- A resolved order gives way to a pending one. -/
theorem resolved_gives_way : 1 ≤ oneEntry.maxEntries ∧
    Runs.Visits (step oneEntry) (Sound oneEntry) new
      [.enqueue (failed .resolved 1) 5, .enqueue (failed .pending 2) 6] := by
  refine ⟨le_rfl, (queue_sound_iff le_rfl _).2 ⟨?empty, ?full, trivial⟩⟩
  case empty => exact fun _ full => absurd full (by decide)
  case full => exact fun _ _ => ⟨_, .head _, by decide⟩

/-- A pending order is dropped, and a permanent failure kept for it. -/
theorem pending_pushed_out : ¬ ∀ (config : BoundedDlqConfig) (events : List (DlqEvent Nat)), 1 ≤ config.maxEntries →
    Runs.Visits (step config) (Sound config) new events := by
  intro always
  have visits := always oneEntry [.enqueue (failed .pending 1) 5, .enqueue (failed .permanentFailure 2) 6] le_rfl
  have lowest := visits.2.2.lowest rfl
  exact absurd (lowest ⟨_, _⟩ (.head _) _ (.head _)) (by decide)

end FullQueue

end DlqWorld

end ExecutionHandler
