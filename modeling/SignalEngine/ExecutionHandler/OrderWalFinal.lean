import SignalEngine.ExecutionHandler.OrderWalRecovery

/-! # Ended orders

No call looks at the state of the order it is about, so a late or repeated event puts an
ended order back among the open ones. Where no such event gets as far as the order map,
what has ended stays ended, over recoveries too.
-/

open Latest

namespace ExecutionHandler

def WalEvent.orderId : WalEvent → Option String
  | logPending order _ => some order.orderId
  | logUpdate orderId _ _ => some orderId
  | _ => none

namespace WalSystem

/-- The order map has seen a terminal entry of the order. -/
def Ended (s : WalSystem) (id : String) : Prop := ∃ e ∈ s.known, e.orderId = id ∧ e.state.isTerminal = true

instance (s : WalSystem) (id : String) : Decidable (s.Ended id) :=
  inferInstanceAs (Decidable (∃ e ∈ s.known, _))

end WalSystem

/-- An ended order is called only where the order map does not have it any more, no entry of
    one is put into the order map, and no terminal entry is lost with a crash. -/
def SparesEnded (s : WalSystem) : WalEvent → Prop
  | .logPending order _ => ¬ s.Ended order.orderId
  | .logUpdate orderId _ _ => s.Ended orderId → s.wal.orders.get orderId = none
  | .apply call => ∀ e ∈ s.taken[call]?, ¬ s.Ended e.orderId
  | .crash _ => ∀ e ∈ s.known, e.state.isTerminal = true → e ∈ s.synced
  | .send _ | .requestCheckpoint | .receive | .writeLine | .readActive | .readSequence | .replaceFile => True

instance (s : WalSystem) : (event : WalEvent) → Decidable (SparesEnded s event)
  | .logPending order _ => inferInstanceAs (Decidable (¬ s.Ended order.orderId))
  | .logUpdate orderId _ _ => inferInstanceAs (Decidable (s.Ended orderId → s.wal.orders.get orderId = none))
  | .apply call => inferInstanceAs (Decidable (∀ e ∈ s.taken[call]?, ¬ s.Ended e.orderId))
  | .crash _ => inferInstanceAs (Decidable (∀ e ∈ s.known, e.state.isTerminal = true → e ∈ s.synced))
  | .send _ | .requestCheckpoint | .receive | .writeLine | .readActive | .readSequence | .replaceFile => isTrue trivial

section Steps

variable [FloatText] [WalJson] {s : WalSystem}

def Sparing (s : WalSystem) (event : WalEvent) : Prop := Careful s event ∧ SparesEnded s event

instance (s : WalSystem) (event : WalEvent) : Decidable (Sparing s event) :=
  inferInstanceAs (Decidable (_ ∧ _))

/-- What a step does to the entries the order map has seen. -/
theorem known_cases (event : WalEvent) :
    (∀ k, k ∈ (s.act event).known ↔ k ∈ s.known) ∨
      (∃ call e, event = .apply call ∧ s.taken[call]? = some e ∧
        (s.act event).wal.orders.get e.orderId = some e ∧
        ∀ k, k ∈ (s.act event).known ↔ k ∈ s.known ∨ k = e) ∨
      ∃ kept, event = .crash kept ∧ ∀ k, k ∈ (s.act event).known ↔ k ∈ s.synced := by
  cases event with
  | logPending order now => exact .inl fun k => Iff.rfl
  | logUpdate orderId update now =>
      refine .inl fun k => ?_
      unfold WalSystem.act
      dsimp only
      split <;> exact Iff.rfl
  | apply call =>
      cases found : s.taken[call]? with
      | none =>
          refine .inl fun k => ?_
          simp [WalSystem.act, found]
      | some e =>
          refine .inr (.inl ⟨call, e, rfl, found, ?_, fun k => ?_⟩)
          · simp [WalSystem.act, found, OrderWal.applyEntry, Registry.get_insert]
          · simp [WalSystem.act, found, WalSystem.known, WalSystem.written, or_assoc]
  | send call =>
      refine .inl fun k => ?_
      cases found : s.applied[call]? with
      | none => simp [WalSystem.act, found]
      | some e =>
          have perm : ∀ k, k ∈ s.applied ↔ k = e ∨ k ∈ s.applied.eraseIdx call := fun k =>
            (perm_eraseIdx found).mem_iff.trans List.mem_cons
          simp only [WalSystem.act, found, WalSystem.known, WalSystem.written, List.filterMap_append,
            List.mem_append, List.filterMap_cons, WriteCommand.entry, List.filterMap_nil, List.mem_singleton, perm]
          tauto
  | requestCheckpoint =>
      refine .inl fun k => ?_
      simp [WalSystem.act, WalSystem.known, WalSystem.written, WriteCommand.entry]
  | receive =>
      refine .inl fun k => ?_
      unfold WalSystem.act
      dsimp only
      split
      next e rest idle channel =>
        simp [WalSystem.known, WalSystem.written, idle, channel, Writer.entry, WriteCommand.entry]
      next rest idle channel =>
        simp [WalSystem.known, WalSystem.written, idle, channel, Writer.entry, WriteCommand.entry]
      next => exact Iff.rfl
  | writeLine =>
      refine .inl fun k => ?_
      unfold WalSystem.act
      dsimp only
      split
      next e writing => simp [WalSystem.known, WalSystem.written, writing, Writer.entry]
      next => exact Iff.rfl
  | readActive =>
      refine .inl fun k => ?_
      unfold WalSystem.act
      dsimp only
      split
      next checkpointing => simp [WalSystem.known, WalSystem.written, checkpointing, Writer.entry]
      next => exact Iff.rfl
  | readSequence =>
      refine .inl fun k => ?_
      unfold WalSystem.act
      dsimp only
      split
      next reading => simp [WalSystem.known, WalSystem.written, reading, Writer.entry]
      next => exact Iff.rfl
  | replaceFile =>
      refine .inl fun k => ?_
      unfold WalSystem.act
      dsimp only
      split
      next replacing => simp [WalSystem.known, WalSystem.written, replacing, Writer.entry]
      next => exact Iff.rfl
  | crash kept =>
      refine .inr (.inr ⟨kept, rfl, fun k => ?_⟩)
      simp [WalSystem.act, WalSystem.start, WalSystem.known, WalSystem.written, Writer.entry]

structure EndsLast (s : WalSystem) : Prop where
  consistent : Consistent s
  last : ∀ e ∈ s.known, e.state.isTerminal = true → IsLatestEntry s.known e.orderId e

/-- The terminal entries are kept, and their orders get no entries. -/
def KeepsEnded (s s' : WalSystem) : Prop :=
  ∀ e ∈ s.known, e.state.isTerminal = true →
    e ∈ s'.known ∧ ∀ k ∈ s'.known, k.orderId = e.orderId → k ∈ s.known

omit [FloatText] [WalJson] in
theorem KeepsEnded.trans {a b c : WalSystem} (first : KeepsEnded a b) (second : KeepsEnded b c) :
    KeepsEnded a c := by
  intro e member ended
  obtain ⟨kept, old⟩ := first e member ended
  obtain ⟨kept', old'⟩ := second e kept ended
  exact ⟨kept', fun k member' own => old k (old' k member' own) own⟩

theorem step_endsLast (s : WalSystem) (event : WalEvent) (before : EndsLast s) (sparing : Sparing s event) :
    EndsLast (s.step event) ∧ KeepsEnded s (s.step event) := by
  have consistent := step_consistent s event before.consistent sparing.1
  rw [WalSystem.step, if_pos (by simp [before.consistent.running])] at consistent ⊢
  rcases known_cases (s := s) event with same | ⟨call, e, rfl, found, get, members⟩ | ⟨kept, rfl, members⟩
  · refine ⟨⟨consistent, fun k member ended => ?_⟩, fun k member ended => ?_⟩
    · exact (before.last k ((same k).1 member) ended).congr fun k => (same k).symm
    · exact ⟨(same k).2 member, fun k' member' _ => (same k').1 member'⟩
  · -- a new entry, of an order that has not ended
    have fresh : ∀ k ∈ s.known, k.state.isTerminal = true → e.orderId ≠ k.orderId := fun k member ended own =>
      sparing.2 e found ⟨k, member, own.symm, ended⟩
    refine ⟨⟨consistent, fun k member ended => ?_⟩, fun k member ended => ⟨(members k).2 (.inl member), ?_⟩⟩
    · rcases (members k).1 member with old | rfl
      · exact (isLatest_other (fresh k old ended) members).2 (before.last k old ended)
      · exact consistent.latest _ _ get
    · intro k' member' own
      rcases (members k').1 member' with old | rfl
      · exact old
      · exact absurd own (fresh k member ended)
  · have known : ∀ k ∈ s.synced, k ∈ s.known := fun k synced => by
      simp [WalSystem.known, WalSystem.written, synced]
    refine ⟨⟨consistent, fun k member ended => ?_⟩, fun k member ended => ⟨?_, fun k' member' _ => ?_⟩⟩
    · have synced := (members k).1 member
      exact ⟨member, rfl, fun k' member' =>
        (before.last k (known k synced) ended).highest k' (known k' ((members k').1 member'))⟩
    · exact (members k).2 (sparing.2 k member ended)
    · exact known k' ((members k').1 member')

theorem start_endsLast : EndsLast WalSystem.start := ⟨start_consistent, fun _ member => nomatch member⟩

theorem call_of_ended {call : WalEvent} {id : String} (running : s.running = true) (own : call.orderId = some id)
    (ended : s.Ended id) : s.step call = s ↔ SparesEnded s call := by
  rw [WalSystem.step, if_pos (by simp [running])]
  have taken : ∀ entry, s.take entry ≠ s := fun entry same => by
    have sequence : s.wal.sequence + 1 = s.wal.sequence := congrArg (fun s => s.wal.sequence) same
    omega
  cases call with
  | logPending order now =>
      obtain rfl : order.orderId = id := Option.some.inj own
      refine iff_of_false (taken fun sequence => .new sequence now order) fun spares => ?_
      exact spares ended
  | logUpdate orderId update now =>
      obtain rfl : orderId = id := Option.some.inj own
      cases get : s.wal.orders.get orderId with
      | none => simp [WalSystem.act, SparesEnded, get]
      | some latest =>
          simp only [WalSystem.act, SparesEnded, get]
          exact iff_of_false (taken _) fun spares => by cases spares ended
  | _ => cases own

theorem EndsLast.unlisted (last : EndsLast s) {e : WalEntry} (member : e ∈ s.known)
    (ended : e.state.isTerminal = true) : ∀ listed ∈ s.wal.getIncompleteOrders, listed.orderId ≠ e.orderId := by
  rintro listed isListed own
  obtain ⟨⟨id, _⟩, active, rfl⟩ := List.mem_map.1 isListed
  obtain ⟨get, running⟩ := mem_active.1 active
  have latest := last.consistent.latest id _ get
  obtain rfl : _ = e := latest.unique last.consistent.distinct_known
    ((own.symm.trans latest.key_eq) ▸ last.last e member ended)
  rw [ended] at running
  cases running

end Steps

/-- An order that ended with an entry before stays ended with it. -/
structure StaysEnded [FloatText] [WalJson] (before s : WalSystem) (e : WalEntry) : Prop where
  latest : IsLatestEntry s.known e.orderId e
  /-- The order map has not seen another entry. -/
  unchanged : ∀ k ∈ s.known, k.orderId = e.orderId → k ∈ before.known
  held : ∀ k, s.wal.orders.get e.orderId = some k → k = e
  unlisted : ∀ listed ∈ s.wal.getIncompleteOrders, listed.orderId ≠ e.orderId
  /-- A call that is let through is refused and leaves no trace. -/
  refused : ∀ call : WalEvent, call.orderId = some e.orderId → (s.step call = s ↔ SparesEnded s call)

/-- In a run that spares ended orders, an order whose latest entry is terminal stays ended. -/
theorem ended_orders_stay_ended [FloatText] [WalJson] (events later : List WalEvent)
    (sparing : Runs.Guarded WalSystem.step Sparing .start (events ++ later)) {id : String} {e : WalEntry}
    (latest : (Runs.run WalSystem.step .start events).wal.orders.get id = some e)
    (ended : e.state.isTerminal = true) :
    e.orderId = id ∧ StaysEnded (Runs.run WalSystem.step .start events)
      (Runs.run WalSystem.step .start (events ++ later)) e := by
  obtain ⟨first, rest⟩ := Runs.guarded_append.1 sparing
  have refl : ∀ s : WalSystem, EndsLast s → KeepsEnded s s := fun _ _ _ member _ => ⟨member, fun _ known _ => known⟩
  have reached := (Runs.guarded_related refl KeepsEnded.trans step_endsLast start_endsLast first).1
  rw [Runs.run_append]
  obtain ⟨last, keeps⟩ := Runs.guarded_related refl KeepsEnded.trans step_endsLast reached rest
  have held := reached.consistent.latest id e latest
  obtain ⟨member, unchanged⟩ := keeps e held.mem ended
  have isLatest := last.last e member ended
  refine ⟨held.key_eq, isLatest, unchanged, fun k get => ?_, last.unlisted member ended, fun call own => ?_⟩
  · exact (last.consistent.latest _ k get).unique last.consistent.distinct_known isLatest
  · exact call_of_ended last.consistent.running own ⟨e, member, rfl, ended⟩

namespace LoggedOrders

def filledOrder : List WalEvent :=
  logged (.logPending (order "a") 10) ++ logged (.logUpdate "a" (.filled (.finite 2) (.finite 30000)) 11)

/-- A checkpoint drops the filled order, another is logged, the system starts again, and
    the venue repeats the fill. -/
def repeatedFill : List WalEvent :=
  checkpointed ++ logged (.logPending (order "b") 12) ++
    [.crash 0, .logUpdate "a" (.filled (.finite 2) (.finite 30000)) 13]

def filledAtOnce : WalEntry :=
  @WalEntry.transition wholeNumbers (pending 1 10 "a") (.filled (.finite 2) (.finite 30000)) 2 11

def acknowledgedLate : WalEntry := @WalEntry.transition wholeNumbers filledAtOnce (.acknowledged "x1") 3 14

@[reducible]
def finalReader : WalJson := reader [pending 1 10 "a", filledAtOnce, pending 3 12 "b", acknowledgedLate] ⟨2, []⟩

theorem filledOrder_stays_ended :
    filledAtOnce.orderId = "a" ∧
      @StaysEnded wholeNumbers finalReader (Runs.run (@WalSystem.step wholeNumbers finalReader) .start filledOrder)
        (Runs.run (@WalSystem.step wholeNumbers finalReader) .start (filledOrder ++ repeatedFill)) filledAtOnce :=
  @ended_orders_stay_ended wholeNumbers finalReader filledOrder repeatedFill (by decide +kernel) "a" filledAtOnce
    (by decide +kernel) (by decide +kernel)

def lateAcknowledgement : List WalEvent := logged (.logUpdate "a" (.acknowledged "x1") 14)

/-- The order is filled; the late call is not refused, and the order is open again, before a
    crash and after it. -/
theorem filled_order_is_listed_again :
    let filled := Runs.run (@WalSystem.step wholeNumbers finalReader) .start filledOrder
    let late := Runs.run (@WalSystem.step wholeNumbers finalReader) filled lateAcknowledgement
    filled.wal.orders.get "a" = some filledAtOnce ∧ filledAtOnce.state.isTerminal = true ∧
      late.wal.orders.get "a" ≠ filled.wal.orders.get "a" ∧ late.file ≠ filled.file ∧
      (late.wal.getIncompleteOrders.any fun listed => listed.orderId = "a") = true ∧
      ((@WalSystem.step wholeNumbers finalReader late (.crash 0)).wal.getIncompleteOrders.any
        fun listed => listed.orderId = "a") = true := by
  decide +kernel

end LoggedOrders

end ExecutionHandler
