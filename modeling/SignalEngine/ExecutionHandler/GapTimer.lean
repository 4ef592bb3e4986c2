import SignalEngine.ExecutionHandler.ReconciledFeed
import SignalEngine.ExecutionHandler.ReconcilerSteps
import SignalEngine.Lib.Runs

/-! # The gap timer

The timer should run exactly while a delta waits beyond the next one, from the time at
which a delta beyond the next one first came. It does so in every run in which no gap
closes from the buffer, and none opens in the buffer.
-/

namespace ExecutionHandler

namespace SymbolState

def needsSnapshot (config : ReconciliationConfig) (st : SymbolState) (now : Nat) : Option SnapshotReason :=
  if !st.isValid then some .initial
  else if config.snapshotIntervalMs < now - st.lastSnapshot then some .periodicRefresh
  else
    match st.gapDetectedAt with
    | some (_, detectedAt) => if config.gapTimeoutMs < now - detectedAt then some .gapTimeout else none
    | none => none

def HasGap (st : SymbolState) : Prop := ∃ u ∈ st.bufferedUpdates, st.currentSequence + 1 < u.sequence

/-- A gap without a timer. -/
def Untimed (st : SymbolState) : Prop := st.gapDetectedAt = none ∧ st.HasGap

/-- The sequences are numbers that have a next one, and none waits twice. -/
structure Plain (st : SymbolState) : Prop where
  bounded : Bounded st.currentSequence
  bounds : ∀ u ∈ st.bufferedUpdates, Bounded u.sequence
  distinct : (st.bufferedUpdates.map OrderbookUpdate.sequence).Nodup

theorem Plain.expected {st : SymbolState} (plain : st.Plain) : st.expected = st.currentSequence + 1 :=
  nextSequence_eq plain.bounded

end SymbolState

namespace OrderbookReconciler

def needsSnapshot (r : OrderbookReconciler) (symbol exchange : String) (now : Nat) : Option SnapshotReason :=
  (r.states.get (makeKey symbol exchange)).bind fun st => st.needsSnapshot r.config now

end OrderbookReconciler

/-- A symbol, and the time at which a delta beyond the next one first came while it was
    the next one. -/
structure TimedFeed where
  st : SymbolState
  since : Option Nat

namespace TimedFeed

def new (start : Nat) : TimedFeed := ⟨.new start, none⟩

/-- The timer tells of the gap and since when it has been open. -/
structure Tracks (w : TimedFeed) : Prop where
  runs : w.st.gapDetectedAt.isSome ↔ w.st.HasGap
  noticed : ∀ m t, w.st.gapDetectedAt = some (m, t) → m = w.st.currentSequence + 1 ∧ w.since = some t

/-- A gap has been open for longer than the limit. -/
def OpenTooLong (config : ReconciliationConfig) (w : TimedFeed) (now : Nat) : Prop :=
  w.st.HasGap ∧ ∃ t, w.since = some t ∧ config.gapTimeoutMs < now - t

variable [BookChecksum] (config : ReconciliationConfig)

def answer (w : TimedFeed) (call : OrderbookUpdate × Nat) : ReconciliationResult :=
  (w.st.processUpdate config call.1 call.2).1

def step (w : TimedFeed) (call : OrderbookUpdate × Nat) : TimedFeed :=
  let st := (w.st.processUpdate config call.1 call.2).2
  { st
    since :=
      if st.currentSequence ≠ w.st.currentSequence then none
      else if call.1.updateType ≠ .snapshot ∧ w.st.currentSequence + 1 < call.1.sequence then
        some (w.since.getD call.2)
      else w.since }

/-- The calls that keep the timer right. -/
structure Orderly (w : TimedFeed) (call : OrderbookUpdate × Nat) : Prop where
  bounded : Bounded call.1.sequence
  /-- A snapshot leaves no gap in the buffer. -/
  snapshot : call.1.updateType = .snapshot → ∀ v ∈ w.st.bufferedUpdates, v.sequence ≤ call.1.sequence + 1
  /-- An old delta is skipped, and a gap without a timer stays. -/
  old : call.1.updateType ≠ .snapshot → w.st.Serving config call.2 → call.1.sequence ≤ w.st.currentSequence →
    ¬ w.st.Untimed
  /-- The delta that starts the timer waits, and is the first beyond the next one. -/
  starts : call.1.updateType ≠ .snapshot → w.st.Serving config call.2 → w.st.Early config call.1 →
    0 < config.maxBufferedUpdates ∧ (w.st.gapDetectedAt = none → w.since = none)
  /-- The next delta does not wait when an early one comes in time. -/
  missing : call.1.updateType ≠ .snapshot → w.st.Serving config call.2 → w.st.Early config call.1 →
    call.2 - (w.st.timer call.2).2 ≤ config.gapTimeoutMs →
      ∀ v ∈ w.st.buffer config call.1, v.sequence ≠ w.st.currentSequence + 1
  /-- A delta that is reported for its checksum leaves no gap. -/
  reported : call.1.updateType ≠ .snapshot → w.st.Serving config call.2 →
    call.1.sequence = w.st.currentSequence + 1 → (w.st.follow call.1 call.2).badChecksum config call.1 ≠ none →
      config.autoSnapshotOnMismatch = false → ∀ v ∈ w.st.bufferedUpdates, v.sequence ≤ call.1.sequence + 1
  /-- All that waits follows on from the delta that is applied. -/
  follows : call.1.updateType ≠ .snapshot → w.st.Serving config call.2 →
    call.1.sequence = w.st.currentSequence + 1 → (w.st.follow call.1 call.2).badChecksum config call.1 = none →
      ∀ v ∈ w.st.bufferedUpdates, ∀ m, call.1.sequence < m → m ≤ v.sequence →
        ∃ v' ∈ w.st.bufferedUpdates, v'.sequence = m

structure Kept (w : TimedFeed) : Prop where
  plain : w.st.Plain
  timed : w.Tracks ∨ w.st.Untimed

def Asks : ReconciliationResult → Prop
  | .snapshotRequired .. => True
  | _ => False

/-- The timer is right after a call that does not ask for a snapshot, and a time-out is only
    reported for a gap that has been open too long. -/
structure Correct (w : TimedFeed) (call : OrderbookUpdate × Nat) : Prop where
  tracks : ¬ Asks (w.answer config call) → (w.step config call).Tracks
  timesOut : ∀ m n, w.answer config call = .snapshotRequired .gapTimeout m n →
    (w.step config call).OpenTooLong config call.2
  needs : ∀ now, (w.step config call).st.needsSnapshot config now = some .gapTimeout →
    (w.step config call).OpenTooLong config now

/-! ## One call -/

section Steps

variable {config} {w : TimedFeed} {update : OrderbookUpdate} {now : Nat}

omit [BookChecksum] in
theorem tracks_of_closed {st : SymbolState} {since : Option Nat} (stopped : st.gapDetectedAt = none)
    (closed : ¬ st.HasGap) : Tracks ⟨st, since⟩ := by
  refine ⟨?_, fun m t noticed => ?_⟩
  · rw [stopped]
    exact iff_of_false (by simp) closed
  · rw [stopped] at noticed
    cases noticed

omit [BookChecksum] in
theorem Tracks.openTooLong {t m : Nat} (tracks : w.Tracks) (runs : w.st.gapDetectedAt = some (m, t))
    (late : config.gapTimeoutMs < now - t) : w.OpenTooLong config now :=
  ⟨tracks.runs.1 (by rw [runs]; rfl), t, (tracks.noticed m t runs).2, late⟩

omit [BookChecksum] in
theorem Kept.needs (kept : w.Kept) (asked : w.st.needsSnapshot config now = some .gapTimeout) :
    w.OpenTooLong config now := by
  unfold SymbolState.needsSnapshot at asked
  split at asked
  · cases asked
  split at asked
  · cases asked
  split at asked
  next m t runs =>
    split at asked
    next late =>
      rcases kept.timed with tracks | untimed
      · exact tracks.openTooLong runs late
      · rw [untimed.1] at runs
        cases runs
    next => cases asked
  next => cases asked

/-- The time at which a delta beyond the next one came. -/
def sinceAfter (w : TimedFeed) (update : OrderbookUpdate) (now : Nat) : Option Nat :=
  if update.updateType ≠ .snapshot ∧ w.st.currentSequence + 1 < update.sequence then some (w.since.getD now) else w.since

omit [BookChecksum] in
theorem Tracks.again (tracks : w.Tracks) : Tracks ⟨w.st, w.sinceAfter update now⟩ := by
  refine ⟨tracks.runs, fun m t runs => ?_⟩
  obtain ⟨missing, since⟩ := tracks.noticed m t runs
  refine ⟨missing, ?_⟩
  unfold sinceAfter
  rw [since]
  split
  · rfl
  · rfl

omit [BookChecksum] in
theorem Kept.again (kept : w.Kept) : Kept ⟨w.st, w.sinceAfter update now⟩ := by
  refine ⟨kept.plain, ?_⟩
  rcases kept.timed with tracks | untimed
  · exact .inl tracks.again
  · exact .inr untimed

omit [BookChecksum] in
theorem mem_buffer (st : SymbolState) (update : OrderbookUpdate) (room : 0 < config.maxBufferedUpdates) :
    ∃ v ∈ st.buffer config update, v.sequence = update.sequence := by
  unfold SymbolState.buffer
  split
  next known =>
    obtain ⟨v, waits, same⟩ := List.any_eq_true.1 known
    exact ⟨v, waits, by simpa using same⟩
  next =>
    refine ⟨update, ?_, rfl⟩
    dsimp only
    rw [List.length_append, List.length_singleton, List.drop_append_of_le_length (by omega)]
    simp

omit [BookChecksum] in
theorem Kept.wait (kept : w.Kept) (now : Nat) (bound : Bounded update.sequence) (delta : update.updateType ≠ .snapshot)
    (early : w.st.Early config update) (room : 0 < config.maxBufferedUpdates)
    (starts : w.st.gapDetectedAt = none → w.since = none) {buffered : List OrderbookUpdate}
    (same : ∀ v, w.st.currentSequence + 1 < v.sequence → (v ∈ buffered ↔ v ∈ w.st.buffer config update))
    (among : ∀ v ∈ buffered, v ∈ w.st.buffer config update)
    (distinct : (buffered.map OrderbookUpdate.sequence).Nodup) :
    SymbolState.Plain { w.st.wait config update now with bufferedUpdates := buffered } ∧
      Tracks ⟨{ w.st.wait config update now with bufferedUpdates := buffered }, w.sinceAfter update now⟩ := by
  have above : w.st.currentSequence + 1 < update.sequence := by
    rw [← kept.plain.expected]
    exact early.early
  refine ⟨⟨kept.plain.bounded, fun v member => ?_, distinct⟩, ?_, fun m t runs => ?_⟩
  · rcases List.mem_cons.1 (SymbolState.mem_of_mem_buffer (among v member)) with rfl | old
    · exact bound
    · exact kept.plain.bounds v old
  · obtain ⟨v, waits, sequence⟩ := mem_buffer w.st update room
    have beyond : w.st.currentSequence + 1 < v.sequence := sequence ▸ above
    exact iff_of_true rfl ⟨v, (same v beyond).2 waits, beyond⟩
  · have since : w.sinceAfter update now = some (w.since.getD now) := if_pos ⟨delta, above⟩
    change some (w.st.timer now) = some (m, t) at runs
    rw [since]
    rw [Option.some.injEq, SymbolState.timer] at runs
    cases noticed : w.st.gapDetectedAt with
    | none =>
        rw [noticed, Option.getD_none, kept.plain.expected] at runs
        cases runs
        rw [starts noticed]
        exact ⟨rfl, rfl⟩
    | some gap =>
        rw [noticed, Option.getD_some] at runs
        subst runs
        rcases kept.timed with tracks | untimed
        · obtain ⟨missing, opened⟩ := tracks.noticed m t noticed
          rw [opened]
          exact ⟨missing, rfl⟩
        · rw [untimed.1] at noticed
          cases noticed

omit [BookChecksum] in
/-- After a snapshot beyond which nothing waits but the next delta. -/
theorem Kept.restart (kept : w.Kept) (bound : Bounded update.sequence)
    (closed : ∀ v ∈ w.st.bufferedUpdates, v.sequence ≤ update.sequence + 1) {since : Option Nat} :
    (w.st.restart update now).Plain ∧ Tracks ⟨w.st.restart update now, since⟩ := by
  refine ⟨⟨bound, fun v member => kept.plain.bounds v (List.mem_of_mem_filter member),
    kept.plain.distinct.sublist (List.filter_sublist.map _)⟩, tracks_of_closed rfl ?_⟩
  rintro ⟨u, waits, beyond⟩
  exact absurd beyond (not_lt.2 (closed u (List.mem_of_mem_filter waits)))

omit [BookChecksum] in
theorem Kept.follow (kept : w.Kept) (bound : Bounded update.sequence) {since : Option Nat} :
    Kept ⟨w.st.follow update now, since⟩ := by
  refine ⟨⟨bound, kept.plain.bounds, kept.plain.distinct⟩, ?_⟩
  by_cases closed : (w.st.follow update now).HasGap
  · exact .inr ⟨rfl, closed⟩
  · exact .inl (tracks_of_closed rfl closed)

omit [BookChecksum] in
theorem drainBuffer_gap (now : Nat) : ∀ (fuel : Nat) (st : SymbolState),
    (st.drainBuffer now fuel).gapDetectedAt = st.gapDetectedAt := by
  intro fuel
  induction fuel with
  | zero => exact fun _ => rfl
  | succ fuel ih =>
      intro st
      rw [SymbolState.drainBuffer]
      split
      · rfl
      · exact ih _

omit [BookChecksum] in
theorem bounded_of_advances {pool : List OrderbookUpdate} {st st' : SymbolState} (advances : st.Advances pool st')
    (bounded : Bounded st.currentSequence) (bounds : ∀ u ∈ pool, Bounded u.sequence) : Bounded st'.currentSequence := by
  obtain ⟨run, among, numbered, -, grown⟩ := advances.played
  cases length : run.length with
  | zero =>
      rw [length, Nat.add_zero] at grown
      rwa [grown]
  | succ n =>
      have member : st'.currentSequence ∈ run.map OrderbookUpdate.sequence := by
        rw [numbered, List.mem_range'_1]
        omega
      obtain ⟨u, inRun, same⟩ := List.mem_map.1 member
      rw [← same]
      exact bounds u (among u inRun)

omit [BookChecksum] in
theorem Kept.drain (kept : w.Kept) (bound : Bounded update.sequence)
    (follows : ∀ v ∈ w.st.bufferedUpdates, ∀ m, update.sequence < m → m ≤ v.sequence →
      ∃ v' ∈ w.st.bufferedUpdates, v'.sequence = m) {since : Option Nat} :
    ((w.st.follow update now).processBufferedUpdates now).Plain ∧
      Tracks ⟨(w.st.follow update now).processBufferedUpdates now, since⟩ := by
  obtain ⟨advances, settles⟩ := SymbolState.drainBuffer_advances now w.st.bufferedUpdates.length
    (w.st.follow update now) bound kept.plain.bounds kept.plain.distinct
  have settled := settles le_rfl
  have grown : update.sequence ≤ ((w.st.follow update now).processBufferedUpdates now).currentSequence :=
    advances.grown
  refine ⟨⟨bounded_of_advances advances bound kept.plain.bounds,
    fun u member => kept.plain.bounds u (advances.waiting u member), advances.distinct⟩, ?_⟩
  refine tracks_of_closed (drainBuffer_gap now _ _) ?_
  rintro ⟨u, waits, beyond⟩
  obtain ⟨v, before, sequence⟩ := follows u (advances.waiting u waits)
    (((w.st.follow update now).processBufferedUpdates now).currentSequence + 1) (by omega) beyond.le
  rcases advances.covers v before with reached | ⟨v', waits', same⟩
  · rw [sequence] at reached
    exact absurd reached (Nat.not_succ_le_self _)
  · exact settled v' waits' (same.trans sequence)

theorem step_kept (kept : w.Kept) {call : OrderbookUpdate × Nat} (orderly : w.Orderly config call) :
    (w.step config call).Kept ∧ (¬ Asks (w.answer config call) → (w.step config call).Tracks) ∧
      ∀ m n, w.answer config call = .snapshotRequired .gapTimeout m n →
        (w.step config call).OpenTooLong config call.2 := by
  obtain ⟨update, now⟩ := call
  have handled := SymbolState.processUpdate_handled config w.st update now
  have expected := kept.plain.expected
  unfold answer step
  dsimp only
  generalize (w.st.processUpdate config update now).1 = result at handled ⊢
  generalize (w.st.processUpdate config update now).2 = st' at handled ⊢
  have still (st' : SymbolState) (same : st'.currentSequence = w.st.currentSequence) :
      (if st'.currentSequence ≠ w.st.currentSequence then none
        else if update.updateType ≠ .snapshot ∧ w.st.currentSequence + 1 < update.sequence then some (w.since.getD now)
        else w.since) = w.sinceAfter update now := if_neg (not_not_intro same)
  cases handled with
  | snapshot kind fits =>
      obtain ⟨plain, tracks⟩ := kept.restart orderly.bounded (orderly.snapshot kind)
      exact ⟨⟨plain, .inl tracks⟩, fun _ => tracks, nofun⟩
  | badSnapshot kind expected actual bad =>
      obtain ⟨plain, tracks⟩ := kept.restart orderly.bounded (orderly.snapshot kind)
      exact ⟨⟨plain, .inl tracks⟩, fun _ => tracks, nofun⟩
  | refused delta idle reason known =>
      rw [still w.st rfl]
      refine ⟨kept.again, fun quiet => absurd trivial quiet, ?_⟩
      rintro m n ⟨⟩
      rcases known with impossible | impossible
      · cases impossible
      · cases impossible
  | old delta serving before text =>
      rw [still w.st rfl]
      rw [expected] at before
      have tracks := kept.timed.resolve_right (orderly.old delta serving (Nat.lt_succ_iff.1 before))
      exact ⟨kept.again, fun _ => tracks.again, nofun⟩
  | far delta serving early far =>
      rw [still w.st rfl]
      exact ⟨kept.again, fun quiet => absurd trivial quiet, nofun⟩
  | late delta serving early late =>
      obtain ⟨room, starts⟩ := orderly.starts delta serving early
      rw [still (w.st.wait config update now) rfl]
      obtain ⟨plain, tracks⟩ := kept.wait now orderly.bounded delta early room starts (fun _ _ => Iff.rfl)
        (fun _ member => member) (SymbolState.buffer_distinct config update kept.plain.distinct)
      refine ⟨⟨plain, .inl tracks⟩, fun _ => tracks, fun m n _ => ?_⟩
      exact tracks.openTooLong (t := (w.st.timer now).2) (m := (w.st.timer now).1) rfl late
  | waits delta serving early timely missing text =>
      obtain ⟨room, starts⟩ := orderly.starts delta serving early
      have mem (v : OrderbookUpdate) :
          v ∈ (SymbolState.bySequence (w.st.buffer config update)).filter (fun u => w.st.expected < u.sequence) ↔
            v ∈ w.st.buffer config update ∧ w.st.currentSequence + 1 < v.sequence := by
        rw [List.mem_filter, SymbolState.mem_bySequence, expected, decide_eq_true_eq]
      have distinct := SymbolState.buffer_distinct config update kept.plain.distinct
      rw [still { w.st.wait config update now with
        bufferedUpdates := (SymbolState.bySequence (w.st.buffer config update)).filter fun u => w.st.expected < u.sequence }
          rfl]
      obtain ⟨plain, tracks⟩ := kept.wait now orderly.bounded delta early room starts
        (fun v beyond => (mem v).trans (and_iff_left beyond)) (fun v member => ((mem v).1 member).1)
        ((((List.perm_insertionSort _ _).map _).nodup_iff.2 distinct).sublist (List.filter_sublist.map _))
      exact ⟨⟨plain, .inl tracks⟩, fun _ => tracks, nofun⟩
  | recovers delta serving early timely there count first last =>
      obtain ⟨v, waits, same⟩ := there
      exact absurd (same.trans expected) (orderly.missing delta serving early timely v waits)
  | mismatch delta serving next expected' actual bad =>
      have after := next.trans expected
      refine ⟨kept.follow orderly.bounded, fun quiet => ?_, fun m n => ?_⟩
      · cases auto : config.autoSnapshotOnMismatch with
        | true =>
            rw [auto, if_pos rfl] at quiet
            exact absurd trivial quiet
        | false =>
            have below := orderly.reported delta serving after (by simp [bad]) auto
            refine tracks_of_closed rfl ?_
            rintro ⟨u, waits, beyond⟩
            exact absurd beyond (not_lt.2 (below u waits))
      · split
        · nofun
        · nofun
  | applied delta serving next fits =>
      obtain ⟨plain, tracks⟩ := kept.drain orderly.bounded (orderly.follows delta serving (next.trans expected) fits)
      exact ⟨⟨plain, .inl tracks⟩, fun _ => tracks, nofun⟩

end Steps

omit [BookChecksum] in
theorem new_kept (start : Nat) : (new start).Kept := by
  refine ⟨⟨by simp [new, SymbolState.new, Bounded], by simp [new, SymbolState.new], by simp [new, SymbolState.new]⟩,
    .inl (tracks_of_closed rfl ?_)⟩
  rintro ⟨u, waits, -⟩
  cases waits

theorem run_state {symbol exchange : String} {calls : List (OrderbookUpdate × Nat)}
    (own : ∀ call ∈ calls, makeKey call.1.symbol call.1.exchange = makeKey symbol exchange) :
    ∀ {r : OrderbookReconciler} {w : TimedFeed}, r.config = config → r.state symbol exchange = some w.st →
      (r.processAll calls).config = config ∧
        (r.processAll calls).state symbol exchange = some (Runs.run (step config) w calls).st := by
  induction calls with
  | nil => exact fun configured known => ⟨configured, known⟩
  | cons call calls ih =>
      intro r w configured known
      refine ih (fun later member => own later (by simp [member])) configured ?_
      have key := own call (by simp)
      have next := OrderbookReconciler.processUpdate_state r call.1 call.2
      unfold OrderbookReconciler.state at known next ⊢
      rw [key, known, Option.getD_some, configured] at next
      exact next

/-- In every run of orderly calls for one symbol the timer is right after each call, and
    time-outs are reported only for a gap that has been open for too long, by the calls
    and by `needs_snapshot` after them. -/
theorem run_correct {symbol exchange : String} {first : OrderbookUpdate × Nat} {later : List (OrderbookUpdate × Nat)}
    (own : ∀ call ∈ first :: later, makeKey call.1.symbol call.1.exchange = makeKey symbol exchange)
    (orderly : Runs.Guarded (step config) (Orderly config) (new first.2) (first :: later)) :
    Runs.Guarded (step config) (Correct config) (new first.2) (first :: later) ∧
      ((OrderbookReconciler.new config).processAll (first :: later)).state symbol exchange =
        some (Runs.run (step config) (new first.2) (first :: later)).st ∧
      ∀ now, ((OrderbookReconciler.new config).processAll (first :: later)).needsSnapshot symbol exchange now =
        some .gapTimeout → (Runs.run (step config) (new first.2) (first :: later)).OpenTooLong config now := by
  have one (w : TimedFeed) (call : OrderbookUpdate × Nat) (kept : w.Kept) (orderly : w.Orderly config call) :
      (w.step config call).Kept ∧ w.Correct config call := by
    obtain ⟨after, tracks, timesOut⟩ := step_kept kept orderly
    exact ⟨after, tracks, timesOut, fun _ asked => after.needs asked⟩
  have final : ((OrderbookReconciler.new config).processAll (first :: later)).config = config ∧
      ((OrderbookReconciler.new config).processAll (first :: later)).state symbol exchange =
        some (Runs.run (step config) (new first.2) (first :: later)).st := by
    have key := own first (by simp)
    have known := OrderbookReconciler.processUpdate_state (.new config) first.1 first.2
    unfold OrderbookReconciler.state at known
    rw [key] at known
    exact run_state (w := (new first.2).step config first)
      (r := ((OrderbookReconciler.new config).processUpdate first.1 first.2).2) config
      (fun call member => own call (List.mem_cons_of_mem _ member)) rfl known
  refine ⟨Runs.guarded_of_guarded one (new_kept first.2) orderly, final.2, fun now asked => ?_⟩
  have kept := Runs.run_of_guarded (fun w call kept orderly => (one w call kept orderly).1) (new_kept first.2) orderly
  have held : ((OrderbookReconciler.new config).processAll (first :: later)).states.get (makeKey symbol exchange) = _ :=
    final.2
  refine kept.needs ?_
  rw [OrderbookReconciler.needsSnapshot, held, final.1] at asked
  exact asked

end TimedFeed

namespace GapFeed

open KrakenFeed TimedFeed

attribute [local instance] unchecked

/-- The delta 12 comes early, and 11 closes the gap. -/
def closed : List (OrderbookUpdate × Nat) := [((sent .delta 12).1, 5), ((sent .delta 11).1, 7)]

theorem closed_orderly : Runs.Guarded (step .default) (Orderly .default) (new 0) (sent .snapshot 10 :: closed) := by
  refine ⟨?_, ?_, ?_, trivial⟩
  · exact ⟨(by decide : 10 + 1 < 2 ^ 64), fun _ => by decide, fun delta => absurd rfl delta, fun delta => absurd rfl delta,
      fun delta => absurd rfl delta, fun delta => absurd rfl delta, fun delta => absurd rfl delta⟩
  · exact ⟨(by decide : 12 + 1 < 2 ^ 64), fun kind => absurd kind (by decide), fun _ _ below => absurd below (by decide +kernel),
      fun _ _ _ => ⟨by decide, fun _ => by decide +kernel⟩, fun _ _ _ _ => by decide +kernel,
      fun _ _ next => absurd next (by decide +kernel), fun _ _ next => absurd next (by decide +kernel)⟩
  · refine ⟨(by decide : 11 + 1 < 2 ^ 64), fun kind => absurd kind (by decide), fun _ _ below => absurd below (by decide +kernel),
      fun _ _ early => absurd early.early (by decide +kernel), fun _ _ early => absurd early.early (by decide +kernel),
      fun _ _ _ bad => absurd (by decide +kernel) bad, fun _ _ _ _ v waits m above below => ?_⟩
    have waiting : ∀ v ∈ (step .default (step .default (new 0) (sent .snapshot 10))
        ((sent .delta 12).1, 5)).st.bufferedUpdates, v.sequence = 12 := by decide +kernel
    have next := waiting v waits
    change 11 < m at above
    exact ⟨v, waits, by omega⟩

theorem closed_correct :
    Runs.Guarded (step .default) (Correct .default) (new 0) (sent .snapshot 10 :: closed) ∧
      ((OrderbookReconciler.new .default).processAll (sent .snapshot 10 :: closed)).state "BTC-USD" "kraken" =
        some (Runs.run (step .default) (new 0) (sent .snapshot 10 :: closed)).st ∧
      ∀ now, ((OrderbookReconciler.new .default).processAll (sent .snapshot 10 :: closed)).needsSnapshot "BTC-USD" "kraken"
        now = some .gapTimeout →
          (Runs.run (step .default) (new 0) (sent .snapshot 10 :: closed)).OpenTooLong .default now := by
  have own : ∀ call ∈ sent .snapshot 10 :: closed,
      makeKey call.1.symbol call.1.exchange = makeKey "BTC-USD" "kraken" := by decide
  exact run_correct .default own closed_orderly

/-- With 12 and 14 waiting, 11 closes the first gap and the timer stops, though 14 still
    waits for 13. -/
theorem second_gap_untimed :
    ¬ ∀ (config : ReconciliationConfig) (start : Nat) (calls : List (OrderbookUpdate × Nat)),
      Runs.Guarded (step config) (Correct config) (new start) calls := by
  intro all
  have correct := (all .default 0
    [sent .snapshot 10, ((sent .delta 12).1, 1), ((sent .delta 14).1, 2), ((sent .delta 11).1, 3)]).2.2.2.1
  have tracks := correct.tracks (by
    rw [show answer _ _ _ = ReconciliationResult.applied 11 by decide +kernel]
    exact id)
  have timed := tracks.runs.2 ⟨(sent .delta 14).1, by decide +kernel, by decide +kernel⟩
  exact absurd timed (by decide +kernel)

end GapFeed

end ExecutionHandler
