import SignalEngine.ExecutionHandler.ReconciledFeed
import SignalEngine.ExecutionHandler.ReconcilerSteps
import SignalEngine.Lib.Runs

/-! # Books that failed their checksum

A book that failed its checksum should not be served until a snapshot replaced it, and
every checksum should be compared. The book is not marked as invalid, and deltas from the
buffer are never compared: the runs without these two cases are right. What is done to a
book is recorded on the way, by the same steps with a record.
-/

namespace ExecutionHandler

/-! ## What happens to a book -/

/-- A delta becomes part of the book, or its checksum is compared with that of the book. -/
inductive BookEvent where
  | applied (update : OrderbookUpdate)
  | compared (update : OrderbookUpdate) (book : LocalBook)

namespace BookEvent

def update? : BookEvent → Option OrderbookUpdate
  | applied update => some update
  | compared .. => none

end BookEvent

def appliedIn (events : List BookEvent) : List OrderbookUpdate := events.filterMap BookEvent.update?

@[simp] theorem appliedIn_map (run : List OrderbookUpdate) : appliedIn (run.map .applied) = run := by
  simp [appliedIn, BookEvent.update?, Function.comp_def]

theorem appliedIn_first (c : Bool) (update u : OrderbookUpdate) (book : LocalBook) (events : List BookEvent) :
    appliedIn (.applied update :: ((if c then [.compared u book] else []) ++ events)) =
      update :: appliedIn events := by
  cases c with
  | true => rfl
  | false => rfl

/-- Each checksum is compared right after its delta is applied, with the book as it is then. -/
def AllCompared (book : LocalBook) (events : List BookEvent) : Prop :=
  ∀ before u after, events = before ++ .applied u :: after → u.checksum.isSome →
    ∃ later, after = .compared u (play book (appliedIn before ++ [u])) :: later

namespace SymbolState

def drained (st : SymbolState) (now : Nat) : (fuel : Nat) → List OrderbookUpdate
  | 0 => []
  | fuel + 1 =>
      match st.bufferedUpdates.find? (·.sequence == st.expected) with
      | none => []
      | some u =>
          let rest := st.bufferedUpdates.eraseP (·.sequence == st.expected)
          u :: ({ st with bufferedUpdates := rest }.applyDelta u now).drained now fuel

theorem drainBuffer_played (now : Nat) : ∀ (fuel : Nat) (st : SymbolState),
    (st.drainBuffer now fuel).localBook = play st.localBook (st.drained now fuel) := by
  intro fuel
  induction fuel with
  | zero => exact fun _ => rfl
  | succ fuel ih =>
      intro st
      rw [drainBuffer, drained]
      cases st.bufferedUpdates.find? (·.sequence == st.expected) with
      | none => rfl
      | some u => exact ih _

theorem foldl_played (now : Nat) (run : List OrderbookUpdate) (st : SymbolState) :
    (run.foldl (fun st u => st.applyDelta u now) st).localBook = play st.localBook run := by
  induction run generalizing st with
  | nil => rfl
  | cons u run ih => exact ih _

def recovered (config : ReconciliationConfig) (st : SymbolState) (update : OrderbookUpdate) : List OrderbookUpdate :=
  (takeRun st.expected (bySequence (st.buffer config update))).1

theorem tryRecoverFromBuffer_played (config : ReconciliationConfig) (st : SymbolState) (update : OrderbookUpdate)
    (now : Nat) : ((st.wait config update now).tryRecoverFromBuffer now).2.localBook =
      play st.localBook (st.recovered config update) := by
  unfold tryRecoverFromBuffer recovered bySequence
  dsimp only
  split
  next nothing =>
    rw [List.isEmpty_iff] at nothing
    change st.localBook = play st.localBook (takeRun st.expected _).1
    rw [show (takeRun st.expected ((st.buffer config update).insertionSort fun u v => u.sequence ≤ v.sequence)).1 = []
      from nothing]
    rfl
  next => exact foldl_played now _ _

/-! ## What the buffer brings in -/

/-- A delta in the buffer that follows on from `next` without a gap. -/
inductive FollowsOn (buffer : List OrderbookUpdate) : (next : Nat) → OrderbookUpdate → Prop where
  | here {u : OrderbookUpdate} (waits : u ∈ buffer) : FollowsOn buffer u.sequence u
  | later {u v : OrderbookUpdate} (waits : v ∈ buffer) (more : FollowsOn buffer (nextSequence v.sequence) u) :
      FollowsOn buffer v.sequence u

theorem FollowsOn.mono {buffer buffer' : List OrderbookUpdate} (more : ∀ u ∈ buffer, u ∈ buffer') {next : Nat}
    {u : OrderbookUpdate} (follows : FollowsOn buffer next u) : FollowsOn buffer' next u := by
  induction follows with
  | here waits => exact .here (more _ waits)
  | later waits _ ih => exact .later (more _ waits) ih

theorem FollowsOn.first {buffer : List OrderbookUpdate} {next : Nat} {u : OrderbookUpdate}
    (follows : FollowsOn buffer next u) : ∃ v ∈ buffer, v.sequence = next := by
  cases follows with
  | here waits => exact ⟨u, waits, rfl⟩
  | later waits _ => exact ⟨_, waits, rfl⟩

theorem drained_follows (now : Nat) {u : OrderbookUpdate} : ∀ (fuel : Nat) (st : SymbolState),
    u ∈ st.drained now fuel → FollowsOn st.bufferedUpdates st.expected u := by
  intro fuel
  induction fuel with
  | zero => exact fun _ member => nomatch member
  | succ fuel ih =>
      intro st member
      rw [drained] at member
      cases found : st.bufferedUpdates.find? (·.sequence == st.expected) with
      | none =>
          simp only [found] at member
          cases member
      | some v =>
          simp only [found, List.mem_cons] at member
          have waits := List.mem_of_find?_eq_some found
          have next : v.sequence = st.expected := by simpa using List.find?_some found
          rw [← next]
          rcases member with rfl | later
          · exact .here waits
          · exact .later waits ((ih _ later).mono fun _ kept => List.mem_of_mem_eraseP kept)

theorem takeRun_follows {u : OrderbookUpdate} : ∀ (us : List OrderbookUpdate) (next : Nat),
    u ∈ (takeRun next us).1 → FollowsOn us next u := by
  intro us
  induction us with
  | nil => exact fun _ member => nomatch member
  | cons v rest ih =>
      intro next member
      rw [takeRun] at member
      split at member
      next here =>
        subst here
        rcases List.mem_cons.1 member with rfl | later
        · exact .here (by simp)
        · exact .later (by simp) ((ih _ later).mono fun _ kept => List.mem_cons_of_mem _ kept)
      next =>
        dsimp only at member
        split at member
        · exact (ih _ member).mono fun _ kept => List.mem_cons_of_mem _ kept
        · exact (ih _ member).mono fun _ kept => List.mem_cons_of_mem _ kept

/-! ## What a delta does -/

/-- A step with a record of what was done to the book. -/
abbrev Recording : Type → Type := StateM (List BookEvent)

def recordDelta (st : SymbolState) (update : OrderbookUpdate) (now : Nat) : Recording SymbolState := do
  modify (· ++ [.applied update])
  pure (st.applyDelta update now)

def recordDrain (st : SymbolState) (now : Nat) : (fuel : Nat) → Recording SymbolState
  | 0 => pure st
  | fuel + 1 =>
      match st.bufferedUpdates.find? (·.sequence == st.expected) with
      | none => pure st
      | some u => do
          let rest := st.bufferedUpdates.eraseP (·.sequence == st.expected)
          let st ← { st with bufferedUpdates := rest }.recordDelta u now
          st.recordDrain now fuel

def recordRecovery (st : SymbolState) (now : Nat) : Recording (Option ReconciliationResult × SymbolState) := do
  let (toApply, remaining, next) :=
    takeRun st.expected (st.bufferedUpdates.insertionSort fun u v => u.sequence ≤ v.sequence)
  let buffered := { st with bufferedUpdates := remaining }
  if toApply.isEmpty then pure (none, buffered)
  else
    let after ← toApply.foldlM (fun st u => st.recordDelta u now) buffered
    pure (some (.recovered toApply.length st.expected (previousSequence next)), after)

variable [BookChecksum] (config : ReconciliationConfig)

/-- `badChecksum`: the checksum of the book is calculated and compared. -/
def recordChecksum (st : SymbolState) (update : OrderbookUpdate) : Recording (Option (Nat × Nat)) :=
  if config.checksumEnabled then
    match update.checksum with
    | none => pure none
    | some checksum => do
        let actual := BookChecksum.calculate st.localBook update.exchange
        modify (· ++ [.compared update st.localBook])
        pure (if actual != checksum then some (checksum, actual) else none)
  else pure none

def recordFollowed (st : SymbolState) (update : OrderbookUpdate) (now : Nat) :
    Recording (ReconciliationResult × SymbolState) := do
  match ← st.recordChecksum config update with
  | some (expected, actual) =>
      if config.autoSnapshotOnMismatch then
        pure (.snapshotRequired .checksumMismatch update.sequence update.sequence, st)
      else pure (.checksumMismatch expected actual update.sequence, st)
  | none =>
      let st ← st.recordDrain now st.bufferedUpdates.length
      pure (.applied update.sequence, st)

def recordProcessDelta (st : SymbolState) (update : OrderbookUpdate) (now : Nat) :
    Recording (ReconciliationResult × SymbolState) := do
  let expected := st.expected
  if update.sequence < expected then
    pure (.skipped s!"Old sequence: {update.sequence} < expected {expected}", st)
  else if expected < update.sequence then
    if config.maxSequenceGap < update.sequence - expected then
      pure (.snapshotRequired .largeGap st.currentSequence update.sequence, st)
    else
      let (missing, detectedAt) := st.gapDetectedAt.getD (expected, now)
      let waiting := { st with
        bufferedUpdates := st.buffer config update
        gapDetectedAt := some (missing, detectedAt) }
      if config.gapTimeoutMs < now - detectedAt then
        pure (.snapshotRequired .gapTimeout st.currentSequence update.sequence, waiting)
      else
        match ← waiting.recordRecovery now with
        | (some result, st) => pure (result, st)
        | (none, st) => pure (.skipped s!"Buffered: waiting for sequence {expected}", st)
  else
    let applied ← st.recordDelta update now
    { applied with gapDetectedAt := none }.recordFollowed config update now

/-- `processUpdate`; a snapshot is no delta. -/
def recordUpdate (st : SymbolState) (update : OrderbookUpdate) (now : Nat) :
    Recording (ReconciliationResult × SymbolState) :=
  match update.updateType with
  | .snapshot => pure (st.applySnapshot config update now)
  | .delta | .trade =>
      if !st.isValid then pure (.snapshotRequired .initial st.currentSequence update.sequence, st)
      else if config.snapshotIntervalMs < now - st.lastSnapshot then
        pure (.snapshotRequired .periodicRefresh st.currentSequence update.sequence, st)
      else st.recordProcessDelta config update now

def bookEvents (st : SymbolState) (update : OrderbookUpdate) (now : Nat) : List BookEvent :=
  if ¬ st.Serving config now then []
  else if update.sequence = st.expected then
    let st := st.follow update now
    .applied update ::
      ((if config.checksumEnabled && update.checksum.isSome then [.compared update st.localBook] else []) ++
        if (st.badChecksum config update).isSome then []
        else (st.drained now st.bufferedUpdates.length).map .applied)
  else if st.expected < update.sequence ∧ update.sequence - st.expected ≤ config.maxSequenceGap ∧
      now - (st.timer now).2 ≤ config.gapTimeoutMs then
    (st.recovered config update).map .applied
  else []

omit [BookChecksum] in
theorem recordDrain_run (now : Nat) : ∀ (fuel : Nat) (st : SymbolState) (log : List BookEvent),
    (st.recordDrain now fuel).run log = (st.drainBuffer now fuel, log ++ (st.drained now fuel).map .applied) := by
  intro fuel
  induction fuel with
  | zero =>
      intro st log
      rw [drained, List.map_nil, List.append_nil]
      rfl
  | succ fuel ih =>
      intro st log
      rw [recordDrain, drainBuffer, drained]
      cases st.bufferedUpdates.find? (·.sequence == st.expected) with
      | none =>
          rw [List.map_nil, List.append_nil]
          rfl
      | some u =>
          rw [List.map_cons, List.append_cons]
          exact ih _ _

omit [BookChecksum] in
theorem foldlM_recordDelta_run (now : Nat) (run : List OrderbookUpdate) (st : SymbolState) (log : List BookEvent) :
    (run.foldlM (fun (st : SymbolState) u => st.recordDelta u now) st).run log =
      (run.foldl (fun st u => st.applyDelta u now) st, log ++ run.map .applied) := by
  induction run generalizing st log with
  | nil =>
      rw [List.map_nil, List.append_nil]
      rfl
  | cons u run ih =>
      rw [List.map_cons, List.append_cons]
      exact ih _ _

omit [BookChecksum] in
theorem recordRecovery_run (st : SymbolState) (now : Nat) (log : List BookEvent) :
    (st.recordRecovery now).run log = (st.tryRecoverFromBuffer now,
      log ++ (takeRun st.expected (bySequence st.bufferedUpdates)).1.map .applied) := by
  unfold recordRecovery tryRecoverFromBuffer bySequence
  generalize takeRun st.expected (st.bufferedUpdates.insertionSort fun u v => u.sequence ≤ v.sequence) = run
  obtain ⟨toApply, remaining, next⟩ := run
  dsimp only
  split
  next nothing =>
    rw [List.isEmpty_iff.1 nothing, List.map_nil, List.append_nil]
    rfl
  next =>
    rw [StateT.run_bind, foldlM_recordDelta_run]
    rfl

theorem recordChecksum_run (st : SymbolState) (update : OrderbookUpdate) (log : List BookEvent) :
    (st.recordChecksum config update).run log = (st.badChecksum config update,
      log ++ if config.checksumEnabled && update.checksum.isSome then [.compared update st.localBook] else []) := by
  unfold recordChecksum badChecksum
  cases config.checksumEnabled with
  | false => exact congrArg (Prod.mk none) (List.append_nil log).symm
  | true =>
      cases update.checksum with
      | none => exact congrArg (Prod.mk none) (List.append_nil log).symm
      | some checksum => rfl

theorem recordFollowed_run (st : SymbolState) (update : OrderbookUpdate) (now : Nat) (log : List BookEvent) :
    (st.recordFollowed config update now).run log =
      (match st.badChecksum config update with
        | some (expected, actual) =>
            if config.autoSnapshotOnMismatch then
              (.snapshotRequired .checksumMismatch update.sequence update.sequence, st)
            else (.checksumMismatch expected actual update.sequence, st)
        | none => (.applied update.sequence, st.processBufferedUpdates now),
      log ++ ((if config.checksumEnabled && update.checksum.isSome then [.compared update st.localBook] else []) ++
        if (st.badChecksum config update).isSome then []
        else (st.drained now st.bufferedUpdates.length).map .applied)) := by
  unfold recordFollowed
  rw [StateT.run_bind, recordChecksum_run]
  cases st.badChecksum config update with
  | some bad =>
      rw [Option.isSome_some, if_pos rfl, List.append_nil]
      cases config.autoSnapshotOnMismatch with
      | true => rfl
      | false => rfl
  | none =>
      rw [← List.append_assoc]
      change StateT.run (st.recordDrain now _ >>= _) _ = _
      rw [StateT.run_bind, recordDrain_run]
      rfl

theorem recordProcessDelta_run (st : SymbolState) (update : OrderbookUpdate) {now : Nat}
    (serving : st.Serving config now) :
    (st.recordProcessDelta config update now).run [] =
      (st.processDelta config update now, st.bookEvents config update now) := by
  unfold recordProcessDelta processDelta bookEvents
  rw [if_neg (not_not_intro serving)]
  dsimp only
  split
  next old =>
    rw [if_neg old.ne, if_neg (by omega)]
    rfl
  next current =>
  split
  next early =>
    rw [if_neg early.ne']
    split
    next far =>
      rw [if_neg (by omega)]
      rfl
    next near =>
    unfold timer
    cases noticed : st.gapDetectedAt.getD (st.expected, now) with
    | mk missing detectedAt =>
        dsimp only
        split
        next late =>
          rw [if_neg (by omega)]
          rfl
        next timely =>
          rw [if_pos ⟨early, not_lt.1 near, not_lt.1 timely⟩, StateT.run_bind, recordRecovery_run]
          generalize tryRecoverFromBuffer _ now = outcome
          obtain ⟨result, st'⟩ := outcome
          cases result with
          | none => rfl
          | some result => rfl
  next same =>
    rw [if_pos (by omega)]
    exact recordFollowed_run config (st.follow update now) update now [.applied update]

theorem recordUpdate_run (st : SymbolState) {update : OrderbookUpdate} (delta : update.updateType ≠ .snapshot)
    (now : Nat) : (st.recordUpdate config update now).run [] =
      (st.processUpdate config update now, st.bookEvents config update now) := by
  have both : (st.recordUpdate config update now).run [] =
      (if !st.isValid then pure (.snapshotRequired .initial st.currentSequence update.sequence, st)
      else if config.snapshotIntervalMs < now - st.lastSnapshot then
        pure (.snapshotRequired .periodicRefresh st.currentSequence update.sequence, st)
      else st.recordProcessDelta config update now : Recording _).run [] ∧
    st.processUpdate config update now =
      if !st.isValid then (.snapshotRequired .initial st.currentSequence update.sequence, st)
      else if config.snapshotIntervalMs < now - st.lastSnapshot then
        (.snapshotRequired .periodicRefresh st.currentSequence update.sequence, st)
      else st.processDelta config update now := by
    unfold recordUpdate processUpdate
    cases kind : update.updateType with
    | snapshot => exact absurd kind delta
    | delta => exact ⟨rfl, rfl⟩
    | trade => exact ⟨rfl, rfl⟩
  rw [both.1, both.2]
  split
  next invalid =>
    have idle : ¬ st.Serving config now := fun serving => by simp [serving.1] at invalid
    rw [bookEvents, if_pos idle]
    rfl
  next valid =>
  split
  next due =>
    have idle : ¬ st.Serving config now := fun serving => absurd due (not_lt.2 serving.2)
    rw [bookEvents, if_pos idle]
    rfl
  next fresh =>
    exact recordProcessDelta_run config st update ⟨by simpa using valid, not_lt.1 fresh⟩

theorem processUpdate_played (st : SymbolState) {update : OrderbookUpdate} (delta : update.updateType ≠ .snapshot)
    (now : Nat) : (st.processUpdate config update now).2.localBook =
      play st.localBook (appliedIn (st.bookEvents config update now)) := by
  have handled := processUpdate_handled config st update now
  generalize (st.processUpdate config update now).1 = result at handled
  generalize (st.processUpdate config update now).2 = st' at handled ⊢
  unfold bookEvents
  cases handled with
  | snapshot kind fits => exact absurd kind delta
  | badSnapshot kind expected actual bad => exact absurd kind delta
  | refused delta idle reason known =>
      rw [if_pos idle]
      rfl
  | old delta serving before text =>
      rw [if_neg (not_not_intro serving), if_neg before.ne, if_neg (by omega)]
      rfl
  | far delta serving early far =>
      rw [if_neg (not_not_intro serving), if_neg early.ne', if_neg (by omega)]
      rfl
  | late delta serving early late =>
      rw [if_neg (not_not_intro serving), if_neg early.early.ne', if_neg (by omega)]
      rfl
  | waits delta serving early timely missing text =>
      rw [if_neg (not_not_intro serving), if_neg early.early.ne', if_pos ⟨early.early, early.near, timely⟩]
      have nothing := takeRun_none st.expected (bySequence (st.buffer config update)) fun u member =>
        missing u (mem_bySequence.1 member)
      rw [appliedIn_map, recovered, nothing]
      rfl
  | recovers delta serving early timely there count first last =>
      rw [if_neg (not_not_intro serving), if_neg early.early.ne', if_pos ⟨early.early, early.near, timely⟩,
        appliedIn_map]
      exact tryRecoverFromBuffer_played config st update now
  | mismatch delta serving next expected actual bad =>
      rw [if_neg (not_not_intro serving), if_pos next]
      dsimp only
      rw [bad, appliedIn_first, Option.isSome_some, if_pos rfl]
      rfl
  | applied delta serving next fits =>
      rw [if_neg (not_not_intro serving), if_pos next]
      dsimp only
      rw [fits, appliedIn_first, Option.isSome_none, if_neg Bool.false_ne_true, appliedIn_map]
      exact drainBuffer_played now _ _

def BringsIn (config : ReconciliationConfig) (st : SymbolState) (update : OrderbookUpdate) (u : OrderbookUpdate) : Prop :=
  if update.sequence = st.expected then FollowsOn st.bufferedUpdates (nextSequence update.sequence) u
  else FollowsOn (st.buffer config update) st.expected u

/-- The delta is next and its checksum fits, or it is early and the next one waits. -/
def Serves (st : SymbolState) (update : OrderbookUpdate) (now : Nat) : Prop :=
  update.updateType ≠ .snapshot ∧ st.Serving config now ∧
    (update.sequence = st.expected ∧ (st.follow update now).badChecksum config update = none ∨
      st.Early config update ∧ now - (st.timer now).2 ≤ config.gapTimeoutMs ∧
        ∃ u ∈ st.buffer config update, u.sequence = st.expected)

/-- The checksum of the update does not fit the book it leads to. -/
def Spoils (st : SymbolState) (update : OrderbookUpdate) (now : Nat) : Prop :=
  if update.updateType = .snapshot then (st.restart update now).badChecksum config update ≠ none
  else st.Serving config now ∧ update.sequence = st.expected ∧ (st.follow update now).badChecksum config update ≠ none

instance (st : SymbolState) (update : OrderbookUpdate) (now : Nat) : Decidable (st.Spoils config update now) :=
  inferInstanceAs (Decidable (if update.updateType = .snapshot then (st.restart update now).badChecksum config update ≠ none
    else st.Serving config now ∧ update.sequence = st.expected ∧
      (st.follow update now).badChecksum config update ≠ none))

def Restores (st : SymbolState) (update : OrderbookUpdate) (now : Nat) : Prop :=
  update.updateType = .snapshot ∧ (st.restart update now).badChecksum config update = none

instance (st : SymbolState) (update : OrderbookUpdate) (now : Nat) : Decidable (st.Restores config update now) :=
  inferInstanceAs (Decidable (_ ∧ _))

/-- The answer that the book failed its checksum. -/
def Mismatched : ReconciliationResult → Prop
  | .checksumMismatch .. | .snapshotRequired .checksumMismatch .. => True
  | _ => False

def Served : ReconciliationResult → Prop
  | .applied .. | .recovered .. => True
  | _ => False

section Answers

variable {config} {st : SymbolState} {update : OrderbookUpdate} {now : Nat}

theorem serves_of_served (delta : update.updateType ≠ .snapshot)
    (served : Served (st.processUpdate config update now).1) : st.Serves config update now := by
  have handled := processUpdate_handled config st update now
  generalize (st.processUpdate config update now).1 = result at handled served
  generalize (st.processUpdate config update now).2 = st' at handled
  cases handled with
  | snapshot kind fits => exact absurd kind delta
  | badSnapshot kind expected actual bad => exact served.elim
  | refused delta idle reason known => exact served.elim
  | old delta serving before text => exact served.elim
  | far delta serving early far => exact served.elim
  | late delta serving early late => exact served.elim
  | waits delta serving early timely missing text => exact served.elim
  | recovers delta serving early timely there count first last => exact ⟨delta, serving, .inr ⟨early, timely, there⟩⟩
  | mismatch delta serving next expected actual bad =>
      split at served
      · exact served.elim
      · exact served.elim
  | applied delta serving next fits => exact ⟨delta, serving, .inl ⟨next, fits⟩⟩

theorem spoils_of_mismatched (mismatched : Mismatched (st.processUpdate config update now).1) :
    st.Spoils config update now := by
  have handled := processUpdate_handled config st update now
  generalize (st.processUpdate config update now).1 = result at handled mismatched
  generalize (st.processUpdate config update now).2 = st' at handled
  unfold Spoils
  cases handled with
  | snapshot kind fits => exact mismatched.elim
  | badSnapshot kind expected actual bad =>
      rw [if_pos kind, bad]
      exact Option.some_ne_none _
  | refused delta idle reason known =>
      rcases known with rfl | rfl
      · exact mismatched.elim
      · exact mismatched.elim
  | old delta serving before text => exact mismatched.elim
  | far delta serving early far => exact mismatched.elim
  | late delta serving early late => exact mismatched.elim
  | waits delta serving early timely missing text => exact mismatched.elim
  | recovers delta serving early timely there count first last => exact mismatched.elim
  | mismatch delta serving next expected actual bad =>
      rw [if_neg delta, bad]
      exact ⟨serving, next, Option.some_ne_none _⟩
  | applied delta serving next fits => exact mismatched.elim

theorem applied_of_restores (restores : st.Restores config update now) :
    (st.processUpdate config update now).1 = .applied update.sequence := by
  obtain ⟨kind, fits⟩ := restores
  have handled := processUpdate_handled config st update now
  generalize (st.processUpdate config update now).1 = result at handled ⊢
  generalize (st.processUpdate config update now).2 = st' at handled
  cases handled with
  | snapshot kind fits => rfl
  | badSnapshot kind expected actual bad =>
      rw [fits] at bad
      cases bad
  | refused delta => exact absurd kind delta
  | old delta => exact absurd kind delta
  | far delta => exact absurd kind delta
  | late delta => exact absurd kind delta
  | waits delta => exact absurd kind delta
  | recovers delta => exact absurd kind delta
  | mismatch delta => exact absurd kind delta
  | applied delta => exact absurd kind delta

end Answers

/-! ## Comparisons -/

omit [BookChecksum] in
theorem allCompared_of_unchecked {book : LocalBook} {run : List OrderbookUpdate}
    (unchecked : ∀ u ∈ run, u.checksum = none) : AllCompared book (run.map .applied) := by
  intro before u after same checked
  have member : BookEvent.applied u ∈ run.map .applied := by
    rw [same]
    simp
  obtain ⟨v, among, eq⟩ := List.mem_map.1 member
  cases eq
  rw [unchecked u among] at checked
  cases checked

omit [BookChecksum] in
theorem allCompared_first {book : LocalBook} {update : OrderbookUpdate} {run : List OrderbookUpdate}
    (unchecked : ∀ u ∈ run, u.checksum = none) :
    AllCompared book (.applied update ::
      ((if update.checksum.isSome then [.compared update (play book [update])] else []) ++ run.map .applied)) := by
  intro before u after same checked
  cases before with
  | nil =>
      obtain ⟨first, rest⟩ := List.cons.inj same
      cases first
      rw [if_pos checked] at rest
      exact ⟨_, rest.symm⟩
  | cons event before =>
      have rest := (List.cons.inj same).2
      have member : BookEvent.applied u ∈
          (if update.checksum.isSome then [.compared update (play book [update])] else []) ++ run.map .applied := by
        rw [rest]
        simp
      rcases List.mem_append.1 member with one | later
      · split at one
        · cases List.mem_singleton.1 one
        · cases one
      · obtain ⟨v, among, eq⟩ := List.mem_map.1 later
        cases eq
        rw [unchecked u among] at checked
        cases checked

variable {config} in
theorem bookEvents_compared (enabled : config.checksumEnabled = true) {st : SymbolState} {update : OrderbookUpdate}
    (delta : update.updateType ≠ .snapshot) {now : Nat}
    (unchecked : st.Serves config update now → ∀ u, BringsIn config st update u → u.checksum = none) :
    AllCompared st.localBook (st.bookEvents config update now) := by
  have nothing : AllCompared st.localBook [] := @allCompared_of_unchecked st.localBook [] nofun
  unfold bookEvents
  split
  · exact nothing
  next serving =>
  rw [not_not] at serving
  split
  next next =>
    dsimp only
    rw [enabled, Bool.true_and]
    cases fits : (st.follow update now).badChecksum config update with
    | some bad => exact @allCompared_first st.localBook update [] nofun
    | none =>
        refine allCompared_first fun u member => unchecked ⟨delta, serving, .inl ⟨next, fits⟩⟩ u ?_
        unfold BringsIn
        rw [if_pos next]
        exact drained_follows now _ (st.follow update now) member
  next other =>
    split
    next early =>
      refine allCompared_of_unchecked fun u member => ?_
      have follows := takeRun_follows _ _ member
      have waits : ∃ v ∈ st.buffer config update, v.sequence = st.expected := by
        obtain ⟨v, kept, same⟩ := follows.first
        exact ⟨v, mem_bySequence.1 kept, same⟩
      refine unchecked ⟨delta, serving, .inr ⟨⟨early.1, early.2.1⟩, early.2.2, waits⟩⟩ u ?_
      unfold BringsIn
      rw [if_neg other]
      exact follows.mono fun v kept => mem_bySequence.1 kept
    · exact nothing

/-- A record of the very update, with all that happens to the book, compares every checksum. -/
def Compares (config : ReconciliationConfig) (st : SymbolState) (update : OrderbookUpdate) (now : Nat) : Prop :=
  ∃ events, (st.recordUpdate config update now).run [] = (st.processUpdate config update now, events) ∧
    (st.processUpdate config update now).2.localBook = play st.localBook (appliedIn events) ∧
    AllCompared st.localBook events

end SymbolState

/-! ## Runs -/

namespace OrderbookReconciler

/-- The state in which an update of a symbol is handled. -/
def found (r : OrderbookReconciler) (update : OrderbookUpdate) (now : Nat) : SymbolState :=
  (r.state update.symbol update.exchange).getD (.new now)

end OrderbookReconciler

def OrderbookUpdate.key (update : OrderbookUpdate) : String := makeKey update.symbol update.exchange

/-- A reconciler, and the symbols whose book failed its checksum and was not replaced since. -/
structure SuspectBooks where
  reconciler : OrderbookReconciler
  suspect : String → Bool

namespace SuspectBooks

variable [BookChecksum]

def new (config : ReconciliationConfig) : SuspectBooks := ⟨.new config, fun _ => false⟩

def step (w : SuspectBooks) (call : OrderbookUpdate × Nat) : SuspectBooks where
  reconciler := (w.reconciler.processUpdate call.1 call.2).2
  suspect key :=
    if key = call.1.key then
      if (w.reconciler.found call.1 call.2).Spoils w.reconciler.config call.1 call.2 then true
      else if (w.reconciler.found call.1 call.2).Restores w.reconciler.config call.1 call.2 then false
      else w.suspect key
    else w.suspect key

/-- For a book that failed its checksum only old deltas come, and a delta brings in no checksums
    from the buffer. -/
def Clean (w : SuspectBooks) (call : OrderbookUpdate × Nat) : Prop :=
  (call.1.updateType ≠ .snapshot → w.suspect call.1.key = true →
    call.1.sequence < (w.reconciler.found call.1 call.2).expected) ∧
  ((w.reconciler.found call.1 call.2).Serves w.reconciler.config call.1 call.2 →
    ∀ u, SymbolState.BringsIn w.reconciler.config (w.reconciler.found call.1 call.2) call.1 u → u.checksum = none)

theorem run_reconciler (calls : List (OrderbookUpdate × Nat)) : ∀ w : SuspectBooks,
    (Runs.run step w calls).reconciler = w.reconciler.processAll calls := by
  induction calls with
  | nil => exact fun _ => rfl
  | cons call calls ih => exact fun w => ih (w.step call)

theorem step_suspect {w : SuspectBooks} {call : OrderbookUpdate × Nat}
    (spoils : (w.reconciler.found call.1 call.2).Spoils w.reconciler.config call.1 call.2) :
    (w.step call).suspect call.1.key = true := by
  unfold step
  dsimp only
  rw [if_pos rfl, if_pos spoils]

theorem run_suspect {key : String} (calls : List (OrderbookUpdate × Nat)) : ∀ {w : SuspectBooks}, w.suspect key = true →
    (Runs.run step w calls).suspect key = true ∨
      ∃ first snap rest, calls = first ++ snap :: rest ∧ snap.1.key = key ∧
        ((Runs.run step w first).reconciler.found snap.1 snap.2).Restores (Runs.run step w first).reconciler.config
          snap.1 snap.2 := by
  induction calls with
  | nil => exact fun suspect => .inl suspect
  | cons call calls ih =>
      intro w suspect
      by_cases restores : call.1.key = key ∧
          (w.reconciler.found call.1 call.2).Restores w.reconciler.config call.1 call.2
      · exact .inr ⟨[], call, calls, rfl, restores.1, restores.2⟩
      · have still : (w.step call).suspect key = true := by
          unfold step
          dsimp only
          split
          next own =>
            split
            · rfl
            · rw [if_neg fun fits => restores ⟨own.symm, fits⟩]
              exact suspect
          next => exact suspect
        rcases ih still with later | ⟨first, snap, rest, rfl, own, fits⟩
        · exact .inl later
        · exact .inr ⟨call :: first, snap, rest, rfl, own, fits⟩

def answerAfter (config : ReconciliationConfig) (before : List (OrderbookUpdate × Nat)) (call : OrderbookUpdate × Nat) :
    ReconciliationResult :=
  (((OrderbookReconciler.new config).processAll before).processUpdate call.1 call.2).1

theorem answerAfter_eq (config : ReconciliationConfig) (before : List (OrderbookUpdate × Nat))
    (call : OrderbookUpdate × Nat) : answerAfter config before call =
      (((Runs.run step (new config) before).reconciler.found call.1 call.2).processUpdate
        (Runs.run step (new config) before).reconciler.config call.1 call.2).1 := by
  unfold answerAfter
  rw [run_reconciler]
  rfl

open SymbolState in
/-- In every run of clean calls no delta is served for a book that failed its checksum and was
    not replaced since, and every checksum is compared right after its delta is applied. -/
theorem run_checked {config : ReconciliationConfig} (enabled : config.checksumEnabled = true)
    {calls : List (OrderbookUpdate × Nat)} (clean : Runs.Guarded step Clean (new config) calls) :
    (∀ before call between served later, calls = before ++ call :: (between ++ served :: later) →
      served.1.key = call.1.key → Mismatched (answerAfter config before call) →
      served.1.updateType ≠ .snapshot → Served (answerAfter config (before ++ call :: between) served) →
        ∃ first snap rest, between = first ++ snap :: rest ∧ snap.1.key = call.1.key ∧
          snap.1.updateType = .snapshot ∧
          answerAfter config (before ++ call :: first) snap = .applied snap.1.sequence) ∧
    ∀ before call later, calls = before ++ call :: later → call.1.updateType ≠ .snapshot →
      (((OrderbookReconciler.new config).processAll before).found call.1 call.2).Compares config call.1 call.2 := by
  constructor
  · rintro before call between served later rfl own mismatched delta answered
    have guarded := (Runs.guarded_append.1 clean).2.2
    have last := (Runs.guarded_append.1 guarded).2.1
    rw [answerAfter_eq] at mismatched answered
    have suspect := step_suspect (spoils_of_mismatched mismatched)
    rw [Runs.run_append, Runs.run_cons] at answered
    rcases run_suspect between suspect with still | ⟨first, snap, rest, same, key, restores⟩
    · have old := last.1 delta (own ▸ still)
      rcases (serves_of_served delta answered).2.2 with ⟨next, -⟩ | ⟨early, -⟩
      · exact absurd next old.ne
      · exact absurd early.early old.not_gt
    · refine ⟨first, snap, rest, same, key, restores.1, ?_⟩
      rw [answerAfter_eq, Runs.run_append, Runs.run_cons]
      exact applied_of_restores restores
  · rintro before call later rfl delta
    have here := (Runs.guarded_append.1 clean).2.1
    unfold Clean at here
    rw [run_reconciler, OrderbookReconciler.processAll_config] at here
    exact ⟨_, recordUpdate_run config _ delta call.2, processUpdate_played config _ delta call.2,
      bookEvents_compared enabled delta here.2⟩

end SuspectBooks

namespace EmptyBooks

open SymbolState SuspectBooks

@[reducible] def checksum : BookChecksum := ⟨fun _ _ => 0⟩

attribute [local instance] checksum

def sent (kind : UpdateType) (sequence : Nat) (checksum : Option Nat) : OrderbookUpdate × Nat :=
  (⟨"BTC-USD", "kraken", kind, sequence, [], [], checksum⟩, 0)

/-- After a bad snapshot an old delta comes again, and a good snapshot before the next one. -/
def replaced : List (OrderbookUpdate × Nat) :=
  [sent .snapshot 10 (some 1), sent .delta 10 (some 7), sent .snapshot 10 (some 0), sent .delta 11 (some 0)]

theorem replaced_clean : Runs.Guarded step Clean (new .default) replaced := by
  have snapshot (w : SuspectBooks) (checksum : Nat) : w.Clean (sent .snapshot 10 (some checksum)) :=
    ⟨fun delta => absurd rfl delta, fun serves => absurd rfl serves.1⟩
  refine ⟨snapshot _ 1, ⟨fun _ _ => by decide +kernel, fun serves => ?_⟩, snapshot _ 0,
    ⟨fun _ suspect => absurd suspect (by decide +kernel), fun _ u brought => ?_⟩, trivial⟩
  · rcases serves.2.2 with ⟨next, -⟩ | ⟨early, -⟩
    · exact absurd next (by decide +kernel)
    · exact absurd early.early (by decide +kernel)
  · -- nothing waits
    unfold BringsIn at brought
    split at brought
    · obtain ⟨v, waits, -⟩ := brought.first
      exact absurd waits (List.not_mem_nil)
    next other => exact absurd (by decide +kernel) other

theorem replaced_checked :
    (∀ before call between served later, replaced = before ++ call :: (between ++ served :: later) →
      served.1.key = call.1.key → Mismatched (answerAfter .default before call) →
      served.1.updateType ≠ .snapshot → Served (answerAfter .default (before ++ call :: between) served) →
        ∃ first snap rest, between = first ++ snap :: rest ∧ snap.1.key = call.1.key ∧
          snap.1.updateType = .snapshot ∧
          answerAfter .default (before ++ call :: first) snap = .applied snap.1.sequence) ∧
    ∀ before call later, replaced = before ++ call :: later → call.1.updateType ≠ .snapshot →
      (((OrderbookReconciler.new .default).processAll before).found call.1 call.2).Compares .default call.1 call.2 :=
  run_checked rfl replaced_clean

/-- After a bad snapshot the next delta is applied. -/
theorem bad_snapshot_served :
    ¬ ∀ (config : ReconciliationConfig), config.checksumEnabled = true → ∀ before call between served,
      served.1.key = call.1.key → Mismatched (answerAfter config before call) → served.1.updateType ≠ .snapshot →
      Served (answerAfter config (before ++ call :: between) served) →
        ∃ first snap rest, between = first ++ snap :: rest ∧ snap.1.key = call.1.key ∧
          snap.1.updateType = .snapshot ∧
          answerAfter config (before ++ call :: first) snap = .applied snap.1.sequence := by
  intro all
  have failed : answerAfter .default [] (sent .snapshot 10 (some 1)) = .checksumMismatch 1 0 10 := by decide +kernel
  have applied : answerAfter .default [sent .snapshot 10 (some 1)] (sent .delta 11 none) = .applied 11 := by
    decide +kernel
  obtain ⟨first, snap, rest, same, -⟩ := all .default rfl [] (sent .snapshot 10 (some 1)) [] (sent .delta 11 none) rfl
    (by rw [failed]; trivial) (by decide) (by rw [List.nil_append, applied]; trivial)
  simp at same

end EmptyBooks

end ExecutionHandler
