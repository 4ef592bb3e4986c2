import SignalEngine.ExecutionHandler.ReconciledBook

/-! # What one update does

All the ways an update of a symbol is handled, each with the states and inputs in
which it is taken.
-/

namespace ExecutionHandler

namespace SymbolState

/-! ## The run at the front of a buffer -/

theorem takeRun_none (next : Nat) : ∀ us : List OrderbookUpdate, (∀ u ∈ us, u.sequence ≠ next) →
    takeRun next us = ([], us.filter (fun u => next < u.sequence), next) := by
  intro us
  induction us with
  | nil => exact fun _ => rfl
  | cons u rest ih =>
      intro missing
      have away := missing u (by simp)
      rw [takeRun, if_neg away, ih fun v member => missing v (List.mem_cons_of_mem _ member)]
      by_cases later : next < u.sequence
      · simp [later]
      · simp [later]

theorem takeRun_some (next : Nat) : ∀ us : List OrderbookUpdate, (∃ u ∈ us, u.sequence = next) →
    (takeRun next us).1 ≠ [] := by
  intro us
  induction us with
  | nil => simp
  | cons u rest ih =>
      rintro ⟨v, member, same⟩
      rw [takeRun]
      by_cases here : u.sequence = next
      · simp [here]
      · rcases List.mem_cons.1 member with rfl | among
        · exact absurd same here
        · rw [if_neg here]
          dsimp only
          split
          · exact ih ⟨v, among, same⟩
          · exact ih ⟨v, among, same⟩

def bySequence (us : List OrderbookUpdate) : List OrderbookUpdate := us.insertionSort fun u v => u.sequence ≤ v.sequence

theorem mem_bySequence {us : List OrderbookUpdate} {u : OrderbookUpdate} : u ∈ bySequence us ↔ u ∈ us :=
  List.mem_insertionSort _

theorem tryRecoverFromBuffer_none (st : SymbolState) (missing : ∀ u ∈ st.bufferedUpdates, u.sequence ≠ st.expected)
    (now : Nat) : st.tryRecoverFromBuffer now =
      (none, { st with
        bufferedUpdates := (bySequence st.bufferedUpdates).filter fun u => st.expected < u.sequence }) := by
  have nothing := takeRun_none st.expected (bySequence st.bufferedUpdates) fun u member =>
    missing u (mem_bySequence.1 member)
  unfold tryRecoverFromBuffer
  unfold bySequence at nothing ⊢
  rw [nothing]
  rfl

theorem tryRecoverFromBuffer_some (st : SymbolState) (there : ∃ u ∈ st.bufferedUpdates, u.sequence = st.expected)
    (now : Nat) : ∃ count first last, (st.tryRecoverFromBuffer now).1 = some (.recovered count first last) := by
  obtain ⟨u, member, same⟩ := there
  have some := takeRun_some st.expected (bySequence st.bufferedUpdates) ⟨u, mem_bySequence.2 member, same⟩
  unfold tryRecoverFromBuffer
  unfold bySequence at some
  dsimp only
  rw [if_neg (by simpa using some)]
  exact ⟨_, _, _, rfl⟩

/-! ## The states on the way -/

/-- Deltas are looked at. -/
def Serving (config : ReconciliationConfig) (st : SymbolState) (now : Nat) : Prop :=
  st.isValid = true ∧ now - st.lastSnapshot ≤ config.snapshotIntervalMs

instance (config : ReconciliationConfig) (st : SymbolState) (now : Nat) : Decidable (st.Serving config now) :=
  inferInstanceAs (Decidable (_ ∧ _))

def restart (st : SymbolState) (update : OrderbookUpdate) (now : Nat) : SymbolState where
  localBook := .ofSnapshot update.sequence update.bids update.asks
  currentSequence := update.sequence
  isValid := true
  lastSnapshot := now
  lastUpdate := now
  bufferedUpdates := st.bufferedUpdates.filter fun u => update.sequence < u.sequence
  gapDetectedAt := none

/-- After the delta that comes next, and before its checksum is looked at. -/
def follow (st : SymbolState) (update : OrderbookUpdate) (now : Nat) : SymbolState :=
  { st.applyDelta update now with gapDetectedAt := none }

def timer (st : SymbolState) (now : Nat) : Nat × Nat := st.gapDetectedAt.getD (st.expected, now)

def wait (config : ReconciliationConfig) (st : SymbolState) (update : OrderbookUpdate) (now : Nat) : SymbolState :=
  { st with
    bufferedUpdates := st.buffer config update
    gapDetectedAt := some (st.timer now) }

structure Early (config : ReconciliationConfig) (st : SymbolState) (update : OrderbookUpdate) : Prop where
  early : st.expected < update.sequence
  near : update.sequence - st.expected ≤ config.maxSequenceGap

variable [BookChecksum]

inductive Handled (config : ReconciliationConfig) (st : SymbolState) (update : OrderbookUpdate) (now : Nat) :
    ReconciliationResult → SymbolState → Prop where
  | snapshot (kind : update.updateType = .snapshot) (fits : (st.restart update now).badChecksum config update = none) :
      Handled config st update now (.applied update.sequence) (st.restart update now)
  | badSnapshot (kind : update.updateType = .snapshot) (expected actual : Nat)
      (bad : (st.restart update now).badChecksum config update = some (expected, actual)) :
      Handled config st update now (.checksumMismatch expected actual update.sequence) (st.restart update now)
  | refused (delta : update.updateType ≠ .snapshot) (idle : ¬ st.Serving config now) (reason : SnapshotReason)
      (known : reason = .initial ∨ reason = .periodicRefresh) :
      Handled config st update now (.snapshotRequired reason st.currentSequence update.sequence) st
  | old (delta : update.updateType ≠ .snapshot) (serving : st.Serving config now)
      (old : update.sequence < st.expected) (text : String) : Handled config st update now (.skipped text) st
  | far (delta : update.updateType ≠ .snapshot) (serving : st.Serving config now)
      (early : st.expected < update.sequence) (far : config.maxSequenceGap < update.sequence - st.expected) :
      Handled config st update now (.snapshotRequired .largeGap st.currentSequence update.sequence) st
  | late (delta : update.updateType ≠ .snapshot) (serving : st.Serving config now) (early : st.Early config update)
      (late : config.gapTimeoutMs < now - (st.timer now).2) :
      Handled config st update now (.snapshotRequired .gapTimeout st.currentSequence update.sequence)
        (st.wait config update now)
  | waits (delta : update.updateType ≠ .snapshot) (serving : st.Serving config now) (early : st.Early config update)
      (timely : now - (st.timer now).2 ≤ config.gapTimeoutMs)
      (missing : ∀ u ∈ st.buffer config update, u.sequence ≠ st.expected) (text : String) :
      Handled config st update now (.skipped text) { st.wait config update now with
        bufferedUpdates := (bySequence (st.buffer config update)).filter fun u => st.expected < u.sequence }
  | recovers (delta : update.updateType ≠ .snapshot) (serving : st.Serving config now) (early : st.Early config update)
      (timely : now - (st.timer now).2 ≤ config.gapTimeoutMs)
      (there : ∃ u ∈ st.buffer config update, u.sequence = st.expected) (count first last : Nat) :
      Handled config st update now (.recovered count first last) ((st.wait config update now).tryRecoverFromBuffer now).2
  | mismatch (delta : update.updateType ≠ .snapshot) (serving : st.Serving config now)
      (next : update.sequence = st.expected) (expected actual : Nat)
      (bad : (st.follow update now).badChecksum config update = some (expected, actual)) :
      Handled config st update now
        (if config.autoSnapshotOnMismatch then .snapshotRequired .checksumMismatch update.sequence update.sequence
          else .checksumMismatch expected actual update.sequence) (st.follow update now)
  | applied (delta : update.updateType ≠ .snapshot) (serving : st.Serving config now)
      (next : update.sequence = st.expected) (fits : (st.follow update now).badChecksum config update = none) :
      Handled config st update now (.applied update.sequence) ((st.follow update now).processBufferedUpdates now)

section Handled

variable (config : ReconciliationConfig) (st : SymbolState) (update : OrderbookUpdate) (now : Nat)

theorem applySnapshot_handled (kind : update.updateType = .snapshot) :
    Handled config st update now (st.applySnapshot config update now).1 (st.applySnapshot config update now).2 := by
  unfold applySnapshot
  dsimp only
  split
  next expected actual bad => exact .badSnapshot kind expected actual bad
  next fits => exact .snapshot kind fits

theorem processDelta_handled (delta : update.updateType ≠ .snapshot) (serving : st.Serving config now) :
    Handled config st update now (st.processDelta config update now).1 (st.processDelta config update now).2 := by
  unfold processDelta
  dsimp only
  split
  next old => exact .old delta serving old _
  next notOld =>
  split
  next early =>
    split
    next far => exact .far delta serving early far
    next near =>
      have within : st.Early config update := ⟨early, not_lt.1 near⟩
      split
      next late => exact .late delta serving within late
      next timely =>
        have timely' : now - (st.timer now).2 ≤ config.gapTimeoutMs := not_lt.1 timely
        by_cases there : ∃ u ∈ st.buffer config update, u.sequence = st.expected
        · obtain ⟨count, first, last, answer⟩ := tryRecoverFromBuffer_some (st.wait config update now) there now
          have handled : Handled config st update now _ _ :=
            .recovers delta serving within timely' there count first last
          split
          next result after recovered =>
            have recovered' : (st.wait config update now).tryRecoverFromBuffer now = (some result, after) := recovered
            rw [recovered'] at answer handled
            obtain rfl := Option.some.inj answer
            exact handled
          next after recovered =>
            have recovered' : (st.wait config update now).tryRecoverFromBuffer now = (none, after) := recovered
            rw [recovered'] at answer
            cases answer
        · have missing : ∀ u ∈ st.buffer config update, u.sequence ≠ st.expected := by simpa using there
          have nothing := tryRecoverFromBuffer_none (st.wait config update now) missing now
          split
          next result after recovered => cases nothing.symm.trans recovered
          next after recovered =>
            obtain rfl := (Prod.mk.inj (nothing.symm.trans recovered)).2
            exact .waits delta serving within timely' missing _
  next notEarly =>
    have next : update.sequence = st.expected := Nat.le_antisymm (not_lt.1 notEarly) (not_lt.1 notOld)
    split
    next expected actual bad =>
      have handled : Handled config st update now _ _ := .mismatch delta serving next expected actual bad
      split
      next auto =>
        rw [if_pos auto] at handled
        exact handled
      next manual =>
        rw [if_neg manual] at handled
        exact handled
    next fits => exact .applied delta serving next fits

theorem processUpdate_handled :
    Handled config st update now (st.processUpdate config update now).1 (st.processUpdate config update now).2 := by
  have deltas (delta : update.updateType ≠ .snapshot) : Handled config st update now
      (if !st.isValid then (.snapshotRequired .initial st.currentSequence update.sequence, st)
        else if config.snapshotIntervalMs < now - st.lastSnapshot then
          (.snapshotRequired .periodicRefresh st.currentSequence update.sequence, st)
        else st.processDelta config update now : ReconciliationResult × SymbolState).1
      (if !st.isValid then (.snapshotRequired .initial st.currentSequence update.sequence, st)
        else if config.snapshotIntervalMs < now - st.lastSnapshot then
          (.snapshotRequired .periodicRefresh st.currentSequence update.sequence, st)
        else st.processDelta config update now : ReconciliationResult × SymbolState).2 := by
    split
    next invalid => exact .refused delta (fun serving => by simp [serving.1] at invalid) _ (.inl rfl)
    next valid =>
      split
      next due => exact .refused delta (fun serving => absurd due (not_lt.2 serving.2)) _ (.inr rfl)
      next fresh => exact processDelta_handled config st update now delta ⟨by simpa using valid, not_lt.1 fresh⟩
  unfold processUpdate
  cases kind : update.updateType with
  | snapshot => exact applySnapshot_handled config st update now kind
  | delta => exact deltas (by simp [kind])
  | trade => exact deltas (by simp [kind])

end Handled

end SymbolState

end ExecutionHandler
