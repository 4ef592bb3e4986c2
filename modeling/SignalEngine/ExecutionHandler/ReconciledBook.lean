import SignalEngine.ExecutionHandler.Reconciler
import Mathlib.Data.List.Perm.Subperm
import Mathlib.Tactic.Linarith

/-! # The book is the fold of the feed

Every way an update can be applied plays a run of consecutive deltas on the book,
so the book stays the last snapshot with all later deltas in order.
-/

namespace ExecutionHandler

def play (book : LocalBook) (run : List OrderbookUpdate) : LocalBook :=
  run.foldl (fun book u => book.applyLevels u.sequence u.bids u.asks) book

theorem play_append (book : LocalBook) (first second : List OrderbookUpdate) :
    play book (first ++ second) = play (play book first) second := by
  simp [play]

def Bounded (n : Nat) : Prop := n + 1 < 2 ^ 64

theorem nextSequence_eq {n : Nat} (bounded : Bounded n) : nextSequence n = n + 1 := Nat.mod_eq_of_lt bounded

/-! ## What an update can do -/

namespace SymbolState

/-- Updates of the pool are played, each one the next after the book; the rest that
    still matters waits. -/
structure Advances (pool : List OrderbookUpdate) (st st' : SymbolState) : Prop where
  played : ∃ run : List OrderbookUpdate, (∀ u ∈ run, u ∈ pool) ∧
    run.map OrderbookUpdate.sequence = List.range' (st.currentSequence + 1) run.length ∧
      st'.localBook = play st.localBook run ∧ st'.currentSequence = st.currentSequence + run.length
  waiting : ∀ u ∈ st'.bufferedUpdates, u ∈ pool
  covers : ∀ u ∈ pool, u.sequence ≤ st'.currentSequence ∨ ∃ v ∈ st'.bufferedUpdates, v.sequence = u.sequence
  distinct : (st'.bufferedUpdates.map OrderbookUpdate.sequence).Nodup
  isValid : st'.isValid = st.isValid

/-- The next update after the book does not wait. -/
def Settled (st : SymbolState) : Prop := ∀ u ∈ st.bufferedUpdates, u.sequence ≠ st.currentSequence + 1

variable (now : Nat) {config : ReconciliationConfig} {pool : List OrderbookUpdate} {st : SymbolState}

theorem Advances.refl (distinct : (st.bufferedUpdates.map OrderbookUpdate.sequence).Nodup) :
    Advances st.bufferedUpdates st st :=
  ⟨⟨[], by simp, rfl, rfl, rfl⟩, fun _ member => member, fun u member => .inr ⟨u, member, rfl⟩, distinct, rfl⟩

theorem Advances.grown {pool : List OrderbookUpdate} {st st' : SymbolState} (advances : Advances pool st st') :
    st.currentSequence ≤ st'.currentSequence := by
  obtain ⟨run, -, -, -, grown⟩ := advances.played
  omega

theorem Advances.andThen {more pool : List OrderbookUpdate} {st mid st' : SymbolState} (first : Advances pool st mid)
    (second : Advances (more ++ mid.bufferedUpdates) mid st') : Advances (more ++ pool) st st' := by
  obtain ⟨run, among, numbered, book, current⟩ := first.played
  obtain ⟨run', among', numbered', book', current'⟩ := second.played
  have known : ∀ u ∈ more ++ mid.bufferedUpdates, u ∈ more ++ pool := fun u member =>
    List.mem_append.2 ((List.mem_append.1 member).imp_right (first.waiting u))
  refine ⟨⟨run ++ run', ?_, ?_, ?_, ?_⟩, fun u member => known u (second.waiting u member), ?_,
    second.distinct, second.isValid.trans first.isValid⟩
  · intro u member
    rcases List.mem_append.1 member with early | late
    · exact List.mem_append_right _ (among u early)
    · exact known u (among' u late)
  · rw [List.map_append, numbered, numbered', current, List.length_append, ← List.range'_append_1]
    congr 2
    omega
  · rw [play_append, ← book, book']
  · rw [current', current, List.length_append]
    omega
  · intro u member
    rcases List.mem_append.1 member with new | old
    · exact second.covers u (List.mem_append_left _ new)
    · rcases first.covers u old with done | ⟨v, waits, same⟩
      · exact .inl (done.trans second.grown)
      · rw [← same]
        exact second.covers v (List.mem_append_right _ waits)

theorem Advances.trans {mid st' : SymbolState} (first : Advances pool st mid)
    (second : Advances mid.bufferedUpdates mid st') : Advances pool st st' := by
  have both : Advances ([] ++ pool) st st' := first.andThen second
  exact both

/-- Another pool; what is not in the first one is done. -/
theorem Advances.repool {pool' : List OrderbookUpdate} {st st' : SymbolState} (advances : Advances pool st st')
    (sub : ∀ u ∈ pool, u ∈ pool')
    (same : ∀ u ∈ pool', u.sequence ≤ st'.currentSequence ∨ ∃ v ∈ pool, v.sequence = u.sequence) :
    Advances pool' st st' := by
  obtain ⟨run, among, numbered⟩ := advances.played
  refine ⟨⟨run, fun u member => sub u (among u member), numbered⟩, fun u member => sub u (advances.waiting u member),
    fun u member => ?_, advances.distinct, advances.isValid⟩
  rcases same u member with done | ⟨v, known, equal⟩
  · exact .inl done
  · rw [← equal]
    exact advances.covers v known

theorem Advances.restart {st₀ st st' : SymbolState} (advances : Advances pool st st')
    (book : st.localBook = st₀.localBook) (current : st.currentSequence = st₀.currentSequence)
    (valid : st.isValid = st₀.isValid) : Advances pool st₀ st' := by
  obtain ⟨run, among, numbered, played, grown⟩ := advances.played
  rw [current] at numbered grown
  rw [book] at played
  exact ⟨⟨run, among, numbered, played, grown⟩, advances.waiting, advances.covers, advances.distinct,
    advances.isValid.trans valid⟩

theorem applyDelta_advances {u : OrderbookUpdate} (next : u.sequence = st.currentSequence + 1)
    (distinct : (st.bufferedUpdates.map OrderbookUpdate.sequence).Nodup) (now : Nat) :
    Advances (u :: st.bufferedUpdates) st (st.applyDelta u now) := by
  refine ⟨⟨[u], by simp, ?_, rfl, next⟩, fun v member => List.mem_cons_of_mem _ member, ?_, distinct, rfl⟩
  · simp [next]
  · intro v member
    rcases List.mem_cons.1 member with rfl | waits
    · exact .inl (le_refl _)
    · exact .inr ⟨v, waits, rfl⟩

/-! ### The buffer after an update in sequence -/

theorem drainBuffer_advances : ∀ (fuel : Nat) (st : SymbolState), Bounded st.currentSequence →
    (∀ u ∈ st.bufferedUpdates, Bounded u.sequence) →
    (st.bufferedUpdates.map OrderbookUpdate.sequence).Nodup →
      Advances st.bufferedUpdates st (st.drainBuffer now fuel) ∧
        (st.bufferedUpdates.length ≤ fuel → (st.drainBuffer now fuel).Settled) := by
  intro fuel
  induction fuel with
  | zero =>
      intro st _ _ distinct
      refine ⟨.refl distinct, fun short u member => ?_⟩
      have empty := List.length_eq_zero_iff.1 (Nat.le_zero.1 short)
      rw [drainBuffer, empty] at member
      cases member
  | succ fuel ih =>
      intro st bounded bounds distinct
      unfold drainBuffer
      have expected : st.expected = st.currentSequence + 1 := nextSequence_eq bounded
      split
      next missing =>
        refine ⟨.refl distinct, fun _ u member same => ?_⟩
        have other := List.find?_eq_none.1 missing u member
        rw [expected] at other
        simp [same] at other
      next u found =>
        have member := List.mem_of_find?_eq_some found
        have next : u.sequence = st.currentSequence + 1 := by
          have here := List.find?_some found
          rw [expected] at here
          simpa using here
        generalize rest : st.bufferedUpdates.eraseP (·.sequence == st.expected) = buffer
        have among : ∀ v ∈ buffer, v ∈ st.bufferedUpdates := fun v kept => List.mem_of_mem_eraseP (rest ▸ kept)
        have left : ∀ v ∈ st.bufferedUpdates, v.sequence = u.sequence ∨ v ∈ buffer := by
          intro v waits
          by_cases own : v.sequence = st.expected
          · exact .inl (own.trans (expected.trans next.symm))
          · right
            rw [← rest, List.mem_eraseP_of_neg (by simpa using own)]
            exact waits
        have distinct' : (buffer.map OrderbookUpdate.sequence).Nodup := by
          rw [← rest]
          exact distinct.sublist ((List.eraseP_sublist ..).map _)
        have one := @applyDelta_advances { st with bufferedUpdates := buffer } u next distinct' now
        have first : Advances st.bufferedUpdates st
            ({ st with bufferedUpdates := buffer }.applyDelta u now) := by
          have same : Advances (u :: buffer) st ({ st with bufferedUpdates := buffer }.applyDelta u now) :=
            one.restart rfl rfl rfl
          refine same.repool (fun v kept => ?_) fun v waits => ?_
          · rcases List.mem_cons.1 kept with rfl | kept
            · exact member
            · exact among v kept
          · rcases left v waits with same | kept
            · exact .inr ⟨u, by simp, same.symm⟩
            · exact .inr ⟨v, List.mem_cons_of_mem _ kept, rfl⟩
        obtain ⟨later, settles⟩ := ih ({ st with bufferedUpdates := buffer }.applyDelta u now) (bounds u member)
          (fun v kept => bounds v (among v kept)) distinct'
        refine ⟨first.trans later, fun enough => settles ?_⟩
        have shorter : buffer.length = st.bufferedUpdates.length - 1 := by
          rw [← rest]
          exact List.length_eraseP_of_mem member (by simpa using next.trans expected.symm)
        change buffer.length ≤ fuel
        omega

/-! ### Recovery from the buffer -/

structure TakesRun (next : Nat) (us toApply remaining : List OrderbookUpdate) (after : Nat) : Prop where
  numbered : toApply.map OrderbookUpdate.sequence = List.range' next toApply.length
  reached : after = next + toApply.length
  among : ∀ u ∈ toApply, u ∈ us
  kept : remaining.Sublist us
  covers : ∀ u ∈ us, u.sequence < after ∨ u ∈ remaining
  stops : us.Pairwise (fun u v => u.sequence < v.sequence) → ∀ u ∈ remaining, after < u.sequence

theorem takeRun_later {next : Nat} : ∀ us : List OrderbookUpdate, (∀ u ∈ us, next < u.sequence) →
    takeRun next us = ([], us, next) := by
  intro us
  induction us with
  | nil => exact fun _ => rfl
  | cons u rest ih =>
      intro later
      have first := later u (by simp)
      rw [takeRun, if_neg (by omega), ih fun v member => later v (List.mem_cons_of_mem _ member)]
      simp only [if_pos first]

theorem takeRun_spec : ∀ (us : List OrderbookUpdate) (next : Nat), (∀ u ∈ us, Bounded u.sequence) →
    TakesRun next us (takeRun next us).1 (takeRun next us).2.1 (takeRun next us).2.2 := by
  intro us
  induction us with
  | nil => exact fun next _ => ⟨rfl, rfl, by simp [takeRun], List.Sublist.refl _, by simp, by simp [takeRun]⟩
  | cons u rest ih =>
      intro next bounds
      have bounds' : ∀ v ∈ rest, Bounded v.sequence := fun v member => bounds v (List.mem_cons_of_mem _ member)
      unfold takeRun
      split
      next here =>
        have succ : nextSequence next = next + 1 := nextSequence_eq (here ▸ bounds u (by simp))
        have taken := ih (next + 1) bounds'
        rw [succ]
        refine ⟨?_, ?_, ?_, taken.kept.cons _, ?_, fun sorted => ?_⟩
        · simp only [List.map_cons, List.length_cons, List.range'_succ, here, taken.numbered]
        · simp only [List.length_cons, taken.reached]
          omega
        · intro v member
          rcases List.mem_cons.1 member with rfl | later
          · simp
          · exact List.mem_cons_of_mem _ (taken.among v later)
        · intro v member
          rcases List.mem_cons.1 member with rfl | later
          · left
            dsimp only
            rw [taken.reached, here]
            omega
          · exact taken.covers v later
        · exact taken.stops (List.pairwise_cons.1 sorted).2
      next away =>
        have taken := ih next bounds'
        dsimp only
        split
        next later =>
          refine ⟨taken.numbered, taken.reached, fun v member => List.mem_cons_of_mem _ (taken.among v member),
            taken.kept.cons_cons _, ?_, fun sorted => ?_⟩
          · intro v member
            rcases List.mem_cons.1 member with rfl | among
            · exact .inr (by simp)
            · exact (taken.covers v among).imp_right (List.mem_cons_of_mem _)
          · -- nothing follows on from `next`, so the run is empty
            obtain ⟨first, rest'⟩ := List.pairwise_cons.1 sorted
            have skipped := takeRun_later rest fun v among => later.trans (first v among)
            intro v member
            simp only [skipped] at member ⊢
            rcases List.mem_cons.1 member with rfl | among
            · exact later
            · exact later.trans (first v among)
        next early =>
          refine ⟨taken.numbered, taken.reached, fun v member => List.mem_cons_of_mem _ (taken.among v member),
            taken.kept.cons _, ?_, fun sorted => taken.stops (List.pairwise_cons.1 sorted).2⟩
          intro v member
          rcases List.mem_cons.1 member with rfl | among
          · have same := taken.reached
            left
            change v.sequence < (takeRun next rest).2.2
            omega
          · exact taken.covers v among

theorem applyRun_advances : ∀ (run : List OrderbookUpdate) (st : SymbolState),
    run.map OrderbookUpdate.sequence = List.range' (st.currentSequence + 1) run.length →
    (st.bufferedUpdates.map OrderbookUpdate.sequence).Nodup →
      Advances (run ++ st.bufferedUpdates) st (run.foldl (fun st u => st.applyDelta u now) st) ∧
        (run.foldl (fun st u => st.applyDelta u now) st).bufferedUpdates = st.bufferedUpdates ∧
          (run.foldl (fun st u => st.applyDelta u now) st).currentSequence = st.currentSequence + run.length := by
  intro run
  induction run with
  | nil => exact fun st _ distinct => ⟨.refl distinct, rfl, rfl⟩
  | cons u run ih =>
      intro st numbered distinct
      rw [List.map_cons, List.length_cons, List.range'_succ, List.cons.injEq] at numbered
      obtain ⟨next, numbered⟩ := numbered
      rw [← next] at numbered
      have one := applyDelta_advances next distinct now
      obtain ⟨later, kept, grown⟩ := ih (st.applyDelta u now) numbered distinct
      have both : Advances (run ++ (u :: st.bufferedUpdates)) st
          (run.foldl (fun (st : SymbolState) u => st.applyDelta u now) (st.applyDelta u now)) := one.andThen later
      have current : (st.applyDelta u now).currentSequence = u.sequence := rfl
      refine ⟨both.repool (fun v member => ?_) fun v member => .inr ⟨v, ?_, rfl⟩, kept, ?_⟩
      · simp only [List.mem_append, List.mem_cons, List.cons_append] at member ⊢
        tauto
      · simp only [List.mem_append, List.mem_cons, List.cons_append] at member ⊢
        tauto
      · rw [List.foldl_cons, grown, List.length_cons]
        omega

theorem sorted_strict {us : List OrderbookUpdate} (distinct : (us.map OrderbookUpdate.sequence).Nodup) :
    (us.insertionSort fun u v => u.sequence ≤ v.sequence).Pairwise fun u v => u.sequence < v.sequence := by
  have total : Std.Total fun u v : OrderbookUpdate => u.sequence ≤ v.sequence := ⟨fun u v => Nat.le_total ..⟩
  have trans : IsTrans OrderbookUpdate fun u v => u.sequence ≤ v.sequence := ⟨fun _ _ _ => Nat.le_trans⟩
  have sorted := List.pairwise_insertionSort (fun u v : OrderbookUpdate => u.sequence ≤ v.sequence) us
  have perm := List.perm_insertionSort (fun u v : OrderbookUpdate => u.sequence ≤ v.sequence) us
  have apart := List.pairwise_map.1 ((perm.map OrderbookUpdate.sequence).nodup_iff.2 distinct)
  exact (sorted.and apart).imp fun ⟨le, ne⟩ => Nat.lt_of_le_of_ne le ne

theorem tryRecoverFromBuffer_advances (bounded : Bounded st.currentSequence)
    (bounds : ∀ u ∈ st.bufferedUpdates, Bounded u.sequence)
    (distinct : (st.bufferedUpdates.map OrderbookUpdate.sequence).Nodup) :
    Advances st.bufferedUpdates st (st.tryRecoverFromBuffer now).2 ∧ (st.tryRecoverFromBuffer now).2.Settled := by
  have expected : st.expected = st.currentSequence + 1 := nextSequence_eq bounded
  have perm := List.perm_insertionSort (fun u v : OrderbookUpdate => u.sequence ≤ v.sequence) st.bufferedUpdates
  have strict := sorted_strict distinct
  have taken := takeRun_spec (st.bufferedUpdates.insertionSort fun u v => u.sequence ≤ v.sequence) st.expected
    fun u member => bounds u (perm.mem_iff.1 member)
  have result : (st.tryRecoverFromBuffer now).2 =
      (takeRun st.expected (st.bufferedUpdates.insertionSort fun u v => u.sequence ≤ v.sequence)).1.foldl
        (fun st u => st.applyDelta u now)
        { st with bufferedUpdates :=
            (takeRun st.expected (st.bufferedUpdates.insertionSort fun u v => u.sequence ≤ v.sequence)).2.1 } := by
    unfold tryRecoverFromBuffer
    dsimp only
    split
    next empty =>
      rw [List.isEmpty_iff.1 empty]
      rfl
    next => rfl
  revert taken
  rw [result]
  generalize (takeRun st.expected (st.bufferedUpdates.insertionSort fun u v => u.sequence ≤ v.sequence)).1 = run
  generalize (takeRun st.expected (st.bufferedUpdates.insertionSort fun u v => u.sequence ≤ v.sequence)).2.1 = rest
  generalize (takeRun st.expected (st.bufferedUpdates.insertionSort fun u v => u.sequence ≤ v.sequence)).2.2 = next
  intro taken
  have numbered := taken.numbered
  rw [expected] at numbered
  have distinct' : (rest.map OrderbookUpdate.sequence).Nodup :=
    ((perm.map OrderbookUpdate.sequence).nodup_iff.2 distinct).sublist (taken.kept.map _)
  obtain ⟨played, kept, grown⟩ := applyRun_advances now run { st with bufferedUpdates := rest } numbered distinct'
  have whole : Advances (run ++ rest) st
      (run.foldl (fun (st : SymbolState) u => st.applyDelta u now) { st with bufferedUpdates := rest }) :=
    played.restart rfl rfl rfl
  have reached := taken.reached
  rw [expected] at reached
  refine ⟨whole.repool (fun u member => ?_) fun u member => ?_, fun u member => ?_⟩
  · rcases List.mem_append.1 member with run | rest
    · exact perm.mem_iff.1 (taken.among u run)
    · exact perm.mem_iff.1 (taken.kept.subset rest)
  · rcases taken.covers u (perm.mem_iff.2 member) with done | waits
    · left
      rw [grown]
      change u.sequence ≤ st.currentSequence + run.length
      omega
    · exact .inr ⟨u, List.mem_append_right _ waits, rfl⟩
  · rw [kept] at member
    rw [grown]
    have later := taken.stops strict u member
    change u.sequence ≠ st.currentSequence + run.length + 1
    omega

/-! ### A delta -/

theorem mem_of_mem_buffer {update u : OrderbookUpdate} (member : u ∈ st.buffer config update) :
    u ∈ update :: st.bufferedUpdates := by
  unfold buffer at member
  split at member
  · exact List.mem_cons_of_mem _ member
  · rcases List.mem_append.1 (List.mem_of_mem_drop member) with old | new
    · exact List.mem_cons_of_mem _ old
    · simp_all

theorem buffer_distinct (config : ReconciliationConfig) {st : SymbolState} (update : OrderbookUpdate)
    (distinct : (st.bufferedUpdates.map OrderbookUpdate.sequence).Nodup) :
    ((st.buffer config update).map OrderbookUpdate.sequence).Nodup := by
  unfold buffer
  split
  next => exact distinct
  next new =>
    refine List.Nodup.sublist ((List.drop_sublist ..).map _) ?_
    rw [List.map_append, List.map_singleton]
    refine List.nodup_append.2 ⟨distinct, by simp, fun a waits b own same => ?_⟩
    obtain ⟨v, member, rfl⟩ := List.mem_map.1 waits
    simp only [List.mem_singleton] at own
    exact new (List.any_eq_true.2 ⟨v, member, by simp [same, own]⟩)

/-- The update waits already, or there is room for it. -/
def HasRoom (config : ReconciliationConfig) (st : SymbolState) (update : OrderbookUpdate) : Prop :=
  (∃ v ∈ st.bufferedUpdates, v.sequence = update.sequence) ∨ st.bufferedUpdates.length < config.maxBufferedUpdates

theorem buffer_covers {update : OrderbookUpdate} (room : HasRoom config st update) :
    ∀ u ∈ update :: st.bufferedUpdates, ∃ v ∈ st.buffer config update, v.sequence = u.sequence := by
  intro u member
  unfold buffer
  split
  next known =>
    obtain ⟨v, waits, same⟩ := List.any_eq_true.1 known
    rcases List.mem_cons.1 member with rfl | old
    · exact ⟨v, waits, by simpa using same⟩
    · exact ⟨u, old, rfl⟩
  next fresh =>
    have fits : (st.bufferedUpdates ++ [update]).length - config.maxBufferedUpdates = 0 := by
      rcases room with ⟨v, waits, same⟩ | short
      · exact absurd (List.any_eq_true.2 ⟨v, waits, by simpa using same⟩) fresh
      · rw [List.length_append, List.length_singleton]
        omega
    refine ⟨u, ?_, rfl⟩
    dsimp only
    rw [fits, List.drop_zero]
    rcases List.mem_cons.1 member with rfl | old
    · simp
    · exact List.mem_append_left _ old

def Timely : ReconciliationResult → Prop
  | .snapshotRequired .gapTimeout .. | .snapshotRequired .periodicRefresh .. => False
  | _ => True

instance : DecidablePred Timely
  | .snapshotRequired .gapTimeout .. | .snapshotRequired .periodicRefresh .. => .isFalse id
  | .snapshotRequired .initial .. | .snapshotRequired .largeGap .. | .snapshotRequired .checksumMismatch .. =>
      .isTrue trivial
  | .applied .. | .recovered .. | .skipped .. | .checksumMismatch .. => .isTrue trivial

/-- What a delta does: it advances over itself and the buffer, and over all of them
    when there is room for it. -/
structure Handles (config : ReconciliationConfig) (st : SymbolState) (update : OrderbookUpdate)
    (result : ReconciliationResult) (st' : SymbolState) : Prop where
  advances : ∃ pool : List OrderbookUpdate, (∀ u ∈ pool, u ∈ update :: st.bufferedUpdates) ∧ Advances pool st st'
  complete : update.checksum = none → HasRoom config st update →
    update.sequence ≤ st.currentSequence + 1 + config.maxSequenceGap → Timely result →
      Advances (update :: st.bufferedUpdates) st st' ∧
        (st.currentSequence < update.sequence ∨ st.Settled → st'.Settled)

section Deltas

variable [BookChecksum] (config : ReconciliationConfig)

theorem processDelta_handles {st : SymbolState} {update : OrderbookUpdate} (now : Nat)
    (bounded : Bounded st.currentSequence) (bound : Bounded update.sequence)
    (bounds : ∀ u ∈ st.bufferedUpdates, Bounded u.sequence)
    (distinct : (st.bufferedUpdates.map OrderbookUpdate.sequence).Nodup) :
    Handles config st update (st.processDelta config update now).1 (st.processDelta config update now).2 := by
  have expected : st.expected = st.currentSequence + 1 := nextSequence_eq bounded
  unfold processDelta
  dsimp only
  split
  next old =>
    rw [expected] at old
    refine ⟨⟨_, fun _ member => List.mem_cons_of_mem _ member, .refl distinct⟩, fun _ _ _ _ => ⟨?_, ?_⟩⟩
    · refine (Advances.refl distinct).repool (fun _ member => List.mem_cons_of_mem _ member) fun v member => ?_
      rcases List.mem_cons.1 member with rfl | waits
      · exact .inl (by omega)
      · exact .inr ⟨v, waits, rfl⟩
    · rintro (newer | settled)
      · omega
      · exact settled
  next notOld =>
  split
  next early =>
    rw [expected] at early
    split
    next far =>
      rw [expected] at far
      refine ⟨⟨_, fun _ member => List.mem_cons_of_mem _ member, .refl distinct⟩, fun _ _ near _ => ?_⟩
      omega
    next =>
    -- the update waits, whatever the gap is
    generalize gap : st.gapDetectedAt.getD (st.expected, now) = missing
    have distinct' := buffer_distinct config update distinct
    generalize waits : ({ st with
      bufferedUpdates := st.buffer config update
      gapDetectedAt := some (missing.1, missing.2) } : SymbolState) = waiting
    have buffered : waiting.bufferedUpdates = st.buffer config update := by rw [← waits]
    have among : ∀ u ∈ waiting.bufferedUpdates, u ∈ update :: st.bufferedUpdates := fun u member =>
      mem_of_mem_buffer (buffered ▸ member)
    have bounds' : ∀ u ∈ waiting.bufferedUpdates, Bounded u.sequence := by
      intro u member
      rcases List.mem_cons.1 (among u member) with rfl | old
      · exact bound
      · exact bounds u old
    rw [← buffered] at distinct'
    split
    next =>
      have still : Advances waiting.bufferedUpdates st waiting :=
        (Advances.refl distinct').restart (by rw [← waits]) (by rw [← waits]) (by rw [← waits])
      exact ⟨⟨_, among, still⟩, fun _ _ _ timely => timely.elim⟩
    next =>
      obtain ⟨advances, settled⟩ := @tryRecoverFromBuffer_advances now waiting
        (by rw [← waits]; exact bounded) bounds' distinct'
      have recovered : Advances waiting.bufferedUpdates st (waiting.tryRecoverFromBuffer now).2 :=
        advances.restart (by rw [← waits]) (by rw [← waits]) (by rw [← waits])
      have handles : ∀ result, Handles config st update result (waiting.tryRecoverFromBuffer now).2 := fun _ =>
        ⟨⟨_, among, recovered⟩, fun _ room _ _ =>
          ⟨recovered.repool among fun u member => .inr (by rw [buffered]; exact buffer_covers room u member),
            fun _ => settled⟩⟩
      split
      next result st' same =>
        rw [same] at handles
        exact handles result
      next st' same =>
        rw [same] at handles
        exact handles _
  next notEarly =>
    have next : update.sequence = st.currentSequence + 1 := by omega
    generalize applied : ({ st.applyDelta update now with gapDetectedAt := none } : SymbolState) = mid
    have one : Advances (update :: st.bufferedUpdates) st mid := by
      rw [← applied]
      obtain ⟨played, waiting, covers, distinct, valid⟩ := applyDelta_advances next distinct now
      exact ⟨played, waiting, covers, distinct, valid⟩
    have buffered : mid.bufferedUpdates = st.bufferedUpdates := by
      rw [← applied]
      rfl
    split
    next checked =>
      have given : update.checksum ≠ none := by
        intro absent
        simp [badChecksum, absent] at checked
      split
      · exact ⟨⟨_, fun _ member => member, one⟩, fun absent => absurd absent given⟩
      · exact ⟨⟨_, fun _ member => member, one⟩, fun absent => absurd absent given⟩
    next =>
      obtain ⟨drained, settled⟩ := drainBuffer_advances now mid.bufferedUpdates.length mid
        (by rw [← applied]; exact bound) (by rw [buffered]; exact bounds) (by rw [buffered]; exact distinct)
      have both := one.trans drained
      exact ⟨⟨_, fun _ member => member, both⟩, fun _ _ _ _ => ⟨both, fun _ => settled (le_refl _)⟩⟩

end Deltas

end SymbolState

end ExecutionHandler
