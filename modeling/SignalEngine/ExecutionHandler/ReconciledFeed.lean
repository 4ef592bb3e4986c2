import SignalEngine.ExecutionHandler.ReconciledBook
import SignalEngine.Lib.Text
import Mathlib.Data.List.Induction

/-! # A feed in any order

What a reconciler holds after any calls, and that it catches up with a feed whose
deltas come in any order.
-/

namespace ExecutionHandler

abbrev Levels := (sequence : Nat) → List PriceLevel × List PriceLevel

/-- `count` deltas from the sequence `first` on are applied in order. -/
def inOrder (levels : Levels) (book : LocalBook) (first count : Nat) : LocalBook :=
  (List.range' first count).foldl (fun book n => book.applyLevels n (levels n).1 (levels n).2) book

theorem inOrder_add (levels : Levels) (book : LocalBook) (first count more : Nat) :
    inOrder levels (inOrder levels book first count) (first + count) more =
      inOrder levels book first (count + more) := by
  unfold inOrder
  rw [← List.foldl_append, List.range'_append_1]

theorem play_eq_inOrder {levels : Levels} : ∀ (run : List OrderbookUpdate) (book : LocalBook) (first : Nat),
    run.map OrderbookUpdate.sequence = List.range' first run.length →
    (∀ u ∈ run, (u.bids, u.asks) = levels u.sequence) →
      play book run = inOrder levels book first run.length := by
  intro run
  induction run with
  | nil => exact fun _ _ _ _ => rfl
  | cons u run ih =>
      intro book first numbered carries
      rw [List.map_cons, List.length_cons, List.range'_succ, List.cons.injEq] at numbered
      obtain ⟨here, numbered⟩ := numbered
      have content := carries u (by simp)
      have later := ih (book.applyLevels u.sequence u.bids u.asks) (first + 1) numbered
        fun v member => carries v (List.mem_cons_of_mem _ member)
      change play (book.applyLevels u.sequence u.bids u.asks) run = _
      rw [later, List.length_cons, inOrder, inOrder, List.range'_succ, List.foldl_cons, ← here, ← content]

/-! ## Calls -/

namespace OrderbookUpdate

def About (exchange symbol : String) (u : OrderbookUpdate) : Prop := u.exchange = exchange ∧ u.symbol = symbol

instance (exchange symbol : String) (u : OrderbookUpdate) : Decidable (u.About exchange symbol) :=
  inferInstanceAs (Decidable (_ ∧ _))

def Carries (feed : (exchange symbol : String) → Levels) (u : OrderbookUpdate) : Prop :=
  u.updateType ≠ .snapshot → (u.bids, u.asks) = feed u.exchange u.symbol u.sequence

end OrderbookUpdate

theorem makeKey_inj {exchange exchange' symbol symbol' : String} (plain : ':' ∉ exchange.toList)
    (plain' : ':' ∉ exchange'.toList) (same : makeKey symbol exchange = makeKey symbol' exchange') :
    exchange = exchange' ∧ symbol = symbol' := by
  have keys : ∀ symbol exchange : String,
      (makeKey symbol exchange).toList = exchange.toList ++ ':' :: symbol.toList := by
    intro symbol exchange
    have parts : makeKey symbol exchange = exchange ++ ":" ++ symbol := rfl
    rw [parts, String.toList_append, String.toList_append, List.append_assoc]
    rfl
  have split : ∀ symbol exchange : String, ':' ∉ exchange.toList →
      Text.splitFirst (· == ':') (makeKey symbol exchange).toList = some (exchange.toList, symbol.toList) := by
    intro symbol exchange plain
    rw [keys]
    refine Text.splitFirst_append (fun c member => ?_) rfl
    have other : c ≠ ':' := by
      rintro rfl
      exact plain member
    simpa using other
  have here := split symbol exchange plain
  rw [same, split symbol' exchange' plain'] at here
  simp only [Option.some.injEq, Prod.mk.injEq, String.toList_inj] at here
  exact ⟨here.1.symm, here.2.symm⟩

namespace OrderbookReconciler

variable [BookChecksum]

def processAll (r : OrderbookReconciler) (calls : List (OrderbookUpdate × Nat)) : OrderbookReconciler :=
  calls.foldl (fun r call => (r.processUpdate call.1 call.2).2) r

def answers (r : OrderbookReconciler) : List (OrderbookUpdate × Nat) → List ReconciliationResult
  | [] => []
  | call :: later => (r.processUpdate call.1 call.2).1 :: (r.processUpdate call.1 call.2).2.answers later

omit [BookChecksum] in
def waiting (r : OrderbookReconciler) (exchange symbol : String) : List OrderbookUpdate :=
  ((r.state symbol exchange).map SymbolState.bufferedUpdates).getD []

theorem processUpdate_state (r : OrderbookReconciler) (u : OrderbookUpdate) (now : Nat) :
    (r.processUpdate u now).2.state u.symbol u.exchange =
      some (((r.state u.symbol u.exchange).getD (.new now)).processUpdate r.config u now).2 := by
  simp [processUpdate, state, Registry.get_insert]

theorem processUpdate_state_of_ne {r : OrderbookReconciler} {u : OrderbookUpdate} {now : Nat}
    {exchange symbol : String} (plain : ':' ∉ u.exchange.toList) (plain' : ':' ∉ exchange.toList)
    (other : ¬ u.About exchange symbol) :
    (r.processUpdate u now).2.state symbol exchange = r.state symbol exchange := by
  have apart : makeKey symbol exchange ≠ makeKey u.symbol u.exchange := by
    intro same
    obtain ⟨exchanges, symbols⟩ := makeKey_inj plain' plain same
    exact other ⟨exchanges.symm, symbols.symm⟩
  simp [processUpdate, state, Registry.get_insert, apart]

@[simp] theorem processUpdate_config (r : OrderbookReconciler) (u : OrderbookUpdate) (now : Nat) :
    (r.processUpdate u now).2.config = r.config := rfl

end OrderbookReconciler

/-! ## The fold of the feed -/

def updatesOf (exchange symbol : String) (calls : List (OrderbookUpdate × Nat)) : List OrderbookUpdate :=
  (calls.map Prod.fst).filter fun u => u.About exchange symbol

def lastSnapshot (updates : List OrderbookUpdate) : Option OrderbookUpdate :=
  (updates.filter fun u => u.updateType = .snapshot).getLast?

def Came (updates : List OrderbookUpdate) (n : Nat) : Prop :=
  ∃ u ∈ updates, u.updateType ≠ .snapshot ∧ u.sequence = n

/-- The book is the last snapshot with all deltas up to the current sequence, each of
    which came. -/
def IsFold (levels : Levels) (updates : List OrderbookUpdate) (st : SymbolState) : Prop :=
  ∃ snap, lastSnapshot updates = some snap ∧ snap.sequence ≤ st.currentSequence ∧
    (∀ n, snap.sequence < n → n ≤ st.currentSequence → Came updates n) ∧
      st.localBook = inOrder levels (.ofSnapshot snap.sequence snap.bids snap.asks) (snap.sequence + 1)
        (st.currentSequence - snap.sequence)

structure Folded (levels : Levels) (updates : List OrderbookUpdate) (st : SymbolState) : Prop where
  book : st.isValid = true → IsFold levels updates st
  valid : (lastSnapshot updates).isSome → st.isValid = true
  bounded : Bounded st.currentSequence
  waiting : ∀ u ∈ st.bufferedUpdates, u ∈ updates ∧ u.updateType ≠ .snapshot
  distinct : (st.bufferedUpdates.map OrderbookUpdate.sequence).Nodup

theorem Folded.new (levels : Levels) (now : Nat) : Folded levels [] (.new now) :=
  ⟨(fun valid => nomatch valid), (fun known => nomatch known), by simp [Bounded, SymbolState.new], by simp [SymbolState.new],
    by simp [SymbolState.new]⟩

section Steps

variable {levels : Levels} {updates : List OrderbookUpdate} {st : SymbolState} {u : OrderbookUpdate}

theorem lastSnapshot_snapshot (snapshot : u.updateType = .snapshot) : lastSnapshot (updates ++ [u]) = some u := by
  simp [lastSnapshot, List.filter_append, snapshot]

theorem lastSnapshot_delta (delta : u.updateType ≠ .snapshot) :
    lastSnapshot (updates ++ [u]) = lastSnapshot updates := by
  simp [lastSnapshot, List.filter_append, delta]

theorem Came.later {n : Nat} (came : Came updates n) : Came (updates ++ [u]) n := by
  obtain ⟨v, member, delta, same⟩ := came
  exact ⟨v, List.mem_append_left _ member, delta, same⟩

theorem Folded.skip (folded : Folded levels updates st) (delta : u.updateType ≠ .snapshot) :
    Folded levels (updates ++ [u]) st := by
  obtain ⟨book, valid, bounded, waiting, distinct⟩ := folded
  refine ⟨fun isValid => ?_, ?_, bounded, fun v member => ?_, distinct⟩
  · obtain ⟨snap, last, le, came, fold⟩ := book isValid
    exact ⟨snap, (lastSnapshot_delta delta).trans last, le, fun n above below => (came n above below).later, fold⟩
  · rw [lastSnapshot_delta delta]
    exact valid
  · obtain ⟨among, delta⟩ := waiting v member
    exact ⟨List.mem_append_left _ among, delta⟩

theorem Folded.advances {pool : List OrderbookUpdate} {st' : SymbolState} (folded : Folded levels updates st)
    (delta : u.updateType ≠ .snapshot) (advances : st.Advances pool st')
    (among : ∀ v ∈ pool, v ∈ u :: st.bufferedUpdates)
    (carries : ∀ v ∈ updates ++ [u], v.updateType ≠ .snapshot → (v.bids, v.asks) = levels v.sequence)
    (bounds : ∀ v ∈ updates ++ [u], Bounded v.sequence) : Folded levels (updates ++ [u]) st' := by
  have known : ∀ v ∈ pool, v ∈ updates ++ [u] ∧ v.updateType ≠ .snapshot := by
    intro v member
    rcases List.mem_cons.1 (among v member) with rfl | waits
    · exact ⟨by simp, delta⟩
    · obtain ⟨came, isDelta⟩ := folded.waiting v waits
      exact ⟨List.mem_append_left _ came, isDelta⟩
  obtain ⟨run, inPool, numbered, played, grown⟩ := advances.played
  have numbers : ∀ n, st.currentSequence < n → n ≤ st'.currentSequence → ∃ v ∈ run, v.sequence = n := by
    intro n above below
    have member : n ∈ run.map OrderbookUpdate.sequence := by
      rw [numbered, List.mem_range'_1]
      omega
    obtain ⟨v, among, same⟩ := List.mem_map.1 member
    exact ⟨v, among, same⟩
  refine ⟨fun isValid => ?_, ?_, ?_, fun v member => known v (advances.waiting v member), advances.distinct⟩
  · rw [advances.isValid] at isValid
    obtain ⟨snap, last, le, came, fold⟩ := folded.book isValid
    refine ⟨snap, (lastSnapshot_delta delta).trans last, by omega, fun n above below => ?_, ?_⟩
    · by_cases early : n ≤ st.currentSequence
      · exact (came n above early).later
      · obtain ⟨v, among, same⟩ := numbers n (by omega) below
        obtain ⟨came, isDelta⟩ := known v (inPool v among)
        exact ⟨v, came, isDelta, same⟩
    · have order := @play_eq_inOrder levels run st.localBook (st.currentSequence + 1) numbered
        fun v member => carries v (known v (inPool v member)).1 (known v (inPool v member)).2
      have first : st.currentSequence + 1 = snap.sequence + 1 + (st.currentSequence - snap.sequence) := by omega
      rw [played, order, fold, first, inOrder_add]
      congr 1
      omega
  · rw [lastSnapshot_delta delta, advances.isValid]
    exact folded.valid
  · by_cases still : st'.currentSequence = st.currentSequence
    · rw [still]
      exact folded.bounded
    · obtain ⟨v, member, same⟩ := numbers st'.currentSequence (by omega) (le_refl _)
      rw [← same]
      exact bounds v (known v (inPool v member)).1

theorem Folded.snapshot {config : ReconciliationConfig} [BookChecksum] (folded : Folded levels updates st)
    (snapshot : u.updateType = .snapshot) (bound : Bounded u.sequence) (now : Nat) :
    Folded levels (updates ++ [u]) (st.applySnapshot config u now).2 := by
  have last : lastSnapshot (updates ++ [u]) = some u := lastSnapshot_snapshot snapshot
  have folded' : Folded levels (updates ++ [u]) {
      localBook := .ofSnapshot u.sequence u.bids u.asks
      currentSequence := u.sequence
      isValid := true
      lastSnapshot := now
      lastUpdate := now
      bufferedUpdates := st.bufferedUpdates.filter fun v => u.sequence < v.sequence
      gapDetectedAt := none } := by
    refine ⟨fun _ => ⟨u, last, le_refl _, fun n above below => absurd below (Nat.not_le.2 above), ?_⟩, fun _ => rfl, bound, fun v member => ?_,
      folded.distinct.sublist (List.filter_sublist.map _)⟩
    · simp [inOrder]
    · obtain ⟨came, delta⟩ := folded.waiting v (List.mem_of_mem_filter member)
      exact ⟨List.mem_append_left _ came, delta⟩
  unfold SymbolState.applySnapshot
  dsimp only
  split
  · exact folded'
  · exact folded'

theorem Folded.processUpdate {config : ReconciliationConfig} [BookChecksum] (folded : Folded levels updates st)
    (carries : ∀ v ∈ updates ++ [u], v.updateType ≠ .snapshot → (v.bids, v.asks) = levels v.sequence)
    (bounds : ∀ v ∈ updates ++ [u], Bounded v.sequence) (now : Nat) :
    Folded levels (updates ++ [u]) (st.processUpdate config u now).2 := by
  have handled : u.updateType ≠ .snapshot →
      Folded levels (updates ++ [u]) (st.processDelta config u now).2 := by
    intro delta
    have handles := SymbolState.processDelta_handles config now folded.bounded (bounds u (by simp))
      (fun v waits => bounds v (List.mem_append_left _ (folded.waiting v waits).1)) folded.distinct
    obtain ⟨pool, among, advances⟩ := handles.advances
    exact folded.advances delta advances among carries bounds
  have refused : u.updateType ≠ .snapshot → Folded levels (updates ++ [u])
      (if !st.isValid then (.snapshotRequired .initial st.currentSequence u.sequence, st)
      else if config.snapshotIntervalMs < now - st.lastSnapshot then
        (.snapshotRequired .periodicRefresh st.currentSequence u.sequence, st)
      else st.processDelta config u now : ReconciliationResult × SymbolState).2 := by
    intro delta
    split
    · exact folded.skip delta
    · split
      · exact folded.skip delta
      · exact handled delta
  unfold SymbolState.processUpdate
  cases kind : u.updateType with
  | snapshot => exact folded.snapshot kind (bounds u (by simp)) now
  | delta => exact refused (by simp [kind])
  | trade => exact refused (by simp [kind])

end Steps

/-! ## Catching up -/

/-- What a symbol holds after the snapshot `s` left `left` waiting and the deltas `came`. -/
structure Catching (s : Nat) (left came : List OrderbookUpdate) (st : SymbolState) : Prop where
  valid : st.isValid = true
  started : s ≤ st.currentSequence
  waiting : ∀ u ∈ st.bufferedUpdates, u ∈ left ++ came
  covers : ∀ u ∈ left ++ came, u.sequence ≤ st.currentSequence ∨ ∃ v ∈ st.bufferedUpdates, v.sequence = u.sequence
  reached : ∀ n, s < n → n ≤ st.currentSequence → ∃ u ∈ left ++ came, u.sequence = n
  settled : came ≠ [] → st.Settled
  fresh : came = [] → st.currentSequence = s

section Catching

variable {s k : Nat} {left came : List OrderbookUpdate} {st : SymbolState} {u : OrderbookUpdate}

theorem Catching.hasRoom {config : ReconciliationConfig} (catching : Catching s left came st)
    (distinct : (st.bufferedUpdates.map OrderbookUpdate.sequence).Nodup)
    (near : ∀ v ∈ u :: came, s < v.sequence ∧ v.sequence ≤ s + k)
    (fits : left.length + k ≤ config.maxBufferedUpdates) : st.HasRoom config u := by
  by_cases waits : ∃ v ∈ st.bufferedUpdates, v.sequence = u.sequence
  · exact .inl waits
  · right
    have fresh : u.sequence ∉ st.bufferedUpdates.map OrderbookUpdate.sequence := by
      intro member
      obtain ⟨v, among, same⟩ := List.mem_map.1 member
      exact waits ⟨v, among, same⟩
    have sub : (u.sequence :: st.bufferedUpdates.map OrderbookUpdate.sequence) ⊆
        left.map OrderbookUpdate.sequence ++ List.range' (s + 1) k := by
      intro n member
      have within : ∀ v ∈ u :: came, v.sequence ∈ List.range' (s + 1) k := by
        intro v among
        have bounds := near v among
        rw [List.mem_range'_1]
        omega
      rcases List.mem_cons.1 member with rfl | old
      · exact List.mem_append_right _ (within u (by simp))
      · obtain ⟨v, among, rfl⟩ := List.mem_map.1 old
        rcases List.mem_append.1 (catching.waiting v among) with kept | new
        · exact List.mem_append_left _ (List.mem_map_of_mem kept)
        · exact List.mem_append_right _ (within v (List.mem_cons_of_mem _ new))
    have count := ((List.nodup_cons.2 ⟨fresh, distinct⟩).subperm sub).length_le
    simp only [List.length_cons, List.length_map, List.length_append, List.length_range'] at count
    omega

theorem Catching.processDelta {config : ReconciliationConfig} [BookChecksum] (catching : Catching s left came st)
    (now : Nat) (bounded : Bounded st.currentSequence) (bounds : ∀ v ∈ u :: st.bufferedUpdates, Bounded v.sequence)
    (distinct : (st.bufferedUpdates.map OrderbookUpdate.sequence).Nodup)
    (near : ∀ v ∈ u :: came, s < v.sequence ∧ v.sequence ≤ s + k)
    (fits : left.length + k ≤ config.maxBufferedUpdates) (gap : k ≤ config.maxSequenceGap)
    (plain : u.checksum = none) (timely : SymbolState.Timely (st.processDelta config u now).1) :
    Catching s left (came ++ [u]) (st.processDelta config u now).2 := by
  have handles := SymbolState.processDelta_handles config now bounded (bounds u (by simp))
    (fun v member => bounds v (List.mem_cons_of_mem _ member)) distinct
  have started := catching.started
  have own := near u (by simp)
  obtain ⟨advances, settles⟩ := handles.complete plain (catching.hasRoom distinct near fits) (by omega) timely
  have known : ∀ v ∈ u :: st.bufferedUpdates, v ∈ left ++ (came ++ [u]) := by
    intro v member
    rcases List.mem_cons.1 member with rfl | waits
    · simp
    · rw [← List.append_assoc]
      exact List.mem_append_left _ (catching.waiting v waits)
  refine ⟨advances.isValid.trans catching.valid, started.trans advances.grown,
    fun v member => known v (advances.waiting v member), fun v member => ?_, fun n above below => ?_, fun _ => ?_,
    fun empty => absurd empty (by simp)⟩
  · rw [← List.append_assoc] at member
    rcases List.mem_append.1 member with old | new
    · rcases catching.covers v old with done | ⟨w, waits, same⟩
      · exact .inl (done.trans advances.grown)
      · rw [← same]
        exact advances.covers w (List.mem_cons_of_mem _ waits)
    · rw [List.mem_singleton.1 new]
      exact advances.covers u (by simp)
  · by_cases early : n ≤ st.currentSequence
    · obtain ⟨v, among, same⟩ := catching.reached n above early
      refine ⟨v, ?_, same⟩
      rw [← List.append_assoc]
      exact List.mem_append_left _ among
    · obtain ⟨run, inPool, numbered, -, grown⟩ := advances.played
      have member : n ∈ run.map OrderbookUpdate.sequence := by
        rw [numbered, List.mem_range'_1]
        omega
      obtain ⟨v, among, same⟩ := List.mem_map.1 member
      exact ⟨v, known v (inPool v among), same⟩
  · -- the first delta of all is a new one
    refine settles ?_
    cases came with
    | nil =>
        have current := catching.fresh rfl
        exact .inl (by omega)
    | cons v came => exact .inr (catching.settled (by simp))

theorem Catching.caughtUp (catching : Catching s left came st) (all : ∀ n, s < n → n ≤ s + k → ∃ u ∈ came, u.sequence = n) :
    s + k ≤ st.currentSequence := by
  by_contra short
  have started := catching.started
  obtain ⟨u, member, same⟩ := all (st.currentSequence + 1) (by omega) (by omega)
  rcases catching.covers u (List.mem_append_right _ member) with done | ⟨v, waits, equal⟩
  · omega
  · exact catching.settled (List.ne_nil_of_mem member) v waits (equal.trans same)

theorem Catching.stops (catching : Catching s left came st) (some : came ≠ []) :
    ∀ u ∈ left, u.sequence ≠ st.currentSequence + 1 := by
  intro u member same
  rcases catching.covers u (List.mem_append_left _ member) with done | ⟨v, waits, equal⟩
  · omega
  · exact catching.settled some v waits (equal.trans same)

theorem Catching.past (catching : Catching s left came st) (near : ∀ u ∈ came, u.sequence ≤ s + k) :
    ∀ n, s + k < n → n ≤ st.currentSequence → ∃ u ∈ left, u.sequence = n := by
  intro n above below
  obtain ⟨u, member, same⟩ := catching.reached n (by omega) below
  rcases List.mem_append.1 member with kept | new
  · exact ⟨u, kept, same⟩
  · have within := near u new
    omega

end Catching

/-! ## Runs -/

structure IsFeed (feed : (exchange symbol : String) → Levels) (calls : List (OrderbookUpdate × Nat)) : Prop where
  plain : ∀ call ∈ calls, ':' ∉ call.1.exchange.toList
  carries : ∀ call ∈ calls, call.1.Carries feed
  bounded : ∀ call ∈ calls, Bounded call.1.sequence

theorem mem_updatesOf {exchange symbol : String} {calls : List (OrderbookUpdate × Nat)} {u : OrderbookUpdate} :
    u ∈ updatesOf exchange symbol calls ↔ (∃ now, (u, now) ∈ calls) ∧ u.About exchange symbol := by
  simp [updatesOf]

theorem updatesOf_append (exchange symbol : String) (first second : List (OrderbookUpdate × Nat)) :
    updatesOf exchange symbol (first ++ second) =
      updatesOf exchange symbol first ++ updatesOf exchange symbol second := by
  simp [updatesOf]

theorem updatesOf_cons_own {exchange symbol : String} {call : OrderbookUpdate × Nat}
    (own : call.1.About exchange symbol) (later : List (OrderbookUpdate × Nat)) :
    updatesOf exchange symbol (call :: later) = call.1 :: updatesOf exchange symbol later := by
  simp [updatesOf, own]

theorem updatesOf_cons_other {exchange symbol : String} {call : OrderbookUpdate × Nat}
    (other : ¬ call.1.About exchange symbol) (later : List (OrderbookUpdate × Nat)) :
    updatesOf exchange symbol (call :: later) = updatesOf exchange symbol later := by
  simp [updatesOf, other]

namespace IsFeed

variable {feed : (exchange symbol : String) → Levels} {calls before later : List (OrderbookUpdate × Nat)}

theorem left (isFeed : IsFeed feed (before ++ later)) : IsFeed feed before :=
  ⟨fun call member => isFeed.plain call (List.mem_append_left _ member),
    fun call member => isFeed.carries call (List.mem_append_left _ member),
    fun call member => isFeed.bounded call (List.mem_append_left _ member)⟩

theorem levels (isFeed : IsFeed feed calls) {exchange symbol : String} :
    ∀ u ∈ updatesOf exchange symbol calls, u.updateType ≠ .snapshot →
      (u.bids, u.asks) = feed exchange symbol u.sequence := by
  intro u member delta
  obtain ⟨⟨now, came⟩, rfl, rfl⟩ := mem_updatesOf.1 member
  exact isFeed.carries _ came delta

theorem bounds (isFeed : IsFeed feed calls) {exchange symbol : String} :
    ∀ u ∈ updatesOf exchange symbol calls, Bounded u.sequence := by
  intro u member
  obtain ⟨⟨now, came⟩, -⟩ := mem_updatesOf.1 member
  exact isFeed.bounded _ came

end IsFeed

namespace OrderbookReconciler

variable [BookChecksum] {feed : (exchange symbol : String) → Levels} {calls : List (OrderbookUpdate × Nat)}

/-- Every symbol is as its updates say; one that is not there yet would start anew. -/
def Folds (feed : (exchange symbol : String) → Levels) (calls : List (OrderbookUpdate × Nat))
    (r : OrderbookReconciler) : Prop :=
  ∀ exchange symbol now, ':' ∉ exchange.toList →
    Folded (feed exchange symbol) (updatesOf exchange symbol calls) ((r.state symbol exchange).getD (.new now))

theorem Folds.processUpdate {r : OrderbookReconciler} {call : OrderbookUpdate × Nat} (folds : r.Folds feed calls)
    (isFeed : IsFeed feed (calls ++ [call])) : (r.processUpdate call.1 call.2).2.Folds feed (calls ++ [call]) := by
  intro exchange symbol now plain
  rw [updatesOf_append]
  by_cases own : call.1.About exchange symbol
  · have levels := @IsFeed.levels _ _ isFeed exchange symbol
    have bounds := @IsFeed.bounds _ _ isFeed exchange symbol
    rw [updatesOf_append, updatesOf_cons_own own] at levels bounds
    rw [updatesOf_cons_own own]
    obtain ⟨rfl, rfl⟩ := own
    rw [processUpdate_state, Option.getD_some]
    exact (folds _ _ call.2 plain).processUpdate levels bounds call.2
  · rw [updatesOf_cons_other own, processUpdate_state_of_ne (isFeed.plain call (by simp)) plain own]
    have same : updatesOf exchange symbol calls ++ updatesOf exchange symbol [] = updatesOf exchange symbol calls := by
      simp [updatesOf]
    rw [same]
    exact folds exchange symbol now plain

theorem processAll_folds (config : ReconciliationConfig) (isFeed : IsFeed feed calls) :
    (processAll (.new config) calls).Folds feed calls := by
  induction calls using List.reverseRecOn with
  | nil => exact fun exchange symbol now _ => Folded.new _ now
  | append_singleton calls call ih =>
      have step := (ih isFeed.left).processUpdate isFeed
      rw [processAll, List.foldl_append]
      exact step

/-- The deltas `s + 1` to `s + k` of the symbol, in any order and any number of times. -/
structure Follows (exchange symbol : String) (s k : Nat) (later : List (OrderbookUpdate × Nat)) : Prop where
  near : ∀ u ∈ updatesOf exchange symbol later,
    u.updateType ≠ .snapshot ∧ s < u.sequence ∧ u.sequence ≤ s + k ∧ u.checksum = none
  all : ∀ n, s < n → n ≤ s + k → ∃ u ∈ updatesOf exchange symbol later, u.sequence = n

/-- A valid symbol handles a delta, unless a refresh is due. -/
theorem processUpdate_delta {config : ReconciliationConfig} {st : SymbolState} {u : OrderbookUpdate} {now : Nat}
    (valid : st.isValid = true) (delta : u.updateType ≠ .snapshot)
    (timely : SymbolState.Timely (st.processUpdate config u now).1) :
    st.processUpdate config u now = st.processDelta config u now := by
  have handled : (if !st.isValid then (.snapshotRequired .initial st.currentSequence u.sequence, st)
      else if config.snapshotIntervalMs < now - st.lastSnapshot then
        (.snapshotRequired .periodicRefresh st.currentSequence u.sequence, st)
      else st.processDelta config u now : ReconciliationResult × SymbolState) = st.processUpdate config u now := by
    unfold SymbolState.processUpdate
    cases kind : u.updateType with
    | snapshot => exact absurd kind delta
    | delta => rfl
    | trade => rfl
  rw [← handled] at timely ⊢
  rw [if_neg (by simp [valid])] at timely ⊢
  split
  next refresh =>
    rw [if_pos refresh] at timely
    exact timely.elim
  next => rfl

theorem processAll_catching {config : ReconciliationConfig} {exchange symbol : String} {s k : Nat}
    {left : List OrderbookUpdate} (plain : ':' ∉ exchange.toList) (gap : k ≤ config.maxSequenceGap)
    (fits : left.length + k ≤ config.maxBufferedUpdates) :
    ∀ (later before : List (OrderbookUpdate × Nat)) (r : OrderbookReconciler) (st : SymbolState)
      (came : List OrderbookUpdate), r.config = config → IsFeed feed (before ++ later) → r.Folds feed before →
      r.state symbol exchange = some st → Catching s left came st →
      (∀ u ∈ came, s < u.sequence ∧ u.sequence ≤ s + k) →
      (∀ u ∈ updatesOf exchange symbol later,
        u.updateType ≠ .snapshot ∧ s < u.sequence ∧ u.sequence ≤ s + k ∧ u.checksum = none) →
      (∀ result ∈ r.answers later, SymbolState.Timely result) →
        ∃ st', (r.processAll later).state symbol exchange = some st' ∧
          Catching s left (came ++ updatesOf exchange symbol later) st' := by
  intro later
  induction later with
  | nil =>
      intro _ r st came _ _ _ known catching _ _ _
      exact ⟨st, known, by simpa [updatesOf] using catching⟩
  | cons call later ih =>
      intro before r st came configured isFeed folds known catching within near timely
      have isFeed' : IsFeed feed ((before ++ [call]) ++ later) := by simpa using isFeed
      have step := folds.processUpdate isFeed'.left
      have timely' := fun result member => timely result (List.mem_cons_of_mem _ member)
      by_cases own : call.1.About exchange symbol
      · rw [updatesOf_cons_own own] at near ⊢
        have folded := folds exchange symbol 0 plain
        rw [known, Option.getD_some] at folded
        obtain ⟨delta, above, below, checked⟩ := near call.1 (by simp)
        have next := processUpdate_state r call.1 call.2
        have answer := timely _ (List.mem_cons_self ..)
        obtain ⟨rfl, rfl⟩ := own
        have answered : (r.processUpdate call.1 call.2).1 = (st.processUpdate config call.1 call.2).1 := by
          rw [← configured]
          change (((r.state call.1.symbol call.1.exchange).getD (.new call.2)).processUpdate r.config call.1 call.2).1 = _
          rw [known, Option.getD_some]
        rw [answered] at answer
        have handled := processUpdate_delta catching.valid delta answer
        rw [known, Option.getD_some, configured, handled] at next
        rw [handled] at answer
        have bounds : ∀ v ∈ call.1 :: st.bufferedUpdates, Bounded v.sequence := by
          intro v member
          rcases List.mem_cons.1 member with rfl | waits
          · exact isFeed.bounded call (by simp)
          · exact isFeed.left.bounds v (folded.waiting v waits).1
        have within' : ∀ v ∈ call.1 :: came, s < v.sequence ∧ v.sequence ≤ s + k := by
          intro v member
          rcases List.mem_cons.1 member with rfl | old
          · exact ⟨above, below⟩
          · exact within v old
        have catching' := catching.processDelta call.2 folded.bounded bounds folded.distinct within' fits gap
          checked answer
        obtain ⟨st', known', result⟩ := ih (before ++ [call]) (r.processUpdate call.1 call.2).2 _ (came ++ [call.1]) configured isFeed' step next
          catching' (fun v member => within' v (by simpa [or_comm] using member))
          (fun v member => near v (List.mem_cons_of_mem _ member)) timely'
        exact ⟨st', known', by simpa using result⟩
      · rw [updatesOf_cons_other own] at near ⊢
        have next := @processUpdate_state_of_ne _ r call.1 call.2 _ _ (isFeed.plain call (by simp)) plain own
        rw [known] at next
        exact ih (before ++ [call]) (r.processUpdate call.1 call.2).2 _ came configured isFeed' step next catching within near timely'

theorem processAll_append (r : OrderbookReconciler) (first second : List (OrderbookUpdate × Nat)) :
    r.processAll (first ++ second) = (r.processAll first).processAll second := by
  simp [processAll]

@[simp] theorem processAll_config (r : OrderbookReconciler) (calls : List (OrderbookUpdate × Nat)) :
    (r.processAll calls).config = r.config := by
  induction calls generalizing r with
  | nil => rfl
  | cons call calls ih => exact ih _

theorem processUpdate_snapshot {r : OrderbookReconciler} {u : OrderbookUpdate} (snapshot : u.updateType = .snapshot)
    (now : Nat) : ∃ st, (r.processUpdate u now).2.state u.symbol u.exchange = some st ∧
      Catching u.sequence st.bufferedUpdates [] st := by
  have start : ∀ st : SymbolState, Catching u.sequence (st.applySnapshot r.config u now).2.bufferedUpdates []
      (st.applySnapshot r.config u now).2 := by
    intro st
    unfold SymbolState.applySnapshot
    dsimp only
    split
    all_goals exact ⟨rfl, le_refl _, fun v member => by simpa using member,
      fun v member => .inr ⟨v, by simpa using member, rfl⟩, fun n above below => absurd below (Nat.not_le.2 above),
      fun some => absurd rfl some, fun _ => rfl⟩
  refine ⟨_, processUpdate_state r u now, ?_⟩
  have same : ∀ st : SymbolState, st.processUpdate r.config u now = st.applySnapshot r.config u now := by
    intro st
    rw [SymbolState.processUpdate, snapshot]
  rw [same]
  exact start _

end OrderbookReconciler

open OrderbookReconciler in
/-- After any calls that carry a feed, each valid book is its last snapshot with all
    deltas up to the current sequence in order, and an update leaves other symbols alone.
    The deltas `s + 1` to `s + k` after a snapshot `s` are all in the book, whatever their
    order: where the gap is allowed and the buffer holds them beside what still waits, the
    current sequence is `s + k`, or as far as the updates that waited go on from there. -/
theorem reconciled_books [BookChecksum] (config : ReconciliationConfig) (feed : (exchange symbol : String) → Levels)
    (calls : List (OrderbookUpdate × Nat)) (isFeed : IsFeed feed calls) :
    (∀ exchange symbol st, ':' ∉ exchange.toList → (processAll (.new config) calls).state symbol exchange = some st →
      st.isValid = true → IsFold (feed exchange symbol) (updatesOf exchange symbol calls) st) ∧
    (∀ before call later, calls = before ++ call :: later → ∀ exchange symbol, ':' ∉ exchange.toList →
      ¬ call.1.About exchange symbol →
        (processAll (.new config) (before ++ [call])).state symbol exchange =
          (processAll (.new config) before).state symbol exchange) ∧
    (∀ before snap now later k, calls = before ++ (snap, now) :: later → snap.updateType = .snapshot →
      Follows snap.exchange snap.symbol snap.sequence k later → k ≤ config.maxSequenceGap →
      ((processAll (.new config) (before ++ [(snap, now)])).waiting snap.exchange snap.symbol).length + k ≤
        config.maxBufferedUpdates →
      (∀ result ∈ (processAll (.new config) (before ++ [(snap, now)])).answers later, SymbolState.Timely result) →
        ∃ st, (processAll (.new config) calls).state snap.symbol snap.exchange = some st ∧
          snap.sequence + k ≤ st.currentSequence ∧
          (∀ n, snap.sequence + k < n → n ≤ st.currentSequence →
            ∃ u ∈ (processAll (.new config) (before ++ [(snap, now)])).waiting snap.exchange snap.symbol,
              u.sequence = n) ∧
          (0 < k → ∀ u ∈ (processAll (.new config) (before ++ [(snap, now)])).waiting snap.exchange snap.symbol,
            u.sequence ≠ st.currentSequence + 1) ∧
          st.localBook = inOrder (feed snap.exchange snap.symbol)
            (.ofSnapshot snap.sequence snap.bids snap.asks) (snap.sequence + 1)
            (st.currentSequence - snap.sequence)) := by
  have folds := processAll_folds config isFeed
  have fold : ∀ exchange symbol st, ':' ∉ exchange.toList →
      (processAll (.new config) calls).state symbol exchange = some st → st.isValid = true →
        IsFold (feed exchange symbol) (updatesOf exchange symbol calls) st := by
    intro exchange symbol st plain known valid
    have folded := folds exchange symbol 0 plain
    rw [known, Option.getD_some] at folded
    exact folded.book valid
  refine ⟨fold, ?_, ?_⟩
  · rintro before call later rfl exchange symbol plain other
    rw [processAll_append]
    exact processUpdate_state_of_ne (isFeed.plain call (by simp)) plain other
  · rintro before snap now later k rfl snapshot follows gap fits timely
    have plain := isFeed.plain (snap, now) (by simp)
    have isFeed' : IsFeed feed ((before ++ [(snap, now)]) ++ later) := by simpa using isFeed
    have folds' := processAll_folds config isFeed'.left
    have split : processAll (.new config) (before ++ (snap, now) :: later) =
        (processAll (.new config) (before ++ [(snap, now)])).processAll later := by
      rw [← processAll_append, List.append_assoc, List.singleton_append]
    have last : processAll (.new config) (before ++ [(snap, now)]) =
        ((processAll (.new config) before).processUpdate snap now).2 := processAll_append ..
    obtain ⟨st, known, catching⟩ := processUpdate_snapshot (r := processAll (.new config) before) snapshot now
    rw [← last] at known
    have waits : (processAll (.new config) (before ++ [(snap, now)])).waiting snap.exchange snap.symbol =
        st.bufferedUpdates := by
      rw [waiting, known]
      rfl
    rw [waits] at fits ⊢
    obtain ⟨st', known', caught⟩ := processAll_catching plain gap fits later (before ++ [(snap, now)]) _ st []
      (processAll_config ..) isFeed' folds' known catching (by simp) follows.near timely
    rw [← split] at known'
    rw [List.nil_append] at caught
    obtain ⟨snap', isLast, -, -, book⟩ := fold _ _ st' plain known' caught.valid
    have same : snap' = snap := by
      have deltas : (updatesOf snap.exchange snap.symbol later).filter (fun u => u.updateType = .snapshot) = [] := by
        refine List.filter_eq_nil_iff.2 fun u member => ?_
        simpa using (follows.near u member).1
      have own : snap.About snap.exchange snap.symbol := ⟨rfl, rfl⟩
      rw [updatesOf_append, updatesOf_cons_own own, lastSnapshot, List.filter_append, List.filter_cons_of_pos
        (by simpa using snapshot), deltas] at isLast
      simpa using isLast.symm
    rw [same] at book
    refine ⟨st', known', caught.caughtUp follows.all, caught.past fun u member => (follows.near u member).2.2.1, ?_, book⟩
    intro positive
    obtain ⟨u, member, -⟩ := follows.all (snap.sequence + 1) (by omega) (by omega)
    exact caught.stops (List.ne_nil_of_mem member)

namespace KrakenFeed

/-- An exchange that gives no checksums. -/
@[reducible] def unchecked : BookChecksum := ⟨fun _ _ => 0⟩

attribute [local instance] unchecked

def levels (_exchange _symbol : String) : Levels := fun n => ([(100, n)], [(101, n)])

def sent (kind : UpdateType) (sequence : Nat) : OrderbookUpdate × Nat :=
  (⟨"BTC-USD", "kraken", kind, sequence, [(100, sequence)], [(101, sequence)], none⟩, 0)

def outOfOrder : List (OrderbookUpdate × Nat) :=
  [sent .snapshot 10, sent .delta 12, sent .delta 13, sent .delta 12, sent .delta 11]

open OrderbookReconciler

theorem outOfOrder_caught_up :
    ∃ st, (processAll (.new .default) outOfOrder).state "BTC-USD" "kraken" = some st ∧ 10 + 3 ≤ st.currentSequence ∧
      st.localBook = inOrder (levels "kraken" "BTC-USD") (.ofSnapshot 10 [(100, 10)] [(101, 10)]) 11
        (st.currentSequence - 10) := by
  have isFeed : IsFeed levels outOfOrder :=
    ⟨by decide, by simp [outOfOrder, sent, OrderbookUpdate.Carries, levels], by simp [outOfOrder, sent, Bounded]⟩
  obtain ⟨st, known, caught, -, -, book⟩ := (reconciled_books .default levels outOfOrder isFeed).2.2 []
    (sent .snapshot 10).1 0 [sent .delta 12, sent .delta 13, sent .delta 12, sent .delta 11] 3 rfl rfl
    ⟨by decide, fun n above below => by
      change 10 < n at above
      change n ≤ 13 at below
      obtain rfl | rfl | rfl : n = 11 ∨ n = 12 ∨ n = 13 := by omega
      · exact ⟨(sent .delta 11).1, by decide, rfl⟩
      · exact ⟨(sent .delta 12).1, by decide, rfl⟩
      · exact ⟨(sent .delta 13).1, by decide, rfl⟩⟩
    (by decide) (by decide) (by decide)
  exact ⟨st, known, caught, book⟩

def reached (config : ReconciliationConfig) (calls : List (OrderbookUpdate × Nat)) : Option Nat :=
  ((processAll (.new config) calls).state "BTC-USD" "kraken").map SymbolState.currentSequence

/-- The delta 13 waits across the snapshot 11 and follows on from 12. A buffer full of
    deltas from before the snapshot 10 loses 12 and 13. After the last number comes 0. -/
theorem beyond_or_short_of_the_feed :
    reached .default [sent .snapshot 10, sent .delta 13, sent .snapshot 11, sent .delta 12] = some 13 ∧
    (∀ result ∈ (processAll (.new .default) [sent .snapshot 10, sent .delta 13, sent .snapshot 11]).answers
      [sent .delta 12], SymbolState.Timely result) ∧
    reached { ReconciliationConfig.default with maxBufferedUpdates := 3 }
      [sent .snapshot 10, sent .delta 15, sent .delta 16, sent .delta 17, sent .snapshot 10, sent .delta 12,
        sent .delta 13, sent .delta 11] = some 11 ∧
    reached .default [sent .snapshot (2 ^ 64 - 1), sent .delta 0] = some 0 := by
  refine ⟨?_, ?_, ?_, ?_⟩
  all_goals decide

end KrakenFeed

end ExecutionHandler
