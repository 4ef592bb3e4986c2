import SignalEngine.ExecutionHandler.OrderWalRuns

/-! # What recovery restores

A start loads the checkpoint and replays the lines after it. A careful run leaves on
disk what the order map needs, so each order is listed by its latest synced entry.
-/

open Latest

namespace Registry

variable {K V : Type} [DecidableEq K] {pairs : List (K × V)} {start : Registry K V} {k : K} {v : V}

theorem get_foldl_insert (get : (pairs.foldl (fun r (k, v) => r.insert k v) start).get k = some v) :
    (k, v) ∈ pairs ∨ start.get k = some v := by
  induction pairs generalizing start with
  | nil => exact .inr get
  | cons head rest ih =>
      rcases ih get with later | first
      · exact .inl (List.mem_cons_of_mem _ later)
      · rw [get_insert] at first
        split at first
        next same =>
          cases first
          rw [same]
          exact .inl (by simp)
        next => exact .inr first

theorem foldl_insert_isSome (held : (∃ v, (k, v) ∈ pairs) ∨ (start.get k).isSome) :
    ((pairs.foldl (fun r (k, v) => r.insert k v) start).get k).isSome := by
  induction pairs generalizing start with
  | nil => simpa using held
  | cons head rest ih =>
      apply ih
      rw [get_insert]
      by_cases same : k = head.1
      · simp [same]
      · rw [if_neg same]
        refine held.imp_left fun ⟨v, member⟩ => ⟨v, ?_⟩
        rcases List.mem_cons.1 member with rfl | later
        · exact absurd rfl same
        · exact later

theorem filterMap_keys {β : Type} {r : Registry K V} {f : K → Option β} (others : ∀ k', k' ≠ k → f k' = none)
    (absent : r.get k = none → f k = none) : r.keys.filterMap f = (f k).toList := by
  have one : ∀ {keys : List K}, keys.Nodup → k ∈ keys → keys.filterMap f = (f k).toList := by
    intro keys nodup member
    induction keys with
    | nil => cases member
    | cons head rest ih =>
        obtain ⟨fresh, nodup'⟩ := List.nodup_cons.1 nodup
        by_cases here : head = k
        · subst here
          have rest' : rest.filterMap f = [] := by
            rw [List.filterMap_eq_nil_iff]
            exact fun k' inRest => others k' fun same => fresh (same ▸ inRest)
          cases value : f head with
          | none => rw [List.filterMap_cons_none value, rest']; rfl
          | some b => rw [List.filterMap_cons_some value, rest']; rfl
        · rw [List.filterMap_cons_none (others head here)]
          exact ih nodup' ((List.mem_cons.1 member).resolve_left fun same => here same.symm)
  by_cases listed : k ∈ r.keys
  · exact one r.nodup listed
  · have missing : f k = none := absent (by simpa [r.mem_keys] using listed)
    rw [missing, Option.toList_none, List.filterMap_eq_nil_iff]
    intro k' member
    by_cases same : k' = k
    · rw [same]
      exact missing
    · exact others k' same

end Registry

namespace ExecutionHandler

namespace OrderWal

variable [FloatText]

theorem foldl_replayEntry {entries : List WalEntry} (verified : ∀ e ∈ entries, e.verifyChecksum = true)
    (checkpointSeq : Nat) (wal : OrderWal) :
    entries.foldl (replayEntry checkpointSeq) wal =
      (entries.filter fun e => checkpointSeq < e.sequence).foldl applyEntry wal := by
  induction entries generalizing wal with
  | nil => rfl
  | cons e rest ih =>
      have verified' := fun e' member => verified e' (List.mem_cons_of_mem e member)
      rw [List.foldl_cons, ih verified', replayEntry]
      by_cases covered : e.sequence ≤ checkpointSeq
      · rw [if_pos covered, List.filter_cons_of_neg (by simpa using covered)]
      · rw [if_neg covered, verified e (by simp), List.filter_cons_of_pos (by simpa using covered)]
        rfl

omit [FloatText] in
theorem foldl_applyEntry_orders (entries : List WalEntry) (wal : OrderWal) :
    (entries.foldl applyEntry wal).orders = replay WalEntry.orderId wal.orders entries := by
  induction entries generalizing wal with
  | nil => rfl
  | cons e rest ih => exact ih (wal.applyEntry e)

omit [FloatText] in
theorem applyEntry_sequence (wal : OrderWal) (e : WalEntry) :
    (wal.applyEntry e).sequence = max wal.sequence e.sequence := by
  unfold applyEntry
  dsimp only
  split <;> omega

omit [FloatText] in
theorem foldl_applyEntry_sequence (entries : List WalEntry) (wal : OrderWal) :
    wal.sequence ≤ (entries.foldl applyEntry wal).sequence ∧
      ∀ e ∈ entries, e.sequence ≤ (entries.foldl applyEntry wal).sequence := by
  induction entries generalizing wal with
  | nil => simp
  | cons e rest ih =>
      obtain ⟨grows, reaches⟩ := ih (wal.applyEntry e)
      rw [applyEntry_sequence] at grows
      refine ⟨(le_max_left _ _).trans grows, fun e' member => ?_⟩
      rcases List.mem_cons.1 member with rfl | later
      · exact (le_max_right _ _).trans grows
      · exact reaches e' later

end OrderWal

section Crash

variable [FloatText] [WalJson] {s : WalSystem} {kept : Nat}

theorem foldlM_replayLine {lines : List (List UInt8)} {entries : List WalEntry}
    (reads : lines.map WalJson.read = entries.map .entry) (checkpointSeq : Nat) (wal : OrderWal) :
    lines.foldlM (OrderWal.replayLine checkpointSeq) wal =
      some (entries.foldl (OrderWal.replayEntry checkpointSeq) wal) := by
  induction lines generalizing entries wal with
  | nil =>
      cases entries with
      | nil => rfl
      | cons e rest => cases reads
  | cons line lines ih =>
      cases entries with
      | nil => cases reads
      | cons e rest =>
          obtain ⟨read, later⟩ := List.cons.inj reads
          have some : line ≠ [] := by
            rintro rfl
            rw [WalJson.nothing] at read
            cases read
          rw [List.foldlM_cons, OrderWal.replayLine, if_neg some, read]
          exact ih later _

theorem recover_file {file : List UInt8} {entries : List WalEntry} {checkpoint : Option (List UInt8)}
    (lines : (Lines.split newline file).1.map WalJson.read = entries.map .entry) (unread : EndsUnread file)
    (loads : ∀ json ∈ checkpoint, (WalJson.readCheckpoint json).isSome) :
    OrderWal.recover checkpoint file =
      some (entries.foldl
        (OrderWal.replayEntry ((checkpoint.bind WalJson.readCheckpoint).getD ⟨0, []⟩).sequence)
        (OrderWal.loadCheckpoint ((checkpoint.bind WalJson.readCheckpoint).getD ⟨0, []⟩))) := by
  have whole (wal : OrderWal) : (Lines.all newline file).foldlM (OrderWal.replayLine wal.lastCheckpoint) wal =
      some (entries.foldl (OrderWal.replayEntry wal.lastCheckpoint) wal) := by
    rw [Lines.all, List.foldlM_append, foldlM_replayLine lines]
    change List.foldlM _ _ _ = _
    split
    next => rfl
    next behind =>
      have other := unread.resolve_left behind
      rw [List.foldlM_cons, OrderWal.replayLine, if_neg behind, other]
      rfl
  cases checkpoint with
  | none => exact whole _
  | some json =>
      obtain ⟨checkpoint, read⟩ := Option.isSome_iff_exists.1 (loads json rfl)
      unfold OrderWal.recover
      rw [Option.bind_some]
      dsimp only
      rw [read]
      exact whole _

omit [FloatText] in
theorem tornFile_lines (s : WalSystem) (kept : Nat) :
    (Lines.split newline (s.tornFile kept)).1 = (Lines.split newline s.file).1 := by
  unfold WalSystem.tornFile
  split
  next e _ =>
    rw [Lines.split_append _ fun inside => WalJson.oneLine e (List.mem_of_mem_take inside)]
  next => rfl

omit [FloatText] in
theorem covered_synced (careful : Careful s (.crash kept)) (e : WalEntry)
    (covered : e.sequence ≤ s.saved.sequence) : e ∈ s.known ↔ e ∈ s.synced := by
  constructor
  · intro known
    have member : e ∈ s.every := List.mem_append_left _ known
    rw [s.every_eq, List.mem_append] at member
    exact member.resolve_right fun inFlight => absurd (careful.2 e inFlight) (not_lt.2 covered)
  · intro synced
    simp [WalSystem.known, WalSystem.written, synced]

theorem Consistent.synced_verified (consistent : Consistent s) : ∀ e ∈ s.synced, e.verifyChecksum = true := by
  intro e member
  apply consistent.verified
  rw [s.every_eq]
  exact List.mem_append_left _ member

theorem Consistent.synced_distinct (consistent : Consistent s) : (s.synced.map WalEntry.sequence).Nodup := by
  have all := consistent.distinct
  rw [s.every_eq, List.map_append] at all
  exact (List.nodup_append.1 all).1

theorem Consistent.synced_ordered (consistent : Consistent s) :
    Ordered WalEntry.orderId WalEntry.sequence s.synced := by
  have all := consistent.ordered
  rw [WalSystem.written, List.append_assoc] at all
  exact (List.pairwise_append.1 all).1

theorem recover_crash (consistent : Consistent s) (careful : Careful s (.crash kept)) :
    (s.act (.crash kept)).running = true ∧ (s.act (.crash kept)).wal =
      (s.synced.filter fun e => s.saved.sequence < e.sequence).foldl OrderWal.applyEntry
        (OrderWal.loadCheckpoint s.saved) := by
  have lines : (Lines.split newline (s.tornFile kept)).1.map WalJson.read = s.synced.map .entry := by
    rw [tornFile_lines]
    exact consistent.lines
  have restored := recover_file lines careful.1 consistent.checkpoint
  unfold WalSystem.act
  dsimp only
  rw [restored]
  exact ⟨rfl, OrderWal.foldl_replayEntry consistent.synced_verified _ _⟩

/-- The order map after a careful crash: of each order the latest synced entry, but for
    orders that ended before the checkpoint. -/
theorem recovered (consistent : Consistent s) (careful : Careful s (.crash kept)) (id : String) (e : WalEntry) :
    ((s.act (.crash kept)).wal.orders.get id = some e → IsLatestEntry s.synced id e) ∧
      (IsLatestEntry s.synced id e → (s.act (.crash kept)).wal.orders.get id = none → e.state.isTerminal = true) := by
  have kept : (s.synced.filter fun e => s.saved.sequence < e.sequence).Sublist s.synced := List.filter_sublist
  have holds := fun {id e} => @get_replay _ _ WalEntry.orderId WalEntry.sequence _ id e _
    (OrderWal.loadCheckpoint s.saved).orders (consistent.synced_distinct.sublist (kept.map _))
    (consistent.synced_ordered.sublist kept)
  have covered : ∀ e, e ∈ s.known.filter (fun e => e.sequence ≤ s.saved.sequence) ↔
      e ∈ s.synced.filter (fun e => e.sequence ≤ s.saved.sequence) := by
    intro e
    simp only [List.mem_filter, decide_eq_true_eq]
    exact and_congr_left (covered_synced careful e)
  rw [(recover_crash consistent careful).2, OrderWal.foldl_applyEntry_orders]
  constructor
  · intro get
    rcases holds.1 get with above | ⟨none, loaded⟩
    · exact (isLatest_above.1 above).1
    · rcases Registry.get_foldl_insert loaded with active | absent
      · have latest := (consistent.saved.active id e active).1.congr covered
        exact (isLatest_below.1 ⟨latest, none⟩).1
      · cases absent
  · intro latest get
    by_cases after : s.saved.sequence < e.sequence
    · rw [holds.2 (.inl (isLatest_above.2 ⟨latest, after⟩))] at get
      cases get
    · obtain ⟨before, none⟩ := isLatest_below.2 ⟨latest, not_lt.1 after⟩
      rcases consistent.saved.rest id e (before.congr fun e => (covered e).symm) with ended | active
      · exact ended
      · have some : ((OrderWal.loadCheckpoint s.saved).orders.get id).isSome :=
          Registry.foldl_insert_isSome (.inl ⟨e, active⟩)
        obtain ⟨held, loaded⟩ := Option.isSome_iff_exists.1 some
        rw [holds.2 (.inr ⟨none, loaded⟩)] at get
        cases get

theorem crash_consistent (consistent : Consistent s) (careful : Careful s (.crash kept)) :
    Consistent (s.act (.crash kept)) := by
  obtain ⟨running, restored⟩ := recover_crash consistent careful
  have holds := recovered consistent careful
  generalize next : s.act (.crash kept) = s' at running restored holds ⊢
  have synced : s'.synced = s.synced := by rw [← next]; rfl
  have written : s'.written = s.synced := by
    rw [← next]
    simp [WalSystem.act, WalSystem.start, WalSystem.written, Writer.entry]
  have applied : s'.applied = [] := by rw [← next]; rfl
  have taken : s'.taken = [] := by rw [← next]; rfl
  have known : s'.known = s.synced := by rw [WalSystem.known, written, applied, List.append_nil]
  have every : s'.every = s.synced := by rw [WalSystem.every, known, taken, List.append_nil]
  have saved : s'.saved = s.saved := by rw [← next]; rfl
  have among : ∀ e ∈ s.synced, e ∈ s.every := by
    intro e member
    rw [s.every_eq]
    exact List.mem_append_left _ member
  obtain ⟨grows, reaches⟩ := OrderWal.foldl_applyEntry_sequence
    (s.synced.filter fun e => s.saved.sequence < e.sequence) (OrderWal.loadCheckpoint s.saved)
  rw [← restored] at grows reaches
  constructor
  case distinct => rw [every]; exact consistent.synced_distinct
  case positive => rw [every]; exact fun e member => consistent.positive e (among e member)
  case bounded =>
    rw [every]
    intro e member
    by_cases after : s.saved.sequence < e.sequence
    · exact reaches e (List.mem_filter.2 ⟨member, decide_eq_true after⟩)
    · exact (not_lt.1 after).trans grows
  case verified => rw [every]; exact consistent.synced_verified
  case ordered => rw [written]; exact consistent.synced_ordered
  case ahead =>
    rw [applied, taken]
    exact fun _ _ _ member => by cases member
  case latest => rw [known]; exact fun id e get => (holds id e).1 get
  case finished => rw [known]; exact fun id e latest => (holds id e).2 latest
  case inMap =>
    rw [applied]
    exact fun _ member => by cases member
  case running => exact running
  case lines =>
    rw [synced, ← next]
    exact (congrArg (List.map WalJson.read) (tornFile_lines s kept)).trans consistent.lines
  case tail => rw [← next]; exact careful.1
  case checkpoint => rw [← next]; exact consistent.checkpoint
  case saved =>
    rw [saved]
    have covered : ∀ e, e ∈ s'.known.filter (fun e => e.sequence ≤ s.saved.sequence) ↔
        e ∈ s.known.filter (fun e => e.sequence ≤ s.saved.sequence) := by
      intro e
      simp only [known, List.mem_filter, decide_eq_true_eq]
      exact and_congr_left fun below => (covered_synced careful e below).symm
    constructor
    case below => exact grows
    case untaken => rw [taken]; exact fun _ member => by cases member
    case active =>
      intro id e active
      obtain ⟨latest, running⟩ := consistent.saved.active id e active
      exact ⟨latest.congr fun e => (covered e).symm, running⟩
    case rest => exact fun id e latest => consistent.saved.rest id e (latest.congr covered)
  case writer => rw [WriterCovers, ← next]; trivial

/-! ### Runs -/

theorem step_consistent (s : WalSystem) (event : WalEvent) (consistent : Consistent s) (careful : Careful s event) :
    Consistent (s.step event) := by
  rw [WalSystem.step, if_pos (by simp [consistent.running])]
  cases event with
  | logPending order now =>
      have numbered : ∀ n, (WalEntry.new n now order).sequence = n := fun _ => rfl
      exact take_consistent consistent numbered (fun _ => WalEntry.sealed_verifies _) careful
  | logUpdate orderId update now =>
      unfold WalSystem.act
      dsimp only
      split
      next latest _ =>
        have numbered : ∀ n, (latest.transition update n now).sequence = n := fun _ =>
          OrderUpdate.modifier_sequence _ update
        exact take_consistent consistent numbered (fun _ => WalEntry.sealed_verifies _) careful
      next => exact consistent
  | apply call => exact apply_consistent consistent careful
  | send call => exact send_consistent consistent careful
  | requestCheckpoint => exact requestCheckpoint_consistent consistent
  | receive => exact receive_consistent consistent
  | writeLine => exact writeLine_consistent consistent careful
  | readActive => exact readActive_consistent consistent careful
  | readSequence => exact readSequence_consistent consistent
  | replaceFile => exact replaceFile_consistent consistent careful
  | crash kept => exact crash_consistent consistent careful

theorem start_consistent : Consistent WalSystem.start := by
  have none : ∀ id e, ¬ IsLatestEntry [] id e := fun id e latest => nomatch latest.mem
  constructor
  case distinct => exact List.nodup_nil
  case ordered => exact List.Pairwise.nil
  case latest => exact fun _ _ get => nomatch get
  case finished => exact fun id e latest => absurd latest (none id e)
  case running => rfl
  case lines => rfl
  case tail => exact .inl rfl
  case saved =>
    constructor
    case below => exact le_refl _
    case untaken => exact fun _ member => nomatch member
    case active => exact fun _ _ active => nomatch active
    case rest => exact fun id e latest => absurd latest (none id e)
  case writer => trivial
  all_goals exact fun _ member => nomatch member

end Crash

/-- There is a log, and each order with a synced entry is listed by its latest synced entry,
    unless that entry ends the order. -/
def ListsDurable (s : WalSystem) : Prop :=
  s.running = true ∧ ∀ id, (∃ e ∈ s.synced, e.orderId = id) → ∃ e, IsLatestEntry s.synced id e ∧
    s.wal.getIncompleteOrders.filter (fun listed => listed.orderId = id) =
      if e.state.isTerminal then [] else [e]

theorem listed_of_get {wal : OrderWal} (own : ∀ id e, wal.orders.get id = some e → e.orderId = id) (id : String) :
    wal.getIncompleteOrders.filter (fun listed => listed.orderId = id) =
      ((wal.orders.get id).filter fun e => !e.state.isTerminal).toList := by
  rw [OrderWal.getIncompleteOrders, OrderWal.active, List.map_filterMap, List.filter_filterMap]
  have listing : ∀ k, (Option.map Prod.snd ((wal.orders.get k).bind fun e =>
      if e.state.isTerminal then none else some (k, e))).filter (fun listed => decide (listed.orderId = id)) =
      if k = id then (wal.orders.get k).filter (fun e => !e.state.isTerminal) else none := by
    intro k
    cases get : wal.orders.get k with
    | none => simp
    | some e =>
        have name := own k e get
        cases running : e.state.isTerminal <;> by_cases same : k = id <;>
          simp [running, name, same, Option.filter]
  simp only [listing]
  have others : ∀ k, k ≠ id → (if k = id then (wal.orders.get k).filter (fun e => !e.state.isTerminal) else none) =
      none := fun k other => if_neg other
  rw [Registry.filterMap_keys others fun missing => by rw [if_pos rfl, missing]; rfl, if_pos rfl]

theorem not_listsDurable {s : WalSystem} (id : String) (held : ∃ e ∈ s.synced, e.orderId = id)
    (running : ∀ e ∈ s.synced, e.state.isTerminal = false) (unlisted : ∀ e ∈ s.wal.getIncompleteOrders, e.orderId ≠ id) :
    ¬ ListsDurable s := by
  intro durable
  obtain ⟨e, latest, listing⟩ := durable.2 id held
  have listed : e ∈ s.wal.getIncompleteOrders.filter (fun listed => listed.orderId = id) := by
    rw [listing, running e latest.mem]
    simp
  obtain ⟨listed, own⟩ := List.mem_filter.1 listed
  exact unlisted e listed (of_decide_eq_true own)

/-- Whatever is logged and whenever the system crashes, a run whose steps are careful
    recovers every durable order. -/
theorem orderWal_recovers [FloatText] [WalJson] (events : List WalEvent) (kept : Nat)
    (careful : Runs.Guarded WalSystem.step Careful .start (events ++ [.crash kept])) :
    ListsDurable (Runs.run WalSystem.step .start (events ++ [.crash kept])) := by
  obtain ⟨before, crash, -⟩ := Runs.guarded_append.1 careful
  have consistent := Runs.run_of_guarded step_consistent start_consistent before
  rw [Runs.run_append, Runs.run_cons, Runs.run_nil]
  generalize Runs.run WalSystem.step .start events = s at consistent crash ⊢
  have holds := recovered consistent crash
  rw [WalSystem.step, if_pos (by simp [consistent.running])]
  refine ⟨(recover_crash consistent crash).1, ?_⟩
  rintro id held
  have found : ∃ e, IsLatestEntry s.synced id e := exists_latest held
  obtain ⟨e, latest⟩ := found
  refine ⟨e, latest, ?_⟩
  have own : ∀ id e, (s.act (.crash kept)).wal.orders.get id = some e → e.orderId = id := fun id e get =>
    ((holds id e).1 get).key_eq
  rw [listed_of_get own]
  cases get : (s.act (.crash kept)).wal.orders.get id with
  | none =>
      rw [if_pos ((holds id e).2 latest get)]
      rfl
  | some e' =>
      have same : e' = e := ((holds id e').1 get).unique consistent.synced_distinct latest
      rw [same]
      cases ended : e.state.isTerminal <;> simp [Option.filter, ended]

namespace LoggedOrders

/-- The text of a whole number. -/
@[reducible]
def wholeNumbers : FloatText where
  display
    | .finite q => toString q.num
    | .infinite negative => if negative then "-inf" else "inf"
    | .nan => "NaN"
  debug
    | .finite q => toString q.num ++ ".0"
    | .infinite negative => if negative then "-inf" else "inf"
    | .nan => "NaN"

def stateName : WalOrderState → String
  | .pending => "pending"
  | .submitted => "submitted"
  | .acknowledged => "acknowledged"
  | .partiallyFilled => "partially_filled"
  | .filled => "filled"
  | .cancelled => "cancelled"
  | .rejected => "rejected"
  | .expired => "expired"
  | .failed => "failed"

def quoted (text : List Char) : List Char := '"' :: text ++ ['"']

def text (s : String) : List Char := quoted s.toList

def number : FloatArg → List Char
  | .finite q => (if q < 0 then ['-'] else []) ++ Nat.toDigits 10 q.num.natAbs ++ ['.', '0']
  | _ => ['n', 'u', 'l', 'l']

def orNull {α : Type} (value : α → List Char) : Option α → List Char
  | some a => value a
  | none => ['n', 'u', 'l', 'l']

def member (key value : List Char) : List Char := quoted key ++ ':' :: value

/-- An entry as the JSON writer writes it; the metadata are empty. -/
def json (e : WalEntry) : List Char :=
  '{' :: List.intercalate [','] [
    member ['s', 'e', 'q', 'u', 'e', 'n', 'c', 'e'] (Nat.toDigits 10 e.sequence),
    member ['t', 'i', 'm', 'e', 's', 't', 'a', 'm', 'p', '_', 'n', 's'] (Nat.toDigits 10 e.timestampNs),
    member ['o', 'r', 'd', 'e', 'r', '_', 'i', 'd'] (text e.orderId),
    member ['s', 't', 'a', 't', 'e'] (text (stateName e.state)),
    member ['e', 'x', 'c', 'h', 'a', 'n', 'g', 'e'] (text e.exchange),
    member ['s', 'y', 'm', 'b', 'o', 'l'] (text e.symbol),
    member ['s', 'i', 'd', 'e'] (text e.side),
    member ['q', 'u', 'a', 'n', 't', 'i', 't', 'y'] (number e.quantity),
    member ['p', 'r', 'i', 'c', 'e'] (orNull number e.price),
    member ['e', 'x', 'c', 'h', 'a', 'n', 'g', 'e', '_', 'o', 'r', 'd', 'e', 'r', '_', 'i', 'd']
      (orNull text e.exchangeOrderId),
    member ['f', 'i', 'l', 'l', 'e', 'd', '_', 'q', 'u', 'a', 'n', 't', 'i', 't', 'y'] (number e.filledQuantity),
    member ['a', 'v', 'g', '_', 'f', 'i', 'l', 'l', '_', 'p', 'r', 'i', 'c', 'e'] (orNull number e.avgFillPrice),
    member ['e', 'r', 'r', 'o', 'r'] (orNull text e.error),
    member ['s', 't', 'r', 'a', 't', 'e', 'g', 'y', '_', 'i', 'd'] (text e.strategyId),
    member ['m', 'e', 't', 'a', 'd', 'a', 't', 'a'] ['{', '}'],
    member ['c', 'h', 'e', 'c', 'k', 's', 'u', 'm'] (Nat.toDigits 10 e.checksum)] ++ ['}']

def bytes (text : List Char) : List UInt8 :=
  (text.flatMap String.utf8EncodeChar).flatMap fun byte => if byte = newline then [92, 110] else [byte]

def checkpointJson (checkpoint : Checkpoint) : List Char :=
  '{' :: member ['s', 'e', 'q', 'u', 'e', 'n', 'c', 'e'] (Nat.toDigits 10 checkpoint.sequence) ++
    ',' :: member ['a', 'c', 't', 'i', 'v', 'e', '_', 'o', 'r', 'd', 'e', 'r', 's']
      ('{' :: List.intercalate [','] (checkpoint.activeOrders.map fun (id, e) => text id ++ ':' :: json e) ++ ['}', '}'])

theorem oneLine (text : List Char) : newline ∉ bytes text := by
  simp only [bytes, List.mem_flatMap, not_exists, not_and]
  intro byte _ inside
  split at inside
  · simp [newline] at inside
  next other => exact other (List.mem_singleton.1 inside).symm

/-- A reader that knows the texts of some entries and of a checkpoint. -/
@[reducible]
def reader (entries : List WalEntry) (saved : Checkpoint) : WalJson where
  write e := bytes (json e)
  read line :=
    if line = [] then .other
    else
      match entries.find? fun e => bytes (json e) = line with
      | some e => .entry e
      | none => if line.all (· < 128) then .other else .invalid
  writeCheckpoint checkpoint := bytes (checkpointJson checkpoint)
  readCheckpoint text := if text = bytes (checkpointJson saved) then some saved else none
  oneLine e := oneLine (json e)
  nothing := rfl

def order (orderId : String) : PendingOrder :=
  ⟨orderId, "kraken", "XBT/USD", "buy", .finite 2, some (.finite 30000), "trend"⟩

def pending (sequence now : Nat) (orderId : String) : WalEntry := @WalEntry.new wholeNumbers sequence now (order orderId)

def filledEntry : WalEntry :=
  @WalEntry.transition wholeNumbers (pending 1 10 "a") (.filled (.finite 2) (.finite 30000)) 3 12

def logged (call : WalEvent) : List WalEvent := [call, .apply 0, .send 0, .receive, .writeLine]

def checkpointed : List WalEvent := [.requestCheckpoint, .receive, .readActive, .readSequence, .replaceFile]

/-- Two orders, a checkpoint, a fill behind it, and a torn line. -/
def twoOrders : List WalEvent :=
  logged (.logPending (order "a") 10) ++ logged (.logPending (order "b") 11) ++
    checkpointed ++
    logged (.logUpdate "a" (.filled (.finite 2) (.finite 30000)) 12) ++
    [.logUpdate "b" .submitted 13, .apply 0, .send 0, .receive]

@[reducible]
def twoOrdersReader : WalJson :=
  reader [pending 1 10 "a", pending 2 11 "b", filledEntry] ⟨2, [("a", pending 1 10 "a"), ("b", pending 2 11 "b")]⟩

theorem twoOrders_recovered :
    ListsDurable (Runs.run (@WalSystem.step wholeNumbers twoOrdersReader) .start (twoOrders ++ [.crash 40])) :=
  @orderWal_recovers wholeNumbers twoOrdersReader twoOrders 40 (by decide +kernel)

/-- The checkpoint reads the counter after a number was taken and before its entry is seen. -/
def coveredUnseen : List WalEvent :=
  [.logPending (order "a") 10] ++ checkpointed ++ [.apply 0, .send 0, .receive, .writeLine]

def behindTorn : List WalEvent :=
  [.logPending (order "a") 10, .apply 0, .send 0, .receive, .crash 40] ++ logged (.logPending (order "b") 11)

/-- The line with the reason is torn inside a letter of two bytes. -/
def tornLetter : List WalEvent :=
  logged (.logPending (order "a") 10) ++ [.logUpdate "a" (.rejected "é") 11, .apply 0, .send 0, .receive]

def unwritten : List WalEvent := logged (.logPending { order "a" with quantity := .nan } 10)

@[reducible]
def lossReader : WalJson := reader [pending 1 10 "a", pending 2 11 "b"] ⟨1, []⟩

theorem synced_order_lost :
    ¬ ListsDurable (Runs.run (@WalSystem.step wholeNumbers lossReader) .start (coveredUnseen ++ [.crash 0])) ∧
      ¬ ListsDurable (Runs.run (@WalSystem.step wholeNumbers lossReader) .start (behindTorn ++ [.crash 0])) ∧
      ¬ ListsDurable (Runs.run (@WalSystem.step wholeNumbers lossReader) .start (tornLetter ++ [.crash 228])) ∧
      ¬ ListsDurable (Runs.run (@WalSystem.step wholeNumbers lossReader) .start (unwritten ++ [.crash 0])) := by
  refine ⟨not_listsDurable "a" ?_ ?_ ?_, not_listsDurable "b" ?_ ?_ ?_, fun durable => ?_,
    not_listsDurable "a" ?_ ?_ ?_⟩
  -- the third start fails
  case refine_7 => exact absurd durable.1 (by decide +kernel)
  all_goals decide +kernel

end LoggedOrders

end ExecutionHandler
