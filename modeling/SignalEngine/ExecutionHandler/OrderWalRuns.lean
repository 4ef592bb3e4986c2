import SignalEngine.ExecutionHandler.OrderWal
import SignalEngine.Lib.Latest

/-! # What holds while orders are logged

The numbers, the order map, the file and the checkpoints along a run whose steps
are careful.
-/

open Latest

namespace ExecutionHandler

abbrev IsLatestEntry (entries : List WalEntry) (orderId : String) (e : WalEntry) : Prop :=
  IsLatest WalEntry.orderId WalEntry.sequence entries orderId e

namespace WalSystem

def written (s : WalSystem) : List WalEntry :=
  s.synced ++ s.writer.entry.toList ++ s.channel.filterMap WriteCommand.entry

def known (s : WalSystem) : List WalEntry := s.written ++ s.applied

def every (s : WalSystem) : List WalEntry := s.known ++ s.taken

def inFlight (s : WalSystem) : List WalEntry :=
  s.writer.entry.toList ++ s.channel.filterMap WriteCommand.entry ++ s.applied ++ s.taken

theorem every_eq (s : WalSystem) : s.every = s.synced ++ s.inFlight := by
  simp [every, known, written, inFlight]

end WalSystem

def Writer.isReadingSequence : Writer → Bool
  | readingSequence _ => true
  | _ => false

def Writer.isCheckpointing : Writer → Bool
  | checkpointing => true
  | _ => false

section Reading

variable [WalJson]

/-- The checkpoint on disk; none is one of nothing. -/
def WalSystem.saved (s : WalSystem) : Checkpoint := (s.checkpoint.bind WalJson.readCheckpoint).getD ⟨0, []⟩

/-- A file that ends with a newline, or with text that does not read as an entry. -/
def EndsUnread (file : List UInt8) : Prop :=
  (Lines.split newline file).2 = [] ∨ WalJson.read (Lines.split newline file).2 = .other

instance (file : List UInt8) : Decidable (EndsUnread file) := inferInstanceAs (Decidable (_ ∨ _))

/-- What a checkpoint covers is not in flight when the system crashes, calls of one order
    are applied and sent by number, no number is taken and not applied while a checkpoint
    reads, every line starts a line of the file, and what is written whole reads back, and
    what is not does not. -/
def Careful (s : WalSystem) : WalEvent → Prop
  | .logPending .. | .logUpdate .. => s.writer.isReadingSequence = false
  | .apply call => ∀ e ∈ s.taken[call]?, ∀ latest ∈ s.wal.orders.get e.orderId, latest.sequence < e.sequence
  | .send call => ∀ e ∈ s.applied[call]?, ∀ other ∈ s.applied ++ s.taken, other.orderId = e.orderId →
      e.sequence ≤ other.sequence
  | .readActive => s.writer.isCheckpointing = true → s.taken = []
  | .writeLine => ∀ e ∈ s.writer.entry,
      (Lines.split newline s.file).2 = [] ∧ WalJson.read (WalJson.write e) = .entry e
  | .replaceFile => ∀ checkpoint ∈ s.writer.replacement,
      WalJson.readCheckpoint (WalJson.writeCheckpoint checkpoint) = some checkpoint
  | .crash kept => EndsUnread (s.tornFile kept) ∧ ∀ e ∈ s.inFlight, s.saved.sequence < e.sequence
  | .requestCheckpoint | .receive | .readSequence => True

instance (s : WalSystem) : (event : WalEvent) → Decidable (Careful s event)
  | .logPending .. | .logUpdate .. => inferInstanceAs (Decidable (s.writer.isReadingSequence = false))
  | .apply call =>
      inferInstanceAs (Decidable (∀ e ∈ s.taken[call]?, ∀ latest ∈ s.wal.orders.get e.orderId,
        latest.sequence < e.sequence))
  | .send call =>
      inferInstanceAs (Decidable (∀ e ∈ s.applied[call]?, ∀ other ∈ s.applied ++ s.taken,
        other.orderId = e.orderId → e.sequence ≤ other.sequence))
  | .readActive => inferInstanceAs (Decidable (s.writer.isCheckpointing = true → s.taken = []))
  | .writeLine =>
      inferInstanceAs (Decidable (∀ e ∈ s.writer.entry,
        (Lines.split newline s.file).2 = [] ∧ WalJson.read (WalJson.write e) = .entry e))
  | .replaceFile =>
      inferInstanceAs (Decidable (∀ checkpoint ∈ s.writer.replacement,
        WalJson.readCheckpoint (WalJson.writeCheckpoint checkpoint) = some checkpoint))
  | .crash kept =>
      inferInstanceAs (Decidable (EndsUnread (s.tornFile kept) ∧ ∀ e ∈ s.inFlight, s.saved.sequence < e.sequence))
  | .requestCheckpoint | .receive | .readSequence => isTrue trivial

end Reading

/-- A checkpoint stands for the entries up to its sequence. -/
structure Covers (s : WalSystem) (checkpoint : Checkpoint) : Prop where
  below : checkpoint.sequence ≤ s.wal.sequence
  untaken : ∀ e ∈ s.taken, checkpoint.sequence < e.sequence
  active : ∀ id e, (id, e) ∈ checkpoint.activeOrders →
    IsLatestEntry (s.known.filter fun e => e.sequence ≤ checkpoint.sequence) id e ∧ e.state.isTerminal = false
  rest : ∀ id e, IsLatestEntry (s.known.filter fun e => e.sequence ≤ checkpoint.sequence) id e →
    e.state.isTerminal = true ∨ (id, e) ∈ checkpoint.activeOrders

def WriterCovers (s : WalSystem) : Prop :=
  match s.writer with
  | .readingSequence activeOrders => Covers s ⟨s.wal.sequence, activeOrders⟩ ∧ s.taken = []
  | .replacing checkpoint => Covers s checkpoint
  | .idle | .writing _ | .checkpointing => True

structure Consistent [FloatText] [WalJson] (s : WalSystem) : Prop where
  running : s.running = true
  distinct : (s.every.map WalEntry.sequence).Nodup
  positive : ∀ e ∈ s.every, 0 < e.sequence
  bounded : ∀ e ∈ s.every, e.sequence ≤ s.wal.sequence
  verified : ∀ e ∈ s.every, e.verifyChecksum = true
  ordered : Ordered WalEntry.orderId WalEntry.sequence s.written
  ahead : ∀ e ∈ s.written, ∀ e' ∈ s.applied ++ s.taken, e.orderId = e'.orderId → e.sequence < e'.sequence
  latest : ∀ id e, s.wal.orders.get id = some e → IsLatestEntry s.known id e
  finished : ∀ id e, IsLatestEntry s.known id e → s.wal.orders.get id = none → e.state.isTerminal = true
  inMap : ∀ e ∈ s.applied, (s.wal.orders.get e.orderId).isSome
  lines : (Lines.split newline s.file).1.map WalJson.read = s.synced.map .entry
  tail : EndsUnread s.file
  checkpoint : ∀ json ∈ s.checkpoint, (WalJson.readCheckpoint json).isSome
  saved : Covers s s.saved
  writer : WriterCovers s

theorem perm_eraseIdx {α : Type} [DecidableEq α] {l : List α} {i : Nat} {a : α} (found : l[i]? = some a) :
    l.Perm (a :: l.eraseIdx i) := by
  obtain ⟨bound, rfl⟩ := List.getElem?_eq_some_iff.1 found
  exact (List.perm_cons_erase (List.getElem_mem bound)).trans ((List.erase_getElem bound).cons _)

section Steps

variable {s s' : WalSystem}

theorem Covers.move {checkpoint : Checkpoint} (covers : Covers s checkpoint)
    (below : s.wal.sequence ≤ s'.wal.sequence)
    (untaken : ∀ e ∈ s'.taken, e ∈ s.taken ∨ s.wal.sequence < e.sequence)
    (known : ∀ e, e.sequence ≤ checkpoint.sequence → (e ∈ s'.known ↔ e ∈ s.known)) : Covers s' checkpoint := by
  have members : ∀ e, e ∈ s'.known.filter (fun e => e.sequence ≤ checkpoint.sequence) ↔
      e ∈ s.known.filter (fun e => e.sequence ≤ checkpoint.sequence) := by
    intro e
    simp only [List.mem_filter, decide_eq_true_eq]
    exact ⟨fun ⟨member, small⟩ => ⟨(known e small).1 member, small⟩,
      fun ⟨member, small⟩ => ⟨(known e small).2 member, small⟩⟩
  refine ⟨covers.below.trans below, fun e member => ?_, fun id e active => ?_, fun id e latest => ?_⟩
  · rcases untaken e member with old | new
    · exact covers.untaken e old
    · exact covers.below.trans_lt new
  · obtain ⟨latest, running⟩ := covers.active id e active
    exact ⟨latest.congr fun e => (members e).symm, running⟩
  · exact covers.rest id e (latest.congr members)

theorem Covers.same {checkpoint : Checkpoint} (covers : Covers s checkpoint) (known : s'.known = s.known)
    (taken : s'.taken = s.taken) (sequence : s'.wal.sequence = s.wal.sequence) : Covers s' checkpoint :=
  covers.move sequence.ge (fun e member => .inl (taken ▸ member)) fun e _ => by rw [known]

theorem WriterCovers.move (before : WriterCovers s) (writer : s'.writer = s.writer)
    (covers : ∀ {checkpoint}, Covers s checkpoint → Covers s' checkpoint)
    (reading : s.writer.isReadingSequence = true → s.taken = [] →
      s'.taken = [] ∧ s'.wal.sequence = s.wal.sequence) : WriterCovers s' := by
  unfold WriterCovers at before ⊢
  rw [writer]
  cases at' : s.writer with
  | readingSequence activeOrders =>
      rw [at'] at before
      obtain ⟨taken, sequence⟩ := reading (by rw [at']; rfl) before.2
      rw [sequence]
      exact ⟨covers before.1, taken⟩
  | replacing checkpoint =>
      rw [at'] at before
      exact covers before
  | idle | writing | checkpointing => trivial

theorem WriterCovers.same (before : WriterCovers s) (writer : s'.writer = s.writer) (known : s'.known = s.known)
    (taken : s'.taken = s.taken) (sequence : s'.wal.sequence = s.wal.sequence) : WriterCovers s' :=
  before.move writer (fun covers => covers.same known taken sequence) fun _ none => ⟨taken.trans none, sequence⟩

theorem mem_active {wal : OrderWal} {id : String} {e : WalEntry} :
    (id, e) ∈ wal.active ↔ wal.orders.get id = some e ∧ e.state.isTerminal = false := by
  simp only [OrderWal.active, List.mem_filterMap, Option.bind_eq_some_iff]
  constructor
  · rintro ⟨id', -, e', get, same⟩
    split at same
    next => cases same
    next running =>
      cases same
      exact ⟨get, by simpa using running⟩
  · rintro ⟨get, running⟩
    refine ⟨id, (wal.orders.mem_keys id).2 (by rw [get]; rfl), e, get, ?_⟩
    rw [running]
    rfl

variable [FloatText] [WalJson]

section

variable (consistent : Consistent s)

include consistent

theorem Consistent.carry (running : s'.running = s.running) (written : s'.written = s.written)
    (applied : s'.applied = s.applied) (taken : s'.taken = s.taken) (orders : s'.wal.orders = s.wal.orders)
    (sequence : s'.wal.sequence = s.wal.sequence)
    (lines : (Lines.split newline s'.file).1.map WalJson.read = s'.synced.map .entry) (tail : EndsUnread s'.file)
    (checkpoint : ∀ json ∈ s'.checkpoint, (WalJson.readCheckpoint json).isSome) (saved : Covers s' s'.saved)
    (writer : WriterCovers s') : Consistent s' := by
  have known : s'.known = s.known := by rw [WalSystem.known, WalSystem.known, written, applied]
  have every : s'.every = s.every := by rw [WalSystem.every, WalSystem.every, known, taken]
  constructor
  case distinct => rw [every]; exact consistent.distinct
  case positive => rw [every]; exact consistent.positive
  case bounded => rw [every, sequence]; exact consistent.bounded
  case verified => rw [every]; exact consistent.verified
  case ordered => rw [written]; exact consistent.ordered
  case ahead => rw [written, applied, taken]; exact consistent.ahead
  case latest => rw [known, orders]; exact consistent.latest
  case finished => rw [known, orders]; exact consistent.finished
  case inMap => rw [applied, orders]; exact consistent.inMap
  case running => rw [running]; exact consistent.running
  case lines => exact lines
  case tail => exact tail
  case checkpoint => exact checkpoint
  case saved => exact saved
  case writer => exact writer

/-! ### Callers -/

theorem take_consistent {entry : Nat → WalEntry} (numbered : ∀ n, (entry n).sequence = n)
    (verified : ∀ n, (entry n).verifyChecksum = true) (free : s.writer.isReadingSequence = false) :
    Consistent (s.take entry) := by
  have new := numbered (s.wal.sequence + 1)
  have every : (s.take entry).every = s.every ++ [entry (s.wal.sequence + 1)] :=
    (List.append_assoc s.known s.taken _).symm
  have covers : ∀ {checkpoint}, Covers s checkpoint → Covers (s.take entry) checkpoint := by
    intro checkpoint covers
    refine covers.move (Nat.le_succ _) (fun e member => ?_) fun e _ => Iff.rfl
    rcases List.mem_append.1 member with old | fresh
    · exact .inl old
    · rw [List.mem_singleton.1 fresh, new]
      exact .inr (Nat.lt_succ_self _)
  constructor
  case distinct =>
    rw [every, List.map_append, List.map_singleton, new]
    refine List.nodup_append.2 ⟨consistent.distinct, by simp, fun n known m fresh same => ?_⟩
    obtain ⟨e, member, rfl⟩ := List.mem_map.1 known
    have bound := consistent.bounded e member
    rw [List.mem_singleton] at fresh
    omega
  case positive =>
    intro e member
    rw [every, List.mem_append, List.mem_singleton] at member
    rcases member with old | rfl
    · exact consistent.positive e old
    · omega
  case bounded =>
    intro e member
    rw [every, List.mem_append, List.mem_singleton] at member
    rcases member with old | rfl
    · exact (consistent.bounded e old).trans (Nat.le_succ _)
    · exact new.le
  case verified =>
    intro e member
    rw [every, List.mem_append, List.mem_singleton] at member
    rcases member with old | rfl
    · exact consistent.verified e old
    · exact verified _
  case ordered => exact consistent.ordered
  case ahead =>
    intro e earlier e' member same
    change e' ∈ s.applied ++ (s.taken ++ [entry (s.wal.sequence + 1)]) at member
    rw [← List.append_assoc, List.mem_append, List.mem_singleton] at member
    rcases member with old | rfl
    · exact consistent.ahead e earlier e' old same
    · have bound := consistent.bounded e (List.mem_append_left _ (List.mem_append_left _ earlier))
      omega
  case latest => exact consistent.latest
  case finished => exact consistent.finished
  case inMap => exact consistent.inMap
  case running => exact consistent.running
  case lines => exact consistent.lines
  case tail => exact consistent.tail
  case checkpoint => exact consistent.checkpoint
  case saved => exact covers consistent.saved
  case writer =>
    refine consistent.writer.move rfl covers fun reading => ?_
    rw [free] at reading
    cases reading

theorem apply_consistent {call : Nat} (careful : Careful s (.apply call)) : Consistent (s.act (.apply call)) := by
  unfold WalSystem.act
  dsimp only
  split
  next e found =>
    have perm := perm_eraseIdx found
    have isTaken : e ∈ s.taken := perm.mem_iff.2 (by simp)
    have bound : e.sequence ≤ s.wal.sequence := consistent.bounded e (List.mem_append_right _ isTaken)
    have numbered := careful e found
    have above : ∀ k ∈ s.known, k.orderId = e.orderId → k.sequence < e.sequence := by
      intro k member same
      rcases List.mem_append.1 member with earlier | waits
      · exact consistent.ahead k earlier e (List.mem_append_right _ isTaken) same
      · have held := consistent.inMap k waits
        obtain ⟨latest, get⟩ := Option.isSome_iff_exists.1 held
        rw [same] at get
        exact ((consistent.latest _ _ get).highest k member same).trans_lt (numbered latest get)
    generalize next : ({ s with
      wal := s.wal.applyEntry e, taken := s.taken.eraseIdx call, applied := s.applied ++ [e] } : WalSystem) = s'
    have taken : s'.taken = s.taken.eraseIdx call := by rw [← next]
    have applied : s'.applied = s.applied ++ [e] := by rw [← next]
    have orders : s'.wal.orders = s.wal.orders.insert e.orderId e := by rw [← next]; rfl
    have sequence : s'.wal.sequence = s.wal.sequence := by
      rw [← next]
      exact if_neg (not_lt.2 bound)
    have written : s'.written = s.written := by rw [← next]; rfl
    have known : s'.known = s.known ++ [e] := by
      rw [WalSystem.known, written, applied, ← List.append_assoc]
      rfl
    have members : ∀ k, k ∈ s'.known ↔ k ∈ s.known ∨ k = e := by simp [known]
    have every : s'.every.Perm s.every := by
      rw [WalSystem.every, WalSystem.every, known, taken, List.append_assoc]
      exact (perm.symm).append_left s.known
    have covers : ∀ {checkpoint}, Covers s checkpoint → Covers s' checkpoint := by
      intro checkpoint covers
      refine covers.move sequence.ge (fun k member => .inl ?_) fun k small => ?_
      · rw [taken] at member
        exact List.mem_of_mem_eraseIdx member
      · rw [members]
        refine ⟨fun known => known.resolve_right ?_, .inl⟩
        rintro rfl
        exact absurd small (not_le.2 (covers.untaken k isTaken))
    constructor
    case distinct => exact (every.map _).nodup_iff.2 consistent.distinct
    case positive => exact fun k member => consistent.positive k (every.mem_iff.1 member)
    case bounded => rw [sequence]; exact fun k member => consistent.bounded k (every.mem_iff.1 member)
    case verified => exact fun k member => consistent.verified k (every.mem_iff.1 member)
    case ordered => rw [written]; exact consistent.ordered
    case ahead =>
      rw [written]
      intro k earlier k' member same
      have waited : k' ∈ s.applied ++ s.taken := by
        rw [applied, taken, List.append_assoc] at member
        exact ((perm.symm).append_left s.applied).mem_iff.1 member
      exact consistent.ahead k earlier k' waited same
    case latest =>
      intro id k get
      rw [orders, Registry.get_insert] at get
      by_cases own : id = e.orderId
      · rw [if_pos own] at get
        obtain rfl := Option.some.inj get
        rw [own]
        exact isLatest_new above members
      · rw [if_neg own] at get
        exact (isLatest_other (fun same => own same.symm) members).2 (consistent.latest id k get)
    case finished =>
      intro id k latest missing
      rw [orders, Registry.get_insert] at missing
      by_cases own : id = e.orderId
      · rw [if_pos own] at missing
        cases missing
      · rw [if_neg own] at missing
        exact consistent.finished id k ((isLatest_other (fun same => own same.symm) members).1 latest) missing
    case inMap =>
      intro k member
      rw [orders, Registry.get_insert]
      split
      next => rfl
      next other =>
        rw [applied, List.mem_append, List.mem_singleton] at member
        rcases member with old | rfl
        · exact consistent.inMap k old
        · exact absurd rfl other
    case running => rw [← next]; exact consistent.running
    case lines => rw [← next]; exact consistent.lines
    case tail => rw [← next]; exact consistent.tail
    case checkpoint => rw [← next]; exact consistent.checkpoint
    case saved =>
      have same : s'.saved = s.saved := by rw [← next]; rfl
      rw [same]
      exact covers consistent.saved
    case writer =>
      refine consistent.writer.move (by rw [← next]) covers fun _ none => ?_
      rw [none] at isTaken
      cases isTaken
  next => exact consistent

theorem send_consistent {call : Nat} (careful : Careful s (.send call)) : Consistent (s.act (.send call)) := by
  unfold WalSystem.act
  dsimp only
  split
  next e found =>
    have perm := perm_eraseIdx found
    have isApplied : e ∈ s.applied := perm.mem_iff.2 (by simp)
    have first := careful e found
    generalize next : ({ s with
      applied := s.applied.eraseIdx call, channel := s.channel ++ [.append e] } : WalSystem) = s'
    have applied : s'.applied = s.applied.eraseIdx call := by rw [← next]
    have taken : s'.taken = s.taken := by rw [← next]
    have wal : s'.wal = s.wal := by rw [← next]
    have written : s'.written = s.written ++ [e] := by
      rw [← next]
      simp [WalSystem.written, WriteCommand.entry]
    have known : s'.known.Perm s.known := by
      rw [WalSystem.known, WalSystem.known, written, applied, List.append_assoc]
      exact perm.symm.append_left s.written
    have every : s'.every.Perm s.every := by
      rw [WalSystem.every, WalSystem.every, taken]
      exact known.append_right s.taken
    have sub : ∀ k ∈ s'.applied ++ s'.taken, k ∈ s.applied ++ s.taken := by
      intro k member
      rw [applied, taken] at member
      rcases List.mem_append.1 member with old | old
      · exact List.mem_append_left _ (List.mem_of_mem_eraseIdx old)
      · exact List.mem_append_right _ old
    have fresh : ∀ k ∈ s'.applied ++ s'.taken, k.sequence ≠ e.sequence := by
      have distinct := (every.map WalEntry.sequence).nodup_iff.2 consistent.distinct
      rw [WalSystem.every, WalSystem.known, written, List.append_assoc, List.map_append] at distinct
      intro k member same
      refine (List.nodup_append.1 distinct).2.2 e.sequence ?_ k.sequence (List.mem_map_of_mem member) same.symm
      exact List.mem_map_of_mem (by simp)
    have covers : ∀ {checkpoint}, Covers s checkpoint → Covers s' checkpoint := fun covers =>
      covers.move (by rw [wal]) (fun k member => .inl (taken ▸ member)) fun k _ => known.mem_iff
    have congr : ∀ {id k}, IsLatestEntry s'.known id k ↔ IsLatestEntry s.known id k := fun {id k} =>
      ⟨fun latest => latest.congr fun _ => known.mem_iff, fun latest => latest.congr fun _ => known.mem_iff.symm⟩
    constructor
    case distinct => exact (every.map _).nodup_iff.2 consistent.distinct
    case positive => exact fun k member => consistent.positive k (every.mem_iff.1 member)
    case bounded => rw [wal]; exact fun k member => consistent.bounded k (every.mem_iff.1 member)
    case verified => exact fun k member => consistent.verified k (every.mem_iff.1 member)
    case ordered =>
      rw [written]
      refine List.pairwise_append.2 ⟨consistent.ordered, by simp, fun k earlier k' member same => ?_⟩
      rw [List.mem_singleton] at member
      subst member
      exact consistent.ahead k earlier k' (List.mem_append_left _ isApplied) same
    case ahead =>
      intro k earlier k' member same
      rw [written, List.mem_append, List.mem_singleton] at earlier
      rcases earlier with old | rfl
      · exact consistent.ahead k old k' (sub k' member) same
      · exact lt_of_le_of_ne (first k' (sub k' member) same.symm) fun equal => fresh k' member equal.symm
    case latest => rw [wal]; exact fun id k get => congr.2 (consistent.latest id k get)
    case finished => rw [wal]; exact fun id k latest => consistent.finished id k (congr.1 latest)
    case inMap =>
      rw [wal, applied]
      exact fun k member => consistent.inMap k (List.mem_of_mem_eraseIdx member)
    case running => rw [← next]; exact consistent.running
    case lines => rw [← next]; exact consistent.lines
    case tail => rw [← next]; exact consistent.tail
    case checkpoint => rw [← next]; exact consistent.checkpoint
    case saved =>
      have same : s'.saved = s.saved := by rw [← next]; rfl
      rw [same]
      exact covers consistent.saved
    case writer =>
      exact consistent.writer.move (by rw [← next]) covers fun _ none =>
        ⟨taken.trans none, congrArg OrderWal.sequence wal⟩
  next => exact consistent

/-! ### The writer -/

theorem requestCheckpoint_consistent : Consistent (s.act .requestCheckpoint) := by
  have written : (s.act .requestCheckpoint).written = s.written := by
    simp [WalSystem.act, WalSystem.written, WriteCommand.entry]
  have known : (s.act .requestCheckpoint).known = s.known := congrArg (· ++ s.applied) written
  exact consistent.carry rfl written rfl rfl rfl rfl consistent.lines consistent.tail
      consistent.checkpoint (consistent.saved.same known rfl rfl) (consistent.writer.same rfl known rfl rfl)

theorem receive_consistent : Consistent (s.act .receive) := by
  unfold WalSystem.act
  dsimp only
  split
  next e rest idle channel =>
    have written : ({ s with writer := .writing e, channel := rest } : WalSystem).written = s.written := by
      simp [WalSystem.written, idle, channel, Writer.entry, WriteCommand.entry]
    exact consistent.carry rfl written rfl rfl rfl rfl consistent.lines consistent.tail
      consistent.checkpoint (consistent.saved.same (congrArg (· ++ s.applied) written) rfl rfl) trivial
  next rest idle channel =>
    have written : ({ s with writer := .checkpointing, channel := rest } : WalSystem).written = s.written := by
      rw [WalSystem.written, WalSystem.written, idle, channel]
      rfl
    exact consistent.carry rfl written rfl rfl rfl rfl consistent.lines consistent.tail
      consistent.checkpoint (consistent.saved.same (congrArg (· ++ s.applied) written) rfl rfl) trivial
  next => exact consistent

theorem writeLine_consistent (careful : Careful s .writeLine) : Consistent (s.act .writeLine) := by
  unfold WalSystem.act
  dsimp only
  split
  next e writing =>
    obtain ⟨clean, readsBack⟩ := careful e (by rw [writing]; rfl)
    have cut : Lines.split newline (s.file ++ WalJson.write e ++ [newline]) =
        ((Lines.split newline s.file).1 ++ [WalJson.write e], []) := by
      rw [Lines.split_append_sep, Lines.split_append _ (WalJson.oneLine e), clean]
      rfl
    have written : ({ s with
        writer := .idle
        file := s.file ++ WalJson.write e ++ [newline]
        synced := s.synced ++ [e] } : WalSystem).written = s.written := by
      simp [WalSystem.written, writing, Writer.entry]
    refine consistent.carry rfl written rfl rfl rfl rfl ?_ (.inl ?_) consistent.checkpoint
      (consistent.saved.same (congrArg (· ++ s.applied) written) rfl rfl) trivial
    · rw [cut, List.map_append, consistent.lines, List.map_append, List.map_singleton, List.map_singleton, readsBack]
    · rw [cut]
  next => exact consistent

theorem Consistent.distinct_known : (s.known.map WalEntry.sequence).Nodup := by
  have distinct := consistent.distinct
  rw [WalSystem.every, List.map_append] at distinct
  exact (List.nodup_append.1 distinct).1

theorem covers_now (untaken : s.taken = []) : Covers s ⟨s.wal.sequence, s.wal.active⟩ := by
  have all : s.known.filter (fun e => e.sequence ≤ s.wal.sequence) = s.known :=
    List.filter_eq_self.2 fun e member => decide_eq_true (consistent.bounded e (List.mem_append_left _ member))
  constructor
  case below => exact le_refl _
  case untaken => rw [untaken]; exact fun e member => nomatch member
  case active =>
    intro id e member
    obtain ⟨get, running⟩ := mem_active.1 member
    refine ⟨?_, running⟩
    rw [all]
    exact consistent.latest id e get
  case rest =>
    intro id e latest
    rw [all] at latest
    cases get : s.wal.orders.get id with
    | none => exact .inl (consistent.finished id e latest get)
    | some e' =>
        have same : e' = e := (consistent.latest id e' get).unique consistent.distinct_known latest
        rw [same] at get
        cases running : e.state.isTerminal with
        | true => exact .inl rfl
        | false => exact .inr (mem_active.2 ⟨get, running⟩)

theorem readActive_consistent (careful : Careful s .readActive) : Consistent (s.act .readActive) := by
  unfold WalSystem.act
  dsimp only
  split
  next checkpointing =>
    have untaken : s.taken = [] := careful (by rw [checkpointing]; rfl)
    have written : ({ s with writer := .readingSequence s.wal.active } : WalSystem).written = s.written := by
      simp [WalSystem.written, checkpointing, Writer.entry]
    have known := congrArg (· ++ s.applied) written
    exact consistent.carry rfl written rfl rfl rfl rfl consistent.lines consistent.tail
      consistent.checkpoint (consistent.saved.same known rfl rfl) ⟨(covers_now consistent untaken).same known rfl rfl, untaken⟩
  next => exact consistent

theorem readSequence_consistent : Consistent (s.act .readSequence) := by
  unfold WalSystem.act
  dsimp only
  split
  next activeOrders reading =>
    have read := consistent.writer
    rw [WriterCovers, reading] at read
    have written : ({ s with
        writer := .replacing ⟨s.wal.sequence, activeOrders⟩ } : WalSystem).written = s.written := by
      simp [WalSystem.written, reading, Writer.entry]
    have known := congrArg (· ++ s.applied) written
    exact consistent.carry rfl written rfl rfl rfl rfl consistent.lines consistent.tail
      consistent.checkpoint (consistent.saved.same known rfl rfl) (read.1.same known rfl rfl)
  next => exact consistent

theorem replaceFile_consistent (careful : Careful s .replaceFile) : Consistent (s.act .replaceFile) := by
  unfold WalSystem.act
  dsimp only
  split
  next checkpoint replacing =>
    have read := consistent.writer
    rw [WriterCovers, replacing] at read
    have readsBack := careful checkpoint (by rw [replacing]; rfl)
    generalize next : ({ s with
      writer := .idle
      checkpoint := some (WalJson.writeCheckpoint checkpoint)
      wal := { s.wal with lastCheckpoint := checkpoint.sequence } } : WalSystem) = s'
    have written : s'.written = s.written := by
      rw [← next]
      simp [WalSystem.written, replacing, Writer.entry]
    have applied : s'.applied = s.applied := by rw [← next]
    have known : s'.known = s.known := by rw [WalSystem.known, WalSystem.known, written, applied]
    have saved : s'.saved = checkpoint := by
      rw [← next]
      simp [WalSystem.saved, readsBack]
    refine consistent.carry (by rw [← next]) written applied (by rw [← next]) (by rw [← next]) (by rw [← next]) ?_ ?_ ?_
      ?_ ?_
    · rw [← next]
      exact consistent.lines
    · rw [← next]
      exact consistent.tail
    · rw [← next]
      rintro json ⟨⟩
      rw [readsBack]
      rfl
    · rw [saved]
      exact Covers.same read known (by rw [← next]) (by rw [← next])
    · rw [← next]
      trivial
  next => exact consistent

end

end Steps

end ExecutionHandler
