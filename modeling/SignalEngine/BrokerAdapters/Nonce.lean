import SignalEngine.BrokerAdapters.Order
import SignalEngine.Lib.Interaction

/-! # Persisted nonces

A nonce is `max(clock, last + 1)`, where `last` is read from a file; the new value
goes to a temporary file that is renamed over it before the nonce is returned.
The file system answers each operation on its own, may refuse any of them, may
keep part of a refused write, and outlives the process.
-/

open Interaction Text

namespace BrokerAdapters

def u64Max : UInt64 := 18446744073709551615

/-- `max(candidate, last + 1)`, never below 1. -/
def nextAfter (candidate : UInt64) : Option UInt64 → Except NonceError UInt64
  | some last => if last = u64Max then .error .exhausted else .ok (max candidate (last + 1))
  | none => .ok (max candidate 1)

def readDigitsU64 (cs : List Char) : Option UInt64 :=
  if cs ≠ [] ∧ allDigits cs ∧ Nat.ofDigitChars 10 cs 0 < 2 ^ 64 then
    some (UInt64.ofNat (Nat.ofDigitChars 10 cs 0))
  else none

/-- An optional plus sign, then at least one digit, in 64 bits. -/
def readU64 : List Char → Option UInt64
  | '+' :: cs => readDigitsU64 cs
  | cs => readDigitsU64 cs

def numberOf (text : List Char) : Option UInt64 := readU64 (trim text)

def nonceText (value : UInt64) : List Char := Nat.toDigits 10 value.toNat ++ ['\n']

/-! ## Paths -/

structure StorePath where
  dir : List Char
  name : List Char
  named : name ≠ [] ∧ name ≠ ['.'] ∧ name ≠ ['.', '.'] ∧ '/' ∉ name
  deriving DecidableEq

namespace StorePath

/-- The name before its last dot, or all of it when there is nothing before the dot. -/
def fileStem (name : List Char) : List Char :=
  match (name.reverse.dropWhile (· ≠ '.')).drop 1 with
  | [] => name
  | before => before.reverse

theorem mem_of_mem_fileStem {name : List Char} {c : Char} (among : c ∈ fileStem name) : c ∈ name := by
  unfold fileStem at among
  split at among
  · exact among
  · have kept := List.mem_of_mem_drop (List.mem_reverse.1 among)
    exact List.mem_reverse.1 ((List.dropWhile_sublist _).subset kept)

/-- `with_extension("tmp")`. -/
def temp (path : StorePath) : StorePath where
  dir := path.dir
  name := fileStem path.name ++ ['.', 't', 'm', 'p']
  named := by
    refine ⟨by simp, ?_, ?_, ?_⟩
    · intro same
      have lengths := congrArg List.length same
      simp at lengths
    · intro same
      have lengths := congrArg List.length same
      simp at lengths
    · intro slash
      rw [List.mem_append] at slash
      obtain inStem | inExtension := slash
      · exact path.named.2.2.2 (mem_of_mem_fileStem inStem)
      · simp at inExtension

def display (path : StorePath) : String := String.ofList (path.dir ++ '/' :: path.name)

end StorePath

/-! ## The file store -/

inductive FileFault where
  | notFound
  | other (why : String)
  deriving DecidableEq

/-- The operations that change the file system. -/
inductive FileChange where
  | create (path : StorePath)
  | writeAll (path : StorePath) (text : List Char)
  | syncAll (path : StorePath)
  | rename (source target : StorePath)
  deriving DecidableEq

inductive FileOp where
  | readToString (path : StorePath)
  | change (c : FileChange)
  /-- The lock is given back and the call returns. -/
  | ret (result : Except NonceError UInt64)
  deriving DecidableEq

abbrev FileOp.Answer : FileOp → Type
  | readToString _ => Except FileFault (List Char)
  | change _ => Except String Unit
  | ret _ => Unit

namespace FileNonceStore

abbrev FileProg := Prog FileOp FileOp.Answer

def readToString (path : StorePath) : FileProg (Except FileFault (List Char)) :=
  Prog.ask (FileOp.readToString path)
def change (c : FileChange) : FileProg (Except String Unit) := Prog.ask (FileOp.change c)
def ret (result : Except NonceError UInt64) : FileProg Unit := Prog.ask (FileOp.ret result)

def read (path : StorePath) : FileProg (Except NonceError (Option UInt64)) := do
  match ← readToString path with
  | .ok text =>
      match numberOf text with
      | some n => pure (.ok (some n))
      | none => pure (.error (.corrupt s!"{path.display} does not contain a u64"))
  | .error .notFound => pure (.ok none)
  | .error (.other why) => pure (.error (.io why))

/-- The changes one after the other, up to the first that fails. -/
def changeAll : List FileChange → FileProg (Except NonceError Unit)
  | [] => pure (.ok ())
  | c :: changes => do
      match ← change c with
      | .ok () => changeAll changes
      | .error why => pure (.error (.io why))

def write (path : StorePath) (value : UInt64) : FileProg (Except NonceError Unit) :=
  let tmp := path.temp
  changeAll [.create tmp, .writeAll tmp (nonceText value), .syncAll tmp, .rename tmp path]

def advance (path : StorePath) (candidate : UInt64) : FileProg (Except NonceError UInt64) := do
  match ← read path with
  | .error e => pure (.error e)
  | .ok last =>
      match nextAfter candidate last with
      | .error e => pure (.error e)
      | .ok n =>
          match ← write path n with
          | .error e => pure (.error e)
          | .ok () => pure (.ok n)

end FileNonceStore

/-- One call of `NonceGenerator::next` that has the lock. The lock lets one call at
    a time through, and a call that waits for it has only read its clock. -/
def nonceNext (path : StorePath) (clock : UInt64) : FileNonceStore.FileProg Unit := do
  let result ← FileNonceStore.advance path clock
  FileNonceStore.ret result

/-! ## The file system -/

/-- A returned nonce, and the number its file held at that moment. -/
structure Returned where
  nonce : UInt64
  persisted : Option UInt64
  deriving DecidableEq

structure NonceDisk where
  files : StorePath → Option (List Char)
  /-- In the order of the returns. -/
  returned : List Returned
  /-- How much of a failing write still reaches the file. -/
  room : Nat

namespace NonceDisk

def change (w : NonceDisk) : FileChange → Except String Unit → Option NonceDisk
  | .create path, .ok () => some { w with files := Function.update w.files path (some []) }
  | .writeAll path text, .ok () => some { w with files := Function.update w.files path (some text) }
  | .writeAll path text, .error _ =>
      some { w with files := Function.update w.files path (some (text.take w.room)) }
  | .rename source target, .ok () =>
      match w.files source with
      | none => none
      | some text =>
          some { w with
            files := Function.update (Function.update w.files source none) target (some text) }
  | _, _ => some w

def number (w : NonceDisk) (path : StorePath) : Option UInt64 := (w.files path).bind numberOf

/-- A file that is there is not reported missing, and is read as it is. -/
def reply (path : StorePath) (w : NonceDisk) : (op : FileOp) → op.Answer → Option NonceDisk
  | .readToString p, .ok text => if w.files p = some text then some w else none
  | .readToString p, .error .notFound => if w.files p = none then some w else none
  | .readToString _, .error (.other _) => some w
  | .change c, answer => w.change c answer
  | .ret (.ok n), () => some { w with returned := w.returned ++ [⟨n, w.number path⟩] }
  | .ret (.error _), () => some w

end NonceDisk

/-- Calls on one file, one after the other; a call that is dropped is a crash. -/
def nonceMachine (path : StorePath) : Machine FileOp FileOp.Answer NonceDisk Nat UInt64 Unit where
  reply := NonceDisk.reply path
  move w room := some { w with room }
  start clock := nonceNext path clock

/-- Every nonce is above all earlier ones, and was in the file when it was returned. -/
structure NonceDisk.Monotonic (w : NonceDisk) : Prop where
  increasing : w.returned.Pairwise fun earlier later => earlier.nonce < later.nonce
  persisted : ∀ r ∈ w.returned, r.persisted = some r.nonce

/-! ## One call -/

/-- How far a call has come, by what the file system answered. -/
inductive NonceStage where
  | begun
  | read (last : Option UInt64)
  | written (text : List Char)
  | renamed (text : List Char)

namespace NonceStage

def note (path : StorePath) (stage : NonceStage) : (op : FileOp) → op.Answer → NonceStage
  | .readToString p, .ok text => if p = path then .read (numberOf text) else stage
  | .readToString p, .error .notFound => if p = path then .read none else stage
  | .change (.writeAll p text), .ok () => if p = path.temp then .written text else stage
  | .change (.rename _ _), .ok () =>
      match stage with
      | .written text => .renamed text
      | other => other
  | .ret _, () => .begun
  | _, _ => stage

def Above (n : UInt64) (last : Option UInt64) : Prop := ∀ l ∈ last, l < n

end NonceStage

/-- What a call may do when: only a value above the one read is written, only the
    temporary file is touched, and only a renamed value is returned. -/
def nonceLaw (path : StorePath) : Law FileOp FileOp.Answer NonceStage where
  allowed stage
    | .readToString _ => True
    | .change (.create p) => p = path.temp ∧ ∃ last, stage = .read last
    | .change (.writeAll p text) => p = path.temp ∧ ∃ last n, stage = .read last ∧
        numberOf text = some n ∧ NonceStage.Above n last
    | .change (.syncAll _) => True
    | .change (.rename source target) => source = path.temp ∧ target = path ∧
        ∃ text, stage = .written text
    | .ret (.ok n) => ∃ text, stage = .renamed text ∧ numberOf text = some n
    | .ret (.error _) => True
  next stage op answer stage' := stage' = stage.note path op answer

theorem nextAfter_above {candidate n : UInt64} {last : Option UInt64}
    (next : nextAfter candidate last = .ok n) : NonceStage.Above n last := by
  intro l among
  cases among
  simp only [nextAfter] at next
  split at next
  next => cases next
  next room =>
      cases next
      have below : l.toNat + 1 < 2 ^ 64 := by
        have bound := l.toNat_lt
        have short : l.toNat ≠ 2 ^ 64 - 1 := fun full => room (UInt64.toNat_inj.1 full)
        omega
      have succ : (l + 1).toNat = l.toNat + 1 := by
        rw [UInt64.toNat_add, UInt64.toNat_one, Nat.mod_eq_of_lt below]
      change l < if candidate ≤ l + 1 then l + 1 else candidate
      simp only [UInt64.lt_iff_toNat_lt, UInt64.le_iff_toNat_le]
      split <;> omega

theorem numberOf_nonceText (n : UInt64) : numberOf (nonceText n) = some n := by
  have digits : ∀ c ∈ Nat.toDigits 10 n.toNat, c.isDigit = true :=
    fun c among => Nat.isDigit_of_mem_toDigits (by decide) (by decide) among
  have trimmed : trim (nonceText n) = Nat.toDigits 10 n.toNat := by
    apply trim_concat (by decide) Nat.toDigits_ne_nil
    · intro c first
      exact not_isWhitespace_of_isDigit (digits c (List.mem_of_mem_head? first))
    · intro c last
      exact not_isWhitespace_of_isDigit (digits c (List.mem_of_getLast? last))
  have unsigned : ∀ cs, (∀ c ∈ cs, c.isDigit = true) → readU64 cs = readDigitsU64 cs := by
    intro cs plain
    unfold readU64
    split
    next cs =>
        have plus := plain '+' (by simp)
        cases plus
    next => rfl
  unfold numberOf
  rw [trimmed, unsigned _ digits, readDigitsU64, Nat.ofDigitChars_ten_toDigits, if_pos]
  · simp
  · exact ⟨Nat.toDigits_ne_nil, List.all_eq_true.2 digits, n.toNat_lt⟩

section Call

open FileNonceStore

variable {path : StorePath} {stage : NonceStage} {last : Option UInt64} {n : UInt64}

theorem read_obeys : (read path).Obeys (nonceLaw path) stage
    fun result stage' => ∀ last, result = .ok last → stage' = .read last := by
  apply Prog.Obeys.ask trivial
  rintro answer _ rfl
  split
  next text =>
      split
      next number found =>
          rintro last ⟨⟩
          simp [NonceStage.note, found]
      next =>
          rintro last ⟨⟩
  next =>
      rintro last ⟨⟩
      simp [NonceStage.note]
  next => rintro last ⟨⟩

theorem write_obeys (above : NonceStage.Above n last) :
    (write path n).Obeys (nonceLaw path) (.read last)
      fun result stage' => result = .ok () → stage' = .renamed (nonceText n) := by
  have failed : ∀ {why : String} {stage' : NonceStage},
      (pure (.error (.io why)) : FileProg (Except NonceError Unit)).Obeys (nonceLaw path) stage'
        fun result stage' => result = .ok () → stage' = .renamed (nonceText n) := by
    rintro why stage' ⟨⟩
  refine Prog.Obeys.ask (by exact ⟨rfl, last, rfl⟩) ?_
  rintro created _ rfl
  split
  · refine Prog.Obeys.ask (by exact ⟨rfl, last, n, rfl, numberOf_nonceText n, above⟩) ?_
    rintro wrote _ rfl
    split
    · apply Prog.Obeys.ask trivial
      rintro synced _ rfl
      split
      · refine Prog.Obeys.ask (by exact ⟨rfl, rfl, nonceText n, by simp [NonceStage.note]⟩) ?_
        rintro renamed _ rfl
        split
        · intro _
          simp [NonceStage.note]
        · exact failed
      · exact failed
    · exact failed
  · exact failed

theorem nonceNext_obeys (clock : UInt64) :
    (nonceNext path clock).Obeys (nonceLaw path) stage fun _ _ => True := by
  have returns : ∀ {stage' : NonceStage} {result : Except NonceError UInt64},
      (∀ n, result = .ok n → stage' = .renamed (nonceText n)) →
        (ret result).Obeys (nonceLaw path) stage' fun _ _ => True := by
    intro stage' result renamed
    refine ⟨?_, fun _ _ _ => trivial⟩
    cases result with
    | error e => trivial
    | ok n => exact ⟨nonceText n, renamed n rfl, numberOf_nonceText n⟩
  apply Prog.Obeys.bind
  apply Prog.Obeys.mono (fun _ _ => returns)
  apply Prog.Obeys.bind
  apply read_obeys.mono
  intro result stage' noted
  split
  · rintro n ⟨⟩
  next last =>
      split
      · rintro n ⟨⟩
      next n next =>
          rw [noted last rfl]
          apply Prog.Obeys.bind
          apply (write_obeys (nextAfter_above next)).mono
          intro result' stage'' renamed
          split
          · rintro n ⟨⟩
          · rintro n ⟨⟩
            exact renamed rfl

end Call

/-! ## Every run -/

namespace NonceDisk

variable {w w' : NonceDisk} {path : StorePath} {stage : NonceStage}

/-- Every returned nonce is at most `n`, when there is such a number. -/
def Reached (w : NonceDisk) (number : Option UInt64) : Prop :=
  ∀ r ∈ w.returned, ∃ n ∈ number, r.nonce ≤ n

def Passed (w : NonceDisk) (number : Option UInt64) : Prop :=
  ∀ r ∈ w.returned, ∃ n ∈ number, r.nonce < n

/-- What the disk has to do with how far the call has come. -/
def Agrees (path : StorePath) (w : NonceDisk) : NonceStage → Prop
  | .begun => True
  | .read last => w.Reached last
  | .written text => w.files path.temp = some text ∧ w.Passed (numberOf text)
  | .renamed text => w.files path = some text ∧ w.Passed (numberOf text)

structure Sound (path : StorePath) (stage : NonceStage) (w : NonceDisk) : Prop where
  monotonic : w.Monotonic
  highWater : w.Reached (w.number path)
  agrees : w.Agrees path stage

theorem Agrees.room (agrees : w.Agrees path stage) (room : Nat) :
    ({ w with room } : NonceDisk).Agrees path stage := by
  cases stage with
  | begun => trivial
  | read last => exact agrees
  | written text => exact agrees
  | renamed text => exact agrees

theorem Passed.reached {number : Option UInt64} (passed : w.Passed number) : w.Reached number := by
  intro r among
  obtain ⟨n, found, below⟩ := passed r among
  exact ⟨n, found, UInt64.le_of_lt below⟩

theorem Reached.above {last : Option UInt64} {n : UInt64} (reached : w.Reached last)
    (above : NonceStage.Above n last) : w.Passed (some n) := by
  intro r among
  obtain ⟨l, found, below⟩ := reached r among
  exact ⟨n, rfl, UInt64.lt_of_le_of_lt below (above l found)⟩

theorem Sound.frame (sound : Sound path stage w) (returned : w'.returned = w.returned)
    (file : w'.files path = w.files path) {stage' : NonceStage} (agrees : w'.Agrees path stage') :
    Sound path stage' w' := by
  have monotonic := sound.monotonic
  have highWater := sound.highWater
  refine ⟨⟨?_, ?_⟩, ?_, agrees⟩
  · rw [returned]
    exact monotonic.increasing
  · rw [returned]
    exact monotonic.persisted
  · unfold Reached number
    rw [returned, file]
    exact highWater

theorem Sound.change (sound : Sound path stage w) (apart : path.temp ≠ path) {c : FileChange}
    {answer : Except String Unit} (allowed : (nonceLaw path).allowed stage (.change c))
    (changed : w.change c answer = some w') :
    Sound path (stage.note path (.change c) answer) w' := by
  cases c with
  | create p =>
      obtain ⟨rfl, last, rfl⟩ := allowed
      cases answer with
      | ok _ =>
          cases changed
          apply sound.frame
          · rfl
          · exact Function.update_of_ne apart.symm ..
          · exact sound.agrees
      | error why =>
          cases changed
          exact sound
  | writeAll p text =>
      obtain ⟨rfl, last, n, rfl, number, above⟩ := allowed
      cases answer with
      | ok _ =>
          cases changed
          apply sound.frame
          · rfl
          · exact Function.update_of_ne apart.symm ..
          · simp only [NonceStage.note, if_true, Agrees, Function.update_self, true_and, number]
            exact Reached.above sound.agrees above
      | error why =>
          cases changed
          apply sound.frame
          · rfl
          · exact Function.update_of_ne apart.symm ..
          · exact sound.agrees
  | syncAll p =>
      cases answer with
      | ok _ =>
          cases changed
          exact sound
      | error why =>
          cases changed
          exact sound
  | rename source target =>
      obtain ⟨rfl, rfl, text, rfl⟩ := allowed
      obtain ⟨held, passed⟩ := sound.agrees
      cases answer with
      | ok _ =>
          simp only [NonceDisk.change, held, Option.some.injEq] at changed
          subst changed
          refine ⟨⟨sound.monotonic.increasing, sound.monotonic.persisted⟩, ?_, ?_, passed⟩
          · simp only [NonceDisk.number, Function.update_self, Option.bind_some]
            exact passed.reached
          · exact Function.update_self ..
      | error why =>
          cases changed
          exact sound

theorem Sound.read (sound : Sound path stage w) (p : StorePath) {answer : Except FileFault (List Char)}
    (replied : w.reply path (.readToString p) answer = some w') :
    Sound path (stage.note path (.readToString p) answer) w' := by
  have seen : ∀ last, (p = path → w.number path = last) →
      Sound path (if p = path then .read last else stage) w := by
    intro last number
    split
    next same =>
        refine sound.frame rfl rfl ?_
        rw [← number same]
        exact sound.highWater
    next => exact sound
  unfold NonceDisk.reply at replied
  cases answer with
  | ok text =>
      dsimp only at replied
      split at replied
      next held =>
          cases replied
          apply seen
          rintro rfl
          simp [number, held]
      next => cases replied
  | error fault =>
      cases fault with
      | notFound =>
          dsimp only at replied
          split at replied
          next missing =>
              cases replied
              apply seen
              rintro rfl
              simp [number, missing]
          next => cases replied
      | other why =>
          cases replied
          exact sound

theorem Sound.ret (sound : Sound path stage w) {n : UInt64}
    (allowed : (nonceLaw path).allowed stage (.ret (.ok n))) :
    Sound path .begun { w with returned := w.returned ++ [⟨n, w.number path⟩] } := by
  obtain ⟨text, rfl, number⟩ := allowed
  obtain ⟨held, passed⟩ := sound.agrees
  have inFile : w.number path = some n := by
    rw [NonceDisk.number, held]
    exact number
  have below : ∀ r ∈ w.returned, r.nonce < n := by
    intro r among
    obtain ⟨m, found, less⟩ := passed r among
    rw [number] at found
    cases found
    exact less
  refine ⟨⟨?_, ?_⟩, ?_, trivial⟩
  · rw [List.pairwise_append]
    exact ⟨sound.monotonic.increasing, by simp, by simpa using below⟩
  · intro r among
    obtain before | rfl := List.mem_append.1 among |>.imp_right List.mem_singleton.1
    · exact sound.monotonic.persisted r before
    · exact inFile
  · intro r among
    refine ⟨n, inFile, ?_⟩
    obtain before | rfl := List.mem_append.1 among |>.imp_right List.mem_singleton.1
    · exact UInt64.le_of_lt (below r before)
    · exact UInt64.le_refl n

theorem Sound.reply (sound : Sound path stage w) (apart : path.temp ≠ path) {op : FileOp}
    {answer : op.Answer} (allowed : (nonceLaw path).allowed stage op)
    (replied : w.reply path op answer = some w') : Sound path (stage.note path op answer) w' := by
  cases op with
  | readToString p => exact sound.read p replied
  | change c => exact sound.change apart allowed replied
  | ret result =>
      cases result with
      | ok n =>
          cases replied
          exact sound.ret allowed
      | error e =>
          cases replied
          exact sound.frame rfl rfl trivial

end NonceDisk

section Runs

variable {path : StorePath}

theorem nonce_invariant (apart : path.temp ≠ path) :
    (nonceMachine path).Invariant (nonceLaw path) (fun _ _ => True) (NonceDisk.Sound path) where
  move sound _ moved := by
    cases moved
    apply sound.frame
    · rfl
    · rfl
    · exact sound.agrees.room _
  reply sound allowed _ replied := ⟨_, rfl, sound.reply apart allowed replied⟩
  restart sound _ := ⟨.begun, nonceNext_obeys _, sound.frame rfl rfl trivial⟩

theorem monotonic_of_apart (apart : path.temp ≠ path) {clock : UInt64} {w : NonceDisk}
    {events : List (Event FileOp FileOp.Answer Nat UInt64)}
    {final : Config FileOp FileOp.Answer NonceDisk Unit} (fresh : w.returned = [])
    (ran : (nonceMachine path).run ⟨nonceNext path clock, w⟩ events = some final) :
    final.world.Monotonic := by
  have start : w.Monotonic := ⟨by simp [fresh], by simp [fresh]⟩
  have lawful : Machine.Lawful (nonceLaw path) (NonceDisk.Sound path)
      (⟨nonceNext path clock, w⟩ : Config FileOp FileOp.Answer NonceDisk Unit) :=
    ⟨.begun, nonceNext_obeys clock, start, by simp [NonceDisk.Reached, fresh], trivial⟩
  obtain ⟨⟨stage, -, sound⟩, -⟩ := (nonce_invariant apart).run (R := fun _ _ => True)
    (fun _ => trivial) (fun _ _ => trivial) (fun _ _ _ => trivial) lawful (Machine.guarded_true _ _) ran
  exact sound.monotonic

/-- A full call, a call that writes one digit and fails, and a call after a restart. -/
def truncatedRun (path : StorePath) : List (Event FileOp FileOp.Answer Nat UInt64) :=
  [.reply (.readToString path) (.error .notFound), .reply (.change (.create path)) (.ok ()),
    .reply (.change (.writeAll path (nonceText 12))) (.ok ()), .reply (.change (.syncAll path)) (.ok ()),
    .reply (.change (.rename path path)) (.ok ()), .reply (.ret (.ok 12)) (),
    .restart 0, .reply (.readToString path) (.ok (nonceText 12)),
    .reply (.change (.create path)) (.ok ()), .move 1,
    .reply (.change (.writeAll path (nonceText 13))) (.error "no space left on device"),
    .restart 0, .reply (.readToString path) (.ok ['1']), .reply (.change (.create path)) (.ok ()),
    .reply (.change (.writeAll path (nonceText 2))) (.ok ()), .reply (.change (.syncAll path)) (.ok ()),
    .reply (.change (.rename path path)) (.ok ()), .reply (.ret (.ok 2)) ()]

theorem truncatedRun_reuses (same : path.temp = path) :
    ((nonceMachine path).run ⟨nonceNext path 12, ⟨fun _ => none, [], 0⟩⟩ (truncatedRun path)).map
      (fun c => c.world.returned) = some [⟨12, some 12⟩, ⟨2, some 2⟩] := by
  have first : nextAfter 12 none = .ok 12 := by decide
  have second : nextAfter 0 (some 12) = .ok 13 := by decide
  have third : nextAfter 0 (some 1) = .ok 2 := by decide
  have digit : numberOf ['1'] = some 1 := by decide
  have kept : (nonceText 13).take 1 = ['1'] := by decide
  simp only [nonceMachine, nonceNext, FileNonceStore.advance, FileNonceStore.write,
    FileNonceStore.changeAll]
  generalize path.temp = tmp at same ⊢
  subst same
  simp [truncatedRun, Machine.run_reply, Machine.run_move, Machine.run_restart, Machine.run_nil,
    FileNonceStore.read, FileNonceStore.readToString, FileNonceStore.change, FileNonceStore.ret,
    Prog.ask, bind, Prog.bind, pure, NonceDisk.reply, NonceDisk.change, NonceDisk.number,
    numberOf_nonceText, first, second, third, digit, kept]

theorem not_monotonic_of_reuse {returned : List Returned} {first second : Returned}
    (reused : returned = [first, second]) (below : second.nonce ≤ first.nonce)
    {w : NonceDisk} (left : w.returned = returned) : ¬ w.Monotonic := by
  intro monotonic
  have increasing := monotonic.increasing
  rw [left, reused, List.pairwise_pair] at increasing
  exact absurd below (UInt64.not_le.2 increasing)

/-- Whatever the clock says, wherever an operation fails and wherever the process
    stops, the nonces of a file increase and are persisted before they are
    returned, exactly when the file is not its own temporary file. -/
theorem nonces_increase_iff (path : StorePath) :
    (∀ (clock : UInt64) (w : NonceDisk) (events : List (Event FileOp FileOp.Answer Nat UInt64))
      (final : Config FileOp FileOp.Answer NonceDisk Unit), w.returned = [] →
      (nonceMachine path).run ⟨nonceNext path clock, w⟩ events = some final →
        final.world.Monotonic) ↔ path.temp ≠ path := by
  constructor
  · intro always same
    obtain ⟨final, ran, left⟩ := Option.map_eq_some_iff.1 (truncatedRun_reuses same)
    have monotonic := always 12 _ _ final rfl ran
    exact not_monotonic_of_reuse rfl (by decide) left monotonic
  · intro apart clock w events final fresh ran
    exact monotonic_of_apart apart fresh ran

end Runs

/-- A nonce file that is called like a temporary file. -/
theorem tmp_file_reuses_nonces :
    ∃ (path : StorePath) (events : List (Event FileOp FileOp.Answer Nat UInt64))
      (final : Config FileOp FileOp.Answer NonceDisk Unit),
      path.name = "nonce.tmp".toList ∧
        (nonceMachine path).run ⟨nonceNext path 12, ⟨fun _ => none, [], 0⟩⟩ events = some final ∧
        final.world.returned.map Returned.nonce = [12, 2] := by
  obtain ⟨final, ran, left⟩ := Option.map_eq_some_iff.1
    (@truncatedRun_reuses ⟨"keys".toList, "nonce.tmp".toList, by decide⟩ (by decide))
  exact ⟨_, _, final, rfl, ran, by rw [left]; rfl⟩

end BrokerAdapters
