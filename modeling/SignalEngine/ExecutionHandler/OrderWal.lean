import SignalEngine.Lib.FloatLike
import SignalEngine.Lib.Lines
import SignalEngine.Lib.Registry
import SignalEngine.Lib.Runs

/-! # The order write-ahead log

Callers that log order events, the writer that puts them into the file, checkpoints,
and recovery after a crash, as the steps of one system. The file is its bytes; what the
JSON reader makes of a line is left open. Sequence numbers are taken as unbounded.
-/

namespace ExecutionHandler

inductive WalOrderState where
  | pending
  | submitted
  | acknowledged
  | partiallyFilled
  | filled
  | cancelled
  | rejected
  | expired
  | failed
  deriving DecidableEq

def WalOrderState.isTerminal : WalOrderState → Bool
  | filled | cancelled | rejected | expired | failed => true
  | pending | submitted | acknowledged | partiallyFilled => false

structure WalEntry where
  sequence : Nat
  /-- Unix nanoseconds. -/
  timestampNs : Nat
  orderId : String
  state : WalOrderState
  exchange : String
  symbol : String
  side : String
  quantity : FloatArg
  price : Option FloatArg
  exchangeOrderId : Option String
  /-- Cumulative. -/
  filledQuantity : FloatArg
  avgFillPrice : Option FloatArg
  error : Option String
  strategyId : String
  checksum : Nat
  deriving DecidableEq

def WalOrderState.debug : WalOrderState → String
  | pending => "Pending"
  | submitted => "Submitted"
  | acknowledged => "Acknowledged"
  | partiallyFilled => "PartiallyFilled"
  | filled => "Filled"
  | cancelled => "Cancelled"
  | rejected => "Rejected"
  | expired => "Expired"
  | failed => "Failed"

/-- How a float is shown, by `{}` and by `{:?}`. -/
class FloatText where
  display : FloatArg → String
  debug : FloatArg → String

/-- CRC-32, bit by bit from the low end. -/
def crc32 (data : List UInt8) : Nat :=
  let bit (crc : Nat) : Nat := if crc % 2 = 1 then crc / 2 ^^^ 0xEDB88320 else crc / 2
  data.foldl (fun crc byte => Nat.repeat bit 8 (crc ^^^ byte.toNat)) 0xFFFFFFFF ^^^ 0xFFFFFFFF

/-- What an order is told. -/
inductive OrderUpdate where
  | submitted
  | acknowledged (exchangeOrderId : String)
  | partialFill (filledQty avgPrice : FloatArg)
  | filled (filledQty avgPrice : FloatArg)
  | cancelled
  | rejected (reason : String)
  | failed (error : String)
  deriving DecidableEq

namespace OrderUpdate

def newState : OrderUpdate → WalOrderState
  | submitted => .submitted
  | acknowledged _ => .acknowledged
  | partialFill .. => .partiallyFilled
  | filled .. => .filled
  | cancelled => .cancelled
  | rejected _ => .rejected
  | failed _ => .failed

def modifier (entry : WalEntry) : OrderUpdate → WalEntry
  | acknowledged exchangeOrderId => { entry with exchangeOrderId := some exchangeOrderId }
  | partialFill filledQty avgPrice | filled filledQty avgPrice =>
      { entry with filledQuantity := filledQty, avgFillPrice := some avgPrice }
  | rejected text | failed text => { entry with error := some text }
  | submitted | cancelled => entry

@[simp] theorem modifier_sequence (e : WalEntry) (update : OrderUpdate) :
    (update.modifier e).sequence = e.sequence := by
  cases update <;> rfl

@[simp] theorem modifier_orderId (e : WalEntry) (update : OrderUpdate) : (update.modifier e).orderId = e.orderId := by
  cases update <;> rfl

end OrderUpdate

structure PendingOrder where
  orderId : String
  exchange : String
  symbol : String
  side : String
  quantity : FloatArg
  price : Option FloatArg
  strategyId : String
  deriving DecidableEq

namespace WalEntry

section Checksums

variable [FloatText]

def calculateChecksum (e : WalEntry) : Nat :=
  let price :=
    match e.price with
    | some price => s!"Some({FloatText.debug price})"
    | none => "None"
  let order := s!"{e.sequence}:{e.orderId}:{e.timestampNs}:{e.state.debug}:{e.exchange}:{e.symbol}"
  let data := s!"{order}:{FloatText.display e.quantity}:{FloatText.display e.filledQuantity}:{price}"
  crc32 data.toUTF8.toList

def sealed (e : WalEntry) : WalEntry := { e with checksum := e.calculateChecksum }

def verifyChecksum (e : WalEntry) : Bool := e.checksum == e.calculateChecksum

@[simp] theorem sealed_verifies (e : WalEntry) : e.sealed.verifyChecksum = true := by
  simp [sealed, verifyChecksum, calculateChecksum]

@[simp] theorem sealed_sequence (e : WalEntry) : e.sealed.sequence = e.sequence := rfl

@[simp] theorem sealed_orderId (e : WalEntry) : e.sealed.orderId = e.orderId := rfl

def new (sequence now : Nat) (order : PendingOrder) : WalEntry :=
  sealed {
    sequence := sequence
    timestampNs := now
    orderId := order.orderId
    state := .pending
    exchange := order.exchange
    symbol := order.symbol
    side := order.side
    quantity := order.quantity
    price := order.price
    exchangeOrderId := none
    filledQuantity := .finite 0
    avgFillPrice := none
    error := none
    strategyId := order.strategyId
    checksum := 0 }

/-- The entry of an update, made from the order's latest entry. -/
def transition (e : WalEntry) (update : OrderUpdate) (sequence now : Nat) : WalEntry :=
  sealed (update.modifier { e with sequence := sequence, state := update.newState, timestampNs := now })

end Checksums

end WalEntry

/-! ## Disk -/

structure Checkpoint where
  sequence : Nat
  activeOrders : List (String × WalEntry)
  deriving DecidableEq

inductive LineText where
  /-- Not UTF-8. -/
  | invalid
  /-- Not an entry. -/
  | other
  | entry (e : WalEntry)
  deriving DecidableEq

def newline : UInt8 := 10

/-- The JSON writer and reader. Not all floats read back: there is no text of a NaN or an
    infinity, and the last digit of some others changes. -/
class WalJson where
  write : WalEntry → List UInt8
  read : List UInt8 → LineText
  writeCheckpoint : Checkpoint → List UInt8
  readCheckpoint : List UInt8 → Option Checkpoint
  /-- Line breaks are escaped. -/
  oneLine : ∀ e, newline ∉ write e
  nothing : read [] = .other

/-! ## Memory -/

structure OrderWal where
  /-- The latest entry of each order. -/
  orders : Registry String WalEntry
  sequence : Nat
  lastCheckpoint : Nat

namespace OrderWal

def empty : OrderWal := ⟨.empty, 0, 0⟩

def applyEntry (wal : OrderWal) (entry : WalEntry) : OrderWal :=
  { wal with
    sequence := if wal.sequence < entry.sequence then entry.sequence else wal.sequence
    orders := wal.orders.insert entry.orderId entry }

/-- The orders whose latest entry is not terminal. -/
def active (wal : OrderWal) : List (String × WalEntry) :=
  wal.orders.keys.filterMap fun id =>
    (wal.orders.get id).bind fun e => if e.state.isTerminal then none else some (id, e)

def getIncompleteOrders (wal : OrderWal) : List WalEntry := wal.active.map Prod.snd

def loadCheckpoint (checkpoint : Checkpoint) : OrderWal where
  orders := checkpoint.activeOrders.foldl (fun orders (id, e) => orders.insert id e) .empty
  sequence := checkpoint.sequence
  lastCheckpoint := checkpoint.sequence

section Recovery

variable [FloatText]

/-- Skipped when the checkpoint covers it or its checksum is wrong. -/
def replayEntry (checkpointSeq : Nat) (wal : OrderWal) (entry : WalEntry) : OrderWal :=
  if entry.sequence ≤ checkpointSeq then wal
  else if !entry.verifyChecksum then wal
  else wal.applyEntry entry

variable [WalJson]

/-- One line of the file; one that is not UTF-8 ends the recovery with an error. -/
def replayLine (checkpointSeq : Nat) (wal : OrderWal) (line : List UInt8) : Option OrderWal :=
  if line = [] then some wal
  else
    match WalJson.read line with
    | .invalid => none
    | .other => some wal
    | .entry entry => some (replayEntry checkpointSeq wal entry)

/-- None when it fails: then there is no log. -/
def recover (checkpoint : Option (List UInt8)) (file : List UInt8) : Option OrderWal := do
  let wal ←
    match checkpoint with
    | some json => (WalJson.readCheckpoint json).map loadCheckpoint
    | none => some empty
  (Lines.all newline file).foldlM (replayLine wal.lastCheckpoint) wal

end Recovery

end OrderWal

/-! ## The system -/

inductive WriteCommand where
  | append (e : WalEntry)
  | checkpoint
  deriving DecidableEq

def WriteCommand.entry : WriteCommand → Option WalEntry
  | append e => some e
  | checkpoint => none

inductive Writer where
  | idle
  | writing (e : WalEntry)
  | checkpointing
  | readingSequence (activeOrders : List (String × WalEntry))
  | replacing (checkpoint : Checkpoint)

def Writer.entry : Writer → Option WalEntry
  | writing e => some e
  | _ => none

def Writer.replacement : Writer → Option Checkpoint
  | replacing checkpoint => some checkpoint
  | _ => none

structure WalSystem where
  /-- Whether the last start went well. -/
  running : Bool
  wal : OrderWal
  /-- Calls that took a number and made their entry. -/
  taken : List WalEntry
  /-- Calls that put their entry into the order map. -/
  applied : List WalEntry
  channel : List WriteCommand
  writer : Writer
  file : List UInt8
  checkpoint : Option (List UInt8)
  /-- All entries whose line was synced, since the first start. -/
  synced : List WalEntry

inductive WalEvent where
  | logPending (order : PendingOrder) (now : Nat)
  | logUpdate (orderId : String) (update : OrderUpdate) (now : Nat)
  | apply (call : Nat)
  | send (call : Nat)
  | requestCheckpoint
  | receive
  | writeLine
  | readActive
  | readSequence
  | replaceFile
  /-- A crash, which leaves some bytes of the line that is being written, and the start
      after it. -/
  | crash (kept : Nat)

def WalEvent.isCrash : WalEvent → Bool
  | crash _ => true
  | _ => false

namespace WalSystem

def start : WalSystem := ⟨true, .empty, [], [], [], .idle, [], none, []⟩

/-- `next_sequence`, with the entry that gets the number. -/
def take (s : WalSystem) (entry : (sequence : Nat) → WalEntry) : WalSystem :=
  { s with
    wal := { s.wal with sequence := s.wal.sequence + 1 }
    taken := s.taken ++ [entry (s.wal.sequence + 1)] }

variable [FloatText] [WalJson]

def tornFile (s : WalSystem) (kept : Nat) : List UInt8 :=
  match s.writer with
  | .writing e => s.file ++ (WalJson.write e).take kept
  | _ => s.file

/-- What an event does; one that cannot come now changes nothing. -/
def act (s : WalSystem) : WalEvent → WalSystem
  | .logPending order now => s.take fun sequence => .new sequence now order
  | .logUpdate orderId update now =>
      match s.wal.orders.get orderId with
      | some latest => s.take fun sequence => latest.transition update sequence now
      | none => s
  | .apply call =>
      match s.taken[call]? with
      | some e =>
          { s with wal := s.wal.applyEntry e, taken := s.taken.eraseIdx call, applied := s.applied ++ [e] }
      | none => s
  | .send call =>
      match s.applied[call]? with
      | some e => { s with applied := s.applied.eraseIdx call, channel := s.channel ++ [.append e] }
      | none => s
  | .requestCheckpoint => { s with channel := s.channel ++ [.checkpoint] }
  | .receive =>
      match s.writer, s.channel with
      | .idle, .append e :: rest => { s with writer := .writing e, channel := rest }
      | .idle, .checkpoint :: rest => { s with writer := .checkpointing, channel := rest }
      | _, _ => s
  | .writeLine =>
      match s.writer with
      | .writing e =>
          { s with writer := .idle, file := s.file ++ WalJson.write e ++ [newline], synced := s.synced ++ [e] }
      | _ => s
  | .readActive =>
      match s.writer with
      | .checkpointing => { s with writer := .readingSequence s.wal.active }
      | _ => s
  | .readSequence =>
      match s.writer with
      | .readingSequence activeOrders => { s with writer := .replacing ⟨s.wal.sequence, activeOrders⟩ }
      | _ => s
  | .replaceFile =>
      match s.writer with
      | .replacing checkpoint =>
          { s with
            writer := .idle
            checkpoint := some (WalJson.writeCheckpoint checkpoint)
            wal := { s.wal with lastCheckpoint := checkpoint.sequence } }
      | _ => s
  | .crash kept =>
      let recovered := OrderWal.recover s.checkpoint (s.tornFile kept)
      { start with
        running := recovered.isSome
        wal := recovered.getD .empty
        file := s.tornFile kept
        checkpoint := s.checkpoint
        synced := s.synced }

/-- After a failed start there is only another one. -/
def step (s : WalSystem) (event : WalEvent) : WalSystem := if s.running || event.isCrash then s.act event else s

end WalSystem

end ExecutionHandler
