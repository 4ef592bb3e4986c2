import SignalEngine.Lib.Registry
import Mathlib.Algebra.Order.Ring.Rat
import Mathlib.Data.List.Sort

/-! # Order book reconciliation

A local book per symbol: snapshots replace it, deltas are applied in sequence, and
deltas that come early wait in a buffer. Prices and quantities are exact, times
are milliseconds, and the checksum of a book is a parameter.
-/

namespace ExecutionHandler

structure ReconciliationConfig where
  snapshotIntervalMs : Nat
  maxSequenceGap : Nat
  checksumEnabled : Bool
  maxBufferedUpdates : Nat
  gapTimeoutMs : Nat
  autoSnapshotOnMismatch : Bool
  deriving DecidableEq

def ReconciliationConfig.default : ReconciliationConfig := ⟨60000, 10, true, 1000, 5000, true⟩

inductive UpdateType where
  | snapshot
  | delta
  | trade
  deriving DecidableEq

abbrev PriceLevel := ℚ × ℚ

structure OrderbookUpdate where
  symbol : String
  exchange : String
  updateType : UpdateType
  /-- A 64-bit number. -/
  sequence : Nat
  bids : List PriceLevel
  asks : List PriceLevel
  checksum : Option Nat
  deriving DecidableEq

inductive SnapshotReason where
  | initial
  | largeGap
  | gapTimeout
  | checksumMismatch
  | periodicRefresh
  deriving DecidableEq

inductive ReconciliationResult where
  | applied (sequence : Nat)
  | snapshotRequired (reason : SnapshotReason) (localSequence updateSequence : Nat)
  | recovered (updatesApplied gapStart gapEnd : Nat)
  | skipped (reason : String)
  | checksumMismatch (expected actual sequence : Nat)
  deriving DecidableEq

/-! ## The local book -/

structure LocalBook where
  bids : Registry ℚ ℚ
  asks : Registry ℚ ℚ
  sequence : Nat

/-- The checksum an exchange gives a book. -/
class BookChecksum where
  calculate : LocalBook → (exchange : String) → Nat

def snapshotSide (levels : List PriceLevel) : Registry ℚ ℚ :=
  levels.foldl (fun side level => if 0 < level.2 then side.insert level.1 level.2 else side) .empty

def deltaSide (side : Registry ℚ ℚ) (levels : List PriceLevel) : Registry ℚ ℚ :=
  levels.foldl (fun side level => if level.2 ≤ 0 then side.erase level.1 else side.insert level.1 level.2) side

namespace LocalBook

def new : LocalBook := ⟨.empty, .empty, 0⟩

def ofSnapshot (sequence : Nat) (bids asks : List PriceLevel) : LocalBook :=
  ⟨snapshotSide bids, snapshotSide asks, sequence⟩

def applyLevels (book : LocalBook) (sequence : Nat) (bids asks : List PriceLevel) : LocalBook :=
  ⟨deltaSide book.bids bids, deltaSide book.asks asks, sequence⟩

end LocalBook

/-! ## One symbol -/

structure SymbolState where
  currentSequence : Nat
  isValid : Bool
  lastSnapshot : Nat
  lastUpdate : Nat
  bufferedUpdates : List OrderbookUpdate
  /-- The sequence that is missing, and when that was noticed. -/
  gapDetectedAt : Option (Nat × Nat)
  localBook : LocalBook

def nextSequence (n : Nat) : Nat := (n + 1) % 2 ^ 64

def previousSequence (n : Nat) : Nat := (n + (2 ^ 64 - 1)) % 2 ^ 64

namespace SymbolState

def new (now : Nat) : SymbolState := ⟨0, false, now, now, [], none, .new⟩

def expected (st : SymbolState) : Nat := nextSequence st.currentSequence

section Snapshots

variable [BookChecksum] (config : ReconciliationConfig)

/-- The update's checksum, where it is checked and differs: expected and actual. -/
def badChecksum (st : SymbolState) (update : OrderbookUpdate) : Option (Nat × Nat) :=
  if config.checksumEnabled then
    update.checksum.bind fun checksum =>
      let actual := BookChecksum.calculate st.localBook update.exchange
      if actual != checksum then some (checksum, actual) else none
  else none

def applySnapshot (st : SymbolState) (update : OrderbookUpdate) (now : Nat) : ReconciliationResult × SymbolState :=
  let st : SymbolState := {
    localBook := .ofSnapshot update.sequence update.bids update.asks
    currentSequence := update.sequence
    isValid := true
    lastSnapshot := now
    lastUpdate := now
    bufferedUpdates := st.bufferedUpdates.filter fun u => update.sequence < u.sequence
    gapDetectedAt := none }
  match st.badChecksum config update with
  | some (expected, actual) => (.checksumMismatch expected actual update.sequence, st)
  | none => (.applied update.sequence, st)

end Snapshots

/-! ### Deltas -/

def applyDelta (st : SymbolState) (update : OrderbookUpdate) (now : Nat) : SymbolState :=
  { st with
    localBook := st.localBook.applyLevels update.sequence update.bids update.asks
    currentSequence := update.sequence
    lastUpdate := now }

/-- The updates that follow on from `next`, those that come later, and the sequence after. -/
def takeRun (next : Nat) : List OrderbookUpdate → List OrderbookUpdate × List OrderbookUpdate × Nat
  | [] => ([], [], next)
  | u :: rest =>
      if u.sequence = next then
        let (toApply, remaining, after) := takeRun (nextSequence next) rest
        (u :: toApply, remaining, after)
      else
        let (toApply, remaining, after) := takeRun next rest
        if next < u.sequence then (toApply, u :: remaining, after) else (toApply, remaining, after)

/-- The buffer in order; what follows on from the book is applied. -/
def tryRecoverFromBuffer (st : SymbolState) (now : Nat) : Option ReconciliationResult × SymbolState :=
  let (toApply, remaining, next) :=
    takeRun st.expected (st.bufferedUpdates.insertionSort fun u v => u.sequence ≤ v.sequence)
  let buffered := { st with bufferedUpdates := remaining }
  if toApply.isEmpty then (none, buffered)
  else
    (some (.recovered toApply.length st.expected (previousSequence next)),
      toApply.foldl (fun st u => st.applyDelta u now) buffered)

/-- Apply buffered updates as long as the next one is there, `fuel` of them at most. -/
def drainBuffer (st : SymbolState) (now : Nat) : (fuel : Nat) → SymbolState
  | 0 => st
  | fuel + 1 =>
      match st.bufferedUpdates.find? (·.sequence == st.expected) with
      | none => st
      | some u =>
          let rest := st.bufferedUpdates.eraseP (·.sequence == st.expected)
          ({ st with bufferedUpdates := rest }.applyDelta u now).drainBuffer now fuel

def processBufferedUpdates (st : SymbolState) (now : Nat) : SymbolState :=
  st.drainBuffer now st.bufferedUpdates.length

/-- An early update waits in the buffer; the front of a full buffer is dropped. -/
def buffer (config : ReconciliationConfig) (st : SymbolState) (update : OrderbookUpdate) : List OrderbookUpdate :=
  if st.bufferedUpdates.any (·.sequence == update.sequence) then st.bufferedUpdates
  else
    let longer := st.bufferedUpdates ++ [update]
    longer.drop (longer.length - config.maxBufferedUpdates)

variable [BookChecksum] (config : ReconciliationConfig)

def processDelta (st : SymbolState) (update : OrderbookUpdate) (now : Nat) : ReconciliationResult × SymbolState :=
  let expected := st.expected
  if update.sequence < expected then
    (.skipped s!"Old sequence: {update.sequence} < expected {expected}", st)
  else if expected < update.sequence then
    if config.maxSequenceGap < update.sequence - expected then
      (.snapshotRequired .largeGap st.currentSequence update.sequence, st)
    else
      let (missing, detectedAt) := st.gapDetectedAt.getD (expected, now)
      let waiting := { st with
        bufferedUpdates := st.buffer config update
        gapDetectedAt := some (missing, detectedAt) }
      if config.gapTimeoutMs < now - detectedAt then
        (.snapshotRequired .gapTimeout st.currentSequence update.sequence, waiting)
      else
        match waiting.tryRecoverFromBuffer now with
        | (some result, st) => (result, st)
        | (none, st) => (.skipped s!"Buffered: waiting for sequence {expected}", st)
  else
    let st := { st.applyDelta update now with gapDetectedAt := none }
    match st.badChecksum config update with
    | some (expected, actual) =>
        if config.autoSnapshotOnMismatch then
          (.snapshotRequired .checksumMismatch update.sequence update.sequence, st)
        else (.checksumMismatch expected actual update.sequence, st)
    | none => (.applied update.sequence, st.processBufferedUpdates now)

def processUpdate (st : SymbolState) (update : OrderbookUpdate) (now : Nat) : ReconciliationResult × SymbolState :=
  match update.updateType with
  | .snapshot => st.applySnapshot config update now
  | .delta | .trade =>
      if !st.isValid then (.snapshotRequired .initial st.currentSequence update.sequence, st)
      else if config.snapshotIntervalMs < now - st.lastSnapshot then
        (.snapshotRequired .periodicRefresh st.currentSequence update.sequence, st)
      else st.processDelta config update now

end SymbolState

/-! ## The reconciler -/

structure OrderbookReconciler where
  config : ReconciliationConfig
  states : Registry String SymbolState

def makeKey (symbol exchange : String) : String := s!"{exchange}:{symbol}"

namespace OrderbookReconciler

def new (config : ReconciliationConfig) : OrderbookReconciler := ⟨config, .empty⟩

def state (r : OrderbookReconciler) (symbol exchange : String) : Option SymbolState :=
  r.states.get (makeKey symbol exchange)

def processUpdate [BookChecksum] (r : OrderbookReconciler) (update : OrderbookUpdate) (now : Nat) :
    ReconciliationResult × OrderbookReconciler :=
  let key := makeKey update.symbol update.exchange
  let (result, st) := ((r.states.get key).getD (.new now)).processUpdate r.config update now
  (result, { r with states := r.states.insert key st })

end OrderbookReconciler

end ExecutionHandler
