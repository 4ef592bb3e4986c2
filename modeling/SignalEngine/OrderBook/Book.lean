import SignalEngine.Lib.FloatLike
import SignalEngine.Lib.Registry
import Mathlib.Data.List.Sort

/-! # Order book

Resting orders live in a pool of slots; each price level is a queue of slot
indices. Prices and quantities are floats, of which only the operations are used, and
no lock is poisoned.
-/

namespace OrderBook

open FloatLike

structure OrderbookEntry (F : Type) where
  orderId : Nat
  quantity : F
  timestamp : Nat
  deriving DecidableEq

/-! ## The pool -/

structure OrderEntryPool (F : Type) where
  entries : List (Option (OrderbookEntry F))
  /-- Freed slots, the oldest first. -/
  freeIndices : List Nat
  /-- The next slot that was never used. -/
  nextNew : Nat
  capacity : Nat
  deriving DecidableEq

namespace OrderEntryPool

variable {F : Type}

def withCapacity (capacity : Nat) : OrderEntryPool F := ⟨List.replicate capacity none, [], 0, capacity⟩

def allocate (p : OrderEntryPool F) (orderId : Nat) (quantity : F) (timestamp : Nat) : Option Nat × OrderEntryPool F :=
  match p.freeIndices with
  | index :: rest =>
      (some index,
        { p with entries := p.entries.set index (some ⟨orderId, quantity, timestamp⟩), freeIndices := rest })
  | [] =>
      if p.capacity ≤ p.nextNew then (none, p)
      else
        (some p.nextNew,
          { p with
            entries := p.entries.set p.nextNew (some ⟨orderId, quantity, timestamp⟩)
            nextNew := p.nextNew + 1 })

def get (p : OrderEntryPool F) (index : Nat) : Option (OrderbookEntry F) :=
  if p.capacity ≤ index then none else p.entries[index]?.join

def getMut (p : OrderEntryPool F) (index : Nat) (f : OrderbookEntry F → OrderbookEntry F) : Bool × OrderEntryPool F :=
  if p.capacity ≤ index then (false, p)
  else
    match p.entries[index]?.join with
    | some entry => (true, { p with entries := p.entries.set index (some (f entry)) })
    | none => (false, p)

def free (p : OrderEntryPool F) (index : Nat) : OrderEntryPool F :=
  if p.capacity ≤ index then p
  else { p with entries := p.entries.set index none, freeIndices := p.freeIndices ++ [index] }

end OrderEntryPool

/-! ## The book -/

inductive OrderSide where
  | bid
  | ask
  deriving DecidableEq

/-- The slot indices at each price, in time order. -/
abbrev Levels (F : Type) [FloatLike F] := Registry F (List Nat)

/-- Matching times, in nanoseconds. -/
structure MatchMetrics where
  lastMatchDurationNs : Nat
  avgMatchDurationNs : Nat
  matchCount : Nat
  deriving DecidableEq

structure Orderbook (F : Type) [FloatLike F] where
  bids : Levels F
  asks : Levels F
  entryPool : OrderEntryPool F
  metrics : MatchMetrics

inductive ExecutionStatus where
  | complete
  | partly
  | unfilled
  deriving DecidableEq

structure ExecutionResult (F : Type) where
  executedQuantity : F
  remainingQuantity : F
  averagePrice : F
  executionTimeNs : Nat
  status : ExecutionStatus
  deriving DecidableEq

namespace Orderbook

variable {F : Type} [FloatLike F]

def new (capacity : Nat) : Orderbook F := ⟨.empty, .empty, .withCapacity capacity, ⟨0, 0, 0⟩⟩

def levels (b : Orderbook F) : OrderSide → Levels F
  | .bid => b.bids
  | .ask => b.asks

def setLevels (b : Orderbook F) (side : OrderSide) (levels : Levels F) : Orderbook F :=
  match side with
  | .bid => { b with bids := levels }
  | .ask => { b with asks := levels }

/-- The slot at the end of the queue of a price, whether there was a level or not. -/
def pushBack (b : Orderbook F) (side : OrderSide) (price : F) (index : Nat) : Orderbook F :=
  b.setLevels side ((b.levels side).insert price (((b.levels side).get price).getD [] ++ [index]))

def pruneLevel (b : Orderbook F) (side : OrderSide) (price : F) : Orderbook F :=
  if (b.levels side).get price = some [] then b.setLevels side ((b.levels side).erase price) else b

/-- The first order of a queue with this id: its position and its slot. -/
def findOrder (p : OrderEntryPool F) (orderId : Nat) : List Nat → Option (Nat × Nat)
  | [] => none
  | index :: rest =>
      if (p.get index).any (·.orderId == orderId) then some (0, index)
      else (findOrder p orderId rest).map fun found => (found.1 + 1, found.2)

/-- A valid order gets a slot, and its slot a place at the price. -/
def addOrder (b : Orderbook F) (side : OrderSide) (price : F) (orderId : Nat) (quantity : F) (timestamp : Nat) :
    Except String Nat × Orderbook F :=
  match b.entryPool.allocate orderId quantity timestamp with
  | (some index, pool) => (.ok index, { b with entryPool := pool }.pushBack side price index)
  | (none, _) => (.error "Order pool capacity exceeded", b)

def addLimitBid (b : Orderbook F) (price : F) (orderId : Nat) (quantity : F) (timestamp : Nat) :
    Except String Nat × Orderbook F :=
  if !isFinite quantity || quantity ≤ 0 then (.error "Quantity must be finite and positive", b)
  else if !isFinite price || price ≤ 0 then (.error "Price must be finite and positive", b)
  else if ofRat 1000000 < quantity then (.error "Quantity exceeds maximum allowed", b)
  else if ofRat 10000000 < price then (.error "Price exceeds maximum allowed", b)
  else if quantity < ofRat (1 / 10 ^ 8) then (.error "Quantity below minimum precision", b)
  else if price < ofRat (1 / 10 ^ 6) then (.error "Price below minimum precision", b)
  else if orderId = 0 then (.error "Order ID cannot be zero", b)
  else if isNan price then (.error "Invalid price (NaN)", b)
  else b.addOrder .bid price orderId quantity timestamp

def addLimitAsk (b : Orderbook F) (price : F) (orderId : Nat) (quantity : F) (timestamp : Nat) :
    Except String Nat × Orderbook F :=
  if quantity ≤ 0 then (.error "Quantity must be positive", b)
  else if price ≤ 0 then (.error "Price must be positive", b)
  else if isNan price then (.error "Invalid price (NaN)", b)
  else b.addOrder .ask price orderId quantity timestamp

def addLimit (b : Orderbook F) : OrderSide → (price : F) → (orderId : Nat) → (quantity : F) → (timestamp : Nat) →
    Except String Nat × Orderbook F
  | .bid => b.addLimitBid
  | .ask => b.addLimitAsk

/-- The order leaves its queue; its slot stays in use. -/
def detach (b : Orderbook F) (side : OrderSide) (price : F) (orderId : Nat) : Option Nat × Orderbook F :=
  match (b.levels side).get price with
  | none => (none, b)
  | some orders =>
      match findOrder b.entryPool orderId orders with
      | none => (none, b)
      | some (position, index) =>
          (some index, b.setLevels side ((b.levels side).insert price (orders.eraseIdx position)))

def removeLimit (b : Orderbook F) (side : OrderSide) (price : F) (orderId : Nat) : Except String Bool × Orderbook F :=
  if isNan price then (.error "Invalid price (NaN)", b)
  else
    match b.detach side price orderId with
    | (none, b) => (.ok false, b)
    | (some index, b) => (.ok true, { b with entryPool := b.entryPool.free index }.pruneLevel side price)

def removeLimitBid (b : Orderbook F) (price : F) (orderId : Nat) : Except String Bool × Orderbook F :=
  b.removeLimit .bid price orderId

def removeLimitAsk (b : Orderbook F) (price : F) (orderId : Nat) : Except String Bool × Orderbook F :=
  b.removeLimit .ask price orderId

def editLimit (b : Orderbook F) (side : OrderSide) (price : F) (orderId : Nat) (newQuantity : F) :
    Except String Bool × Orderbook F :=
  if newQuantity ≤ 0 then (.error "Quantity must be positive", b)
  else if isNan price then (.error "Invalid price (NaN)", b)
  else
    match (b.levels side).get price with
    | none => (.ok false, b)
    | some orders =>
        match findOrder b.entryPool orderId orders with
        | none => (.ok false, b)
        | some (_, index) =>
            let (updated, pool) := b.entryPool.getMut index fun entry => { entry with quantity := newQuantity }
            (.ok updated, { b with entryPool := pool })

def editLimitBid (b : Orderbook F) (price : F) (orderId : Nat) (newQuantity : F) : Except String Bool × Orderbook F :=
  b.editLimit .bid price orderId newQuantity

def editLimitAsk (b : Orderbook F) (price : F) (orderId : Nat) (newQuantity : F) : Except String Bool × Orderbook F :=
  b.editLimit .ask price orderId newQuantity

/-- The order moves to the end of another queue; an unknown one is added. -/
def modifyLimit (b : Orderbook F) (side : OrderSide) (oldPrice : F) (orderId : Nat) (newPrice newQuantity : F)
    (timestamp : Nat) : Except String Bool × Orderbook F :=
  if isNan oldPrice then (.error "Invalid old price (NaN)", b)
  else if isNan newPrice then (.error "Invalid new price (NaN)", b)
  else
    let (found, b) := b.detach side oldPrice orderId
    let b := b.pruneLevel side oldPrice
    match found with
    | some index =>
        let (updated, pool) := b.entryPool.getMut index fun entry => { entry with quantity := newQuantity }
        let b := { b with entryPool := pool }
        if updated then (.ok true, b.pushBack side newPrice index)
        else (.ok false, { b with entryPool := b.entryPool.free index })
    | none =>
        match b.addLimit side newPrice orderId newQuantity timestamp with
        | (.ok _, b) => (.ok true, b)
        | (.error e, b) => (.error e, b)

def modifyLimitBid (b : Orderbook F) (oldPrice : F) (orderId : Nat) (newPrice newQuantity : F) (timestamp : Nat) :
    Except String Bool × Orderbook F :=
  b.modifyLimit .bid oldPrice orderId newPrice newQuantity timestamp

def modifyLimitAsk (b : Orderbook F) (oldPrice : F) (orderId : Nat) (newPrice newQuantity : F) (timestamp : Nat) :
    Except String Bool × Orderbook F :=
  b.modifyLimit .ask oldPrice orderId newPrice newQuantity timestamp

/-! ## Matching -/

structure Fills (F : Type) where
  remaining : F
  executed : F
  cost : F
  pool : OrderEntryPool F
  deriving DecidableEq

/-- The orders of a level from position `i` on are matched; the positions of those
    that are used up. -/
def fillOrders (price : F) : List Nat → (i : Nat) → Fills F → List Nat × Fills F
  | [], _, f => ([], f)
  | index :: rest, i, f =>
      if 0 < f.remaining then
        match f.pool.get index with
        | none => fillOrders price rest (i + 1) f
        | some order =>
            let executable := min order.quantity f.remaining
            let f := { f with
              remaining := f.remaining - executable
              executed := f.executed + executable
              cost := f.cost + price * executable }
            if order.quantity ≤ executable then
              let (used, f) := fillOrders price rest (i + 1) f
              (i :: used, f)
            else
              let (_, pool) := f.pool.getMut index fun entry => { entry with quantity := order.quantity - executable }
              fillOrders price rest (i + 1) { f with pool }
      else ([], f)

/-- The order at a position leaves the queue, and its slot is freed. -/
def dropAt (resting : List Nat × OrderEntryPool F) (position : Nat) : List Nat × OrderEntryPool F :=
  match resting.1[position]? with
  | some index => (resting.1.eraseIdx position, resting.2.free index)
  | none => resting

/-- Used orders leave the queue, from back to front. -/
def removeUsed (used : List Nat) (orders : List Nat) (pool : OrderEntryPool F) : List Nat × OrderEntryPool F :=
  used.reverse.foldl dropAt (orders, pool)

/-- A market order on its way through the levels. -/
structure Sweep (F : Type) [FloatLike F] where
  levels : Levels F
  fills : Fills F
  /-- The levels that were left empty. -/
  emptied : List F

def sweepLevel (s : Sweep F) (price : F) : Sweep F :=
  match s.levels.get price with
  | none => s
  | some orders =>
      let (used, fills) := fillOrders price orders 0 s.fills
      let (orders, pool) := removeUsed used orders fills.pool
      { levels := s.levels.insert price orders
        fills := { fills with pool }
        emptied := if orders.isEmpty then s.emptied ++ [price] else s.emptied }

def sweep : List F → Sweep F → Sweep F
  | [], s => s
  | price :: prices, s => if s.fills.remaining ≤ 0 then s else sweep prices (sweepLevel s price)

/-- The prices a market order takes, the best first. -/
def eligiblePrices (levels : Levels F) (resting : OrderSide) (priceLimit : F) : List F :=
  match resting with
  | .ask => (levels.keys.insertionSort (· ≤ ·)).takeWhile (· ≤ priceLimit)
  | .bid => (levels.keys.insertionSort (· ≥ ·)).takeWhile (priceLimit ≤ ·)

/-- A market order against the orders of one side; `elapsed` nanoseconds pass. -/
def matchMarket (b : Orderbook F) (resting : OrderSide) (priceLimit quantity : F) (elapsed : Nat) :
    Except String (ExecutionResult F) × Orderbook F :=
  if quantity ≤ 0 then (.error "Quantity must be positive", b)
  else if priceLimit ≤ 0 then (.error "Price limit must be positive", b)
  else if isNan priceLimit then (.error "Invalid price limit (NaN)", b)
  else
    let levels := b.levels resting
    let s := sweep (eligiblePrices levels resting priceLimit) ⟨levels, ⟨quantity, 0, 0, b.entryPool⟩, []⟩
    let levels := s.emptied.foldl Registry.erase s.levels
    let count := b.metrics.matchCount + 1
    let metrics : MatchMetrics :=
      ⟨elapsed, (b.metrics.avgMatchDurationNs * (count - 1) + elapsed) / count, count⟩
    (.ok {
        executedQuantity := s.fills.executed
        remainingQuantity := s.fills.remaining
        averagePrice := if 0 < s.fills.executed then s.fills.cost / s.fills.executed else 0
        executionTimeNs := elapsed
        status :=
          if s.fills.remaining ≤ 0 then .complete else if 0 < s.fills.executed then .partly else .unfilled },
      { b.setLevels resting levels with entryPool := s.fills.pool, metrics })

def matchMarketBid (b : Orderbook F) (priceLimit quantity : F) (elapsed : Nat) :
    Except String (ExecutionResult F) × Orderbook F :=
  b.matchMarket .ask priceLimit quantity elapsed

def matchMarketAsk (b : Orderbook F) (priceLimit quantity : F) (elapsed : Nat) :
    Except String (ExecutionResult F) × Orderbook F :=
  b.matchMarket .bid priceLimit quantity elapsed

end Orderbook

end OrderBook
