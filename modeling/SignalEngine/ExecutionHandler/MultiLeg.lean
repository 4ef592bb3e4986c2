import SignalEngine.Lib.Registry
import SignalEngine.Lib.Runs
import SignalEngine.Lib.UpdateFirst
import Mathlib.Data.Nat.Digits.Defs

/-! # Multi-leg orders

Groups of orders that belong together: one cancels the other, a bracket around an
entry, a linked pair. The manager keeps the groups and two indexes, from leg to
group and from exchange order to leg. Amounts are machine floats, of which only
the operations are used.
-/

namespace ExecutionHandler

/-- The float operations the manager uses. -/
class FloatOps (F : Type) where
  zero : F
  add : F → F → F
  mul : F → F → F
  div : F → F → F
  /-- `a <= b`, which is also `b >= a`; false for a NaN. -/
  le : F → F → Bool
  eq : F → F → Bool
  display : F → String

inductive OrderSide where
  | buy
  | sell
  deriving DecidableEq

inductive OrderType where
  | market
  | limit
  | stop
  | stopLimit
  | iceberg
  | postOnly
  deriving DecidableEq

inductive TimeInForce where
  | goodTillCancelled
  | immediateOrCancel
  | fillOrKill
  | goodTillTime (nanos : Nat)
  deriving DecidableEq

inductive GroupState where
  | pending
  | active
  | entryFilled
  | partiallyFilled
  | completed
  | cancelled
  | failed
  deriving DecidableEq

inductive MultiLegType where
  | oco
  | bracket
  | linkedPair
  | conditional
  | spread
  deriving DecidableEq

inductive LegRole where
  | entry
  | stopLoss
  | takeProfit
  | ocoLegA
  | ocoLegB
  | pairLong
  | pairShort
  | trigger
  | target
  deriving DecidableEq

inductive LegStatus where
  | pending
  /-- Waiting for the entry of its bracket. -/
  | waiting
  | submitted
  | partiallyFilled
  | filled
  | cancelled
  | rejected
  deriving DecidableEq

structure ExecutionFill (F : Type) where
  fillId : String
  quantity : F
  price : F
  fee : F

structure OrderLeg (F : Type) where
  legId : String
  groupId : String
  sequence : Nat
  symbol : String
  side : OrderSide
  orderType : OrderType
  quantity : F
  price : Option F
  triggerPrice : Option F
  timeInForce : TimeInForce
  exchange : String
  role : LegRole
  status : LegStatus
  exchangeOrderId : Option String
  filledQuantity : F
  avgFillPrice : F
  fills : List (ExecutionFill F)
  createdAt : Nat
  updatedAt : Nat
  exchangeTimestampNs : Option Nat

structure MultiLegOrderGroup (F : Type) where
  groupId : String
  orderType : MultiLegType
  state : GroupState
  legs : List (OrderLeg F)
  createdAt : Nat
  updatedAt : Nat
  completedAt : Option Nat

def GroupState.isTerminal : GroupState → Bool
  | completed | cancelled | failed => true
  | _ => false

def MultiLegOrderGroup.isTerminal {F : Type} (group : MultiLegOrderGroup F) : Bool := group.state.isTerminal

/-- Filled, cancelled or rejected: nothing is left to happen to the leg. -/
def LegStatus.isFinal : LegStatus → Bool
  | filled | cancelled | rejected => true
  | _ => false

inductive MultiLegEventType where
  | legPartialFill
  | legFilled
  | legCancelled
  | groupCompleted
  | contingentActivated
  deriving DecidableEq

structure MultiLegEvent where
  groupId : String
  eventType : MultiLegEventType
  legId : Option String
  previousState : GroupState
  newState : GroupState
  timestamp : Nat
  details : Option String

inductive MultiLegError where
  | invalidParameter (msg : String)
  | groupNotFound (id : String)
  | legNotFound (id : String)
  | groupAlreadyTerminal (id : String)
  | maxGroupsExceeded
  deriving DecidableEq

structure MultiLegStats where
  groupsCreated : UInt64
  groupsCompleted : UInt64
  groupsCancelled : UInt64
  ocoTriggers : UInt64
  bracketEntriesFilled : UInt64

structure MultiLegOrderManager (F : Type) where
  groups : Registry String (MultiLegOrderGroup F)
  legToGroup : Registry String String
  exchangeOrderToLeg : Registry String String
  maxActiveGroups : Nat
  groupCounter : UInt64
  stats : MultiLegStats

/-! ## Identifiers -/

/-- Lower-case hexadecimal, filled up with zeros. -/
def hexPadded (width n : Nat) : String :=
  let digits := Nat.toDigits 16 n
  String.ofList (List.replicate (width - digits.length) '0' ++ digits)

/-- `{:02}` -/
def twoDigits (n : Nat) : String := if n < 10 then "0" ++ toString n else toString n

def generateLegId (groupId : String) (sequence : Nat) : String := groupId ++ "-L" ++ twoDigits sequence

/-! ## Parameters -/

structure OcoParams (F : Type) where
  symbol : String
  exchange : String
  legASide : OrderSide
  legAType : OrderType
  legAQuantity : F
  legAPrice : F
  legBSide : OrderSide
  legBType : OrderType
  legBQuantity : F
  legBPrice : F
  legBTrigger : Option F
  timeInForce : TimeInForce
  clientGroupId : Option String

structure BracketParams (F : Type) where
  symbol : String
  exchange : String
  entrySide : OrderSide
  entryType : OrderType
  entryQuantity : F
  entryPrice : Option F
  stopLossPrice : F
  stopLossLimit : Option F
  takeProfitPrice : F
  takeProfitLimit : Option F
  timeInForce : TimeInForce
  submitContingentImmediately : Bool
  clientGroupId : Option String

structure LinkedPairParams (F : Type) where
  longSymbol : String
  longExchange : String
  longQuantity : F
  longPrice : Option F
  shortSymbol : String
  shortExchange : String
  shortQuantity : F
  shortPrice : Option F
  orderType : OrderType
  timeInForce : TimeInForce
  clientGroupId : Option String

section Operations

variable {F : Type} [FloatOps F]

open FloatOps

namespace MultiLegOrderManager

def withConfig (maxActiveGroups : Nat) : MultiLegOrderManager F :=
  ⟨.empty, .empty, .empty, maxActiveGroups, 0, ⟨0, 0, 0, 0, 0⟩⟩

/-- The client's id, or a new one from the clock and the counter. -/
def groupIdFor (m : MultiLegOrderManager F) (client : Option String) (stamp : Nat) :
    String × MultiLegOrderManager F :=
  match client with
  | some id => (id, m)
  | none =>
      (s!"MLG-{hexPadded 16 stamp}-{hexPadded 8 m.groupCounter.toNat}",
        { m with groupCounter := m.groupCounter + 1 })

/-- The indexes, the group and the count of a new group. -/
def store (m : MultiLegOrderManager F) (group : MultiLegOrderGroup F) : MultiLegOrderManager F :=
  { m with
    legToGroup := group.legs.foldl (fun index leg => index.insert leg.legId group.groupId) m.legToGroup
    groups := m.groups.insert group.groupId group
    stats := { m.stats with groupsCreated := m.stats.groupsCreated + 1 } }

end MultiLegOrderManager

def OrderLeg.fresh (groupId : String) (sequence : Nat) (symbol : String) (side : OrderSide)
    (orderType : OrderType) (quantity : F) (price triggerPrice : Option F) (timeInForce : TimeInForce)
    (exchange : String) (role : LegRole) (status : LegStatus) (now : Nat) : OrderLeg F where
  legId := generateLegId groupId sequence
  groupId
  sequence
  symbol
  side
  orderType
  quantity
  price
  triggerPrice
  timeInForce
  exchange
  role
  status
  exchangeOrderId := none
  filledQuantity := zero
  avgFillPrice := zero
  fills := []
  createdAt := now
  updatedAt := now
  exchangeTimestampNs := none

def MultiLegOrderGroup.fresh (groupId : String) (orderType : MultiLegType) (legs : List (OrderLeg F))
    (now : Nat) : MultiLegOrderGroup F where
  groupId
  orderType
  state := .pending
  legs
  createdAt := now
  updatedAt := now
  completedAt := none

/-! ## Creating groups -/

def OcoParams.group (p : OcoParams F) (groupId : String) (now : Nat) : MultiLegOrderGroup F :=
  .fresh groupId .oco [
    .fresh groupId 0 p.symbol p.legASide p.legAType p.legAQuantity (some p.legAPrice) none p.timeInForce
      p.exchange .ocoLegA .pending now,
    .fresh groupId 1 p.symbol p.legBSide p.legBType p.legBQuantity (some p.legBPrice) p.legBTrigger
      p.timeInForce p.exchange .ocoLegB .pending now] now

/-- Stop-loss and take-profit lie on their sides of the entry. -/
def BracketParams.validate (p : BracketParams F) : Except MultiLegError Unit := do
  if le p.entryQuantity zero then throw (.invalidParameter "Entry quantity must be positive")
  match p.entryPrice with
  | none => return ()
  | some entryPrice =>
      if p.entrySide = .buy then
        if le entryPrice p.stopLossPrice then
          throw (.invalidParameter "Stop-loss must be below entry for long positions")
        if le p.takeProfitPrice entryPrice then
          throw (.invalidParameter "Take-profit must be above entry for long positions")
      else
        if le p.stopLossPrice entryPrice then
          throw (.invalidParameter "Stop-loss must be above entry for short positions")
        if le entryPrice p.takeProfitPrice then
          throw (.invalidParameter "Take-profit must be below entry for short positions")

def BracketParams.group (p : BracketParams F) (groupId : String) (now : Nat) : MultiLegOrderGroup F :=
  let exitSide := if p.entrySide = .buy then OrderSide.sell else .buy
  let contingent := if p.submitContingentImmediately then LegStatus.pending else .waiting
  .fresh groupId .bracket [
    .fresh groupId 0 p.symbol p.entrySide p.entryType p.entryQuantity p.entryPrice none p.timeInForce
      p.exchange .entry .pending now,
    .fresh groupId 1 p.symbol exitSide (if p.stopLossLimit.isSome then .stopLimit else .stop)
      p.entryQuantity p.stopLossLimit (some p.stopLossPrice) p.timeInForce p.exchange .stopLoss contingent
      now,
    .fresh groupId 2 p.symbol exitSide .limit p.entryQuantity
      (some (p.takeProfitLimit.getD p.takeProfitPrice)) none p.timeInForce p.exchange .takeProfit contingent
      now] now

def LinkedPairParams.group (p : LinkedPairParams F) (groupId : String) (now : Nat) : MultiLegOrderGroup F :=
  .fresh groupId .linkedPair [
    .fresh groupId 0 p.longSymbol .buy p.orderType p.longQuantity p.longPrice none p.timeInForce
      p.longExchange .pairLong .pending now,
    .fresh groupId 1 p.shortSymbol .sell p.orderType p.shortQuantity p.shortPrice none p.timeInForce
      p.shortExchange .pairShort .pending now] now

/-! ## Fills -/

/-- A leg after a fill: filled once the fills reach its quantity. -/
def OrderLeg.fill (leg : OrderLeg F) (fill : ExecutionFill F) (exchangeTimestampNs : Option Nat)
    (now : Nat) : OrderLeg F :=
  let newFilled := add leg.filledQuantity fill.quantity
  { leg with
    avgFillPrice :=
      if eq leg.filledQuantity zero then fill.price
      else div (add (mul leg.avgFillPrice leg.filledQuantity) (mul fill.price fill.quantity)) newFilled
    filledQuantity := newFilled
    fills := leg.fills ++ [fill]
    updatedAt := now
    exchangeTimestampNs
    status := if le leg.quantity newFilled then .filled else .partiallyFilled }

def OrderLeg.cancel (leg : OrderLeg F) (now : Nat) : OrderLeg F :=
  { leg with status := .cancelled, updatedAt := now }

def OrderLeg.link (leg : OrderLeg F) (exchangeOrderId : String) (now : Nat) : OrderLeg F :=
  { leg with exchangeOrderId := some exchangeOrderId, status := .submitted, updatedAt := now }

/-- What a fill does to its group, the events of it and the statistics it counts. -/
structure Reaction (F : Type) where
  group : MultiLegOrderGroup F
  events : List MultiLegEvent
  ocoTriggered : Bool
  entryFilled : Bool

namespace MultiLegOrderGroup

/-- Cancel the first leg of a role, unless it is cancelled or filled; the answer
    is the leg that was cancelled. -/
def cancelRole (group : MultiLegOrderGroup F) (role : LegRole) (now : Nat) :
    MultiLegOrderGroup F × Option (OrderLeg F) :=
  match group.legs.find? (·.role == role) with
  | some leg =>
      if leg.status ≠ .cancelled ∧ leg.status ≠ .filled then
        ({ group with legs := updateFirst (·.role == role) (·.cancel now) group.legs }, some leg)
      else (group, none)
  | none => (group, none)

def complete (group : MultiLegOrderGroup F) (now : Nat) : MultiLegOrderGroup F :=
  { group with state := .completed, completedAt := some now }

def activateWaiting (group : MultiLegOrderGroup F) (now : Nat) : MultiLegOrderGroup F :=
  let activate (l : OrderLeg F) : OrderLeg F :=
    if l.status = .waiting then { l with status := .pending, updatedAt := now } else l
  { group with legs := group.legs.map activate }

def cancelledEvent (group : MultiLegOrderGroup F) (previous : GroupState) (now : Nat) (details : String)
    (leg : OrderLeg F) : MultiLegEvent :=
  ⟨group.groupId, .legCancelled, some leg.legId, previous, group.state, now, some details⟩

/-- The other leg of the pair is cancelled and the group is complete. -/
def finishWith (group : MultiLegOrderGroup F) (other : LegRole) (details : String) (now : Nat) :
    MultiLegOrderGroup F × Option MultiLegEvent :=
  let (left, cancelled) := group.cancelRole other now
  (left.complete now, cancelled.map (group.cancelledEvent group.state now details))

def react (group : MultiLegOrderGroup F) (leg : OrderLeg F) (now : Nat) : Reaction F :=
  match group.orderType with
  | .oco =>
      if leg.status = .filled then
        let other := if leg.role = .ocoLegA then LegRole.ocoLegB else .ocoLegA
        let (done, event) := group.finishWith other "OCO: Other leg cancelled" now
        ⟨done, event.toList, event.isSome, false⟩
      else ⟨group, [], false, false⟩
  | .bracket =>
      if leg.role = .entry ∧ leg.status = .filled then
        let activated := { group.activateWaiting now with state := .entryFilled }
        ⟨activated, [⟨group.groupId, .contingentActivated, none, group.state, .entryFilled, now,
          some "Entry filled, contingent orders activated"⟩], false, true⟩
      else if (leg.role = .stopLoss ∨ leg.role = .takeProfit) ∧ leg.status = .filled then
        let other := if leg.role = .stopLoss then LegRole.takeProfit else .stopLoss
        let (done, event) := group.finishWith other "Bracket: Other contingent cancelled" now
        ⟨done, event.toList, false, false⟩
      else ⟨group, [], false, false⟩
  | .linkedPair =>
      if group.legs.all (·.status == .filled) then ⟨group.complete now, [], false, false⟩
      else if group.legs.any (·.status == .partiallyFilled) then
        ⟨{ group with state := .partiallyFilled }, [], false, false⟩
      else ⟨group, [], false, false⟩
  | _ => ⟨group, [], false, false⟩

/-- The filled leg in its place, then the group's logic. -/
def fillLeg (group : MultiLegOrderGroup F) (legId : String) (filled : OrderLeg F) (now : Nat) : Reaction F :=
  let legs := updateFirst (·.legId == legId) (fun _ => filled) group.legs
  let reaction := react { group with legs } filled now
  { reaction with group := { reaction.group with updatedAt := now } }

end MultiLegOrderGroup

namespace MultiLegOrderManager

def createOco (m : MultiLegOrderManager F) (p : OcoParams F) (stamp now : Nat) :
    MultiLegOrderManager F × Except MultiLegError (MultiLegOrderGroup F) :=
  if m.groups.size ≥ m.maxActiveGroups then (m, .error .maxGroupsExceeded)
  else
    let (groupId, m) := m.groupIdFor p.clientGroupId stamp
    let group := p.group groupId now
    (m.store group, .ok group)

def createBracket (m : MultiLegOrderManager F) (p : BracketParams F) (stamp now : Nat) :
    MultiLegOrderManager F × Except MultiLegError (MultiLegOrderGroup F) :=
  match p.validate with
  | .error e => (m, .error e)
  | .ok () =>
      let (groupId, m) := m.groupIdFor p.clientGroupId stamp
      let group := p.group groupId now
      (m.store group, .ok group)

def createLinkedPair (m : MultiLegOrderManager F) (p : LinkedPairParams F) (stamp now : Nat) :
    MultiLegOrderManager F × Except MultiLegError (MultiLegOrderGroup F) :=
  let (groupId, m) := m.groupIdFor p.clientGroupId stamp
  let group := p.group groupId now
  (m.store group, .ok group)

/-- One more where a flag is set. -/
def bump (flag : Bool) (n : UInt64) : UInt64 := if flag then n + 1 else n

def filledEvent (group : MultiLegOrderGroup F) (leg : OrderLeg F) (fill : ExecutionFill F) (now : Nat) :
    MultiLegEvent :=
  ⟨group.groupId, if leg.status = .filled then .legFilled else .legPartialFill, some leg.legId, group.state,
    group.state, now, some s!"Filled {display fill.quantity} @ {display fill.price}"⟩

def processLegFill (m : MultiLegOrderManager F) (legId : String) (fill : ExecutionFill F)
    (exchangeTimestampNs : Option Nat) (now : Nat) :
    MultiLegOrderManager F × Except MultiLegError (List MultiLegEvent) :=
  match m.legToGroup.get legId with
  | none => (m, .error (.legNotFound legId))
  | some groupId =>
      match m.groups.get groupId with
      | none => (m, .error (.groupNotFound groupId))
      | some group =>
          match group.legs.find? (·.legId == legId) with
          | none => (m, .ok [])
          | some leg =>
              let filled := leg.fill fill exchangeTimestampNs now
              let reaction := group.fillLeg legId filled now
              let completed := reaction.group.state == .completed
              ({ m with
                  groups := m.groups.modify groupId fun _ => reaction.group
                  stats := { m.stats with
                    groupsCompleted := bump completed m.stats.groupsCompleted
                    ocoTriggers := bump reaction.ocoTriggered m.stats.ocoTriggers
                    bracketEntriesFilled := bump reaction.entryFilled m.stats.bracketEntriesFilled } },
                .ok (filledEvent group filled fill now :: reaction.events ++
                  if completed then
                    [⟨groupId, .groupCompleted, none, group.state, reaction.group.state, now, none⟩]
                  else []))

/-- A leg that is at the exchange is cancelled with its group. -/
def cancelLeg (leg : OrderLeg F) (now : Nat) : OrderLeg F :=
  if leg.status = .submitted ∨ leg.status = .partiallyFilled then leg.cancel now else leg

def cancelGroup (m : MultiLegOrderManager F) (groupId : String) (now : Nat) :
    MultiLegOrderManager F × Except MultiLegError (List String) :=
  match m.groups.get groupId with
  | none => (m, .error (.groupNotFound groupId))
  | some group =>
      if group.isTerminal then (m, .error (.groupAlreadyTerminal groupId))
      else
        let atExchange := group.legs.filter fun (l : OrderLeg F) =>
          l.status == .submitted || l.status == .partiallyFilled
        let after := { group with
          legs := group.legs.map (cancelLeg · now)
          state := .cancelled
          updatedAt := now
          completedAt := some now }
        ({ m with
            groups := m.groups.modify groupId fun _ => after
            stats := { m.stats with groupsCancelled := m.stats.groupsCancelled + 1 } },
          .ok (atExchange.filterMap OrderLeg.exchangeOrderId))

def getGroup (m : MultiLegOrderManager F) (groupId : String) : Option (MultiLegOrderGroup F) :=
  m.groups.get groupId

def linkExchangeOrder (m : MultiLegOrderManager F) (legId exchangeOrderId : String) (now : Nat) :
    MultiLegOrderManager F × Except MultiLegError Unit :=
  match m.legToGroup.get legId with
  | none => (m, .error (.legNotFound legId))
  | some groupId =>
      match m.groups.get groupId with
      | none => (m, .error (.groupNotFound groupId))
      | some group =>
          let legs := updateFirst (·.legId == legId) (·.link exchangeOrderId now) group.legs
          ({ m with
              groups := m.groups.modify groupId fun _ => { group with legs }
              exchangeOrderToLeg := m.exchangeOrderToLeg.insert exchangeOrderId legId }, .ok ())

def getLegByExchangeOrder (m : MultiLegOrderManager F) (exchangeOrderId : String) :
    Option (String × OrderLeg F) := do
  let legId ← m.exchangeOrderToLeg.get exchangeOrderId
  let groupId ← m.legToGroup.get legId
  let group ← m.groups.get groupId
  let leg ← group.legs.find? (·.legId == legId)
  return (groupId, leg)

end MultiLegOrderManager

/-! ## Runs -/

inductive MultiLegOp (F : Type) where
  | createOco (p : OcoParams F) (stamp now : Nat)
  | createBracket (p : BracketParams F) (stamp now : Nat)
  | createLinkedPair (p : LinkedPairParams F) (stamp now : Nat)
  | linkExchangeOrder (legId exchangeOrderId : String) (now : Nat)
  | processLegFill (legId : String) (fill : ExecutionFill F) (exchangeTimestampNs : Option Nat) (now : Nat)
  | cancelGroup (groupId : String) (now : Nat)

namespace MultiLegOrderManager

def apply (m : MultiLegOrderManager F) : MultiLegOp F → MultiLegOrderManager F
  | .createOco p stamp now => (m.createOco p stamp now).1
  | .createBracket p stamp now => (m.createBracket p stamp now).1
  | .createLinkedPair p stamp now => (m.createLinkedPair p stamp now).1
  | .linkExchangeOrder legId exchangeOrderId now => (m.linkExchangeOrder legId exchangeOrderId now).1
  | .processLegFill legId fill exchangeTimestampNs now => (m.processLegFill legId fill exchangeTimestampNs now).1
  | .cancelGroup groupId now => (m.cancelGroup groupId now).1

def run : MultiLegOrderManager F → List (MultiLegOp F) → MultiLegOrderManager F := Runs.run apply

end MultiLegOrderManager

end Operations

end ExecutionHandler
