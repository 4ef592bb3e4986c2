import SignalEngine.RebalancerCore.Policy
import SignalEngine.BrokerAdapters.Order
import SignalEngine.Lib.Interaction

/-! # Broker

One reading of a broker account, and the calls the runner makes to a broker and
its clock. How a broker answers is left open here.
-/

open BrokerAdapters Text

namespace RebalancerRun

open RebalancerCore (Instant)

structure Holding where
  /-- Tradable symbol on the venue. -/
  symbol : String
  assetClass : String
  /-- Negative for a short. -/
  quantity : Dec
  /-- The price the value was computed at, unless the broker gave the value itself. -/
  mark : Option Dec
  marketValue : Dec
  deriving DecidableEq

structure UnvaluedHolding where
  asset : String
  quantity : Dec
  reason : String
  deriving DecidableEq

structure BrokerSnapshot where
  venue : String
  ccy : String
  equity : Dec
  cash : Dec
  holdings : List Holding
  unvalued : List UnvaluedHolding
  openOrders : List OrderReport
  takenAt : Instant
  derivedEquity : Dec
  deriving DecidableEq

namespace BrokerSnapshot

def holding (snap : BrokerSnapshot) (symbol : String) : Option Holding :=
  snap.holdings.find? fun (h : Holding) => eqIgnoreAsciiCase h.symbol symbol

def quantityOf (snap : BrokerSnapshot) (symbol : String) : Dec :=
  ((snap.holding symbol).map Holding.quantity).getD Dec.zero

end BrokerSnapshot

inductive ViewError where
  | equityMissing
  | accountBlocked (why : String)
  | overflow (what : String)
  deriving DecidableEq

def ViewError.display : ViewError → String
  | equityMissing =>
      "VIEW_EQUITY_MISSING: the broker's TradeBalance carries neither equity (e) nor equivalent balance (eb)"
  | accountBlocked why => s!"VIEW_ACCOUNT_BLOCKED: {why}"
  | overflow what => s!"VIEW_ARITHMETIC_OVERFLOW: {what}"

inductive SnapshotError where
  | broker (e : BrokerError)
  | view (e : ViewError)
  deriving DecidableEq

def SnapshotError.display [DebugText] : SnapshotError → String
  | broker e => s!"BROKER_UNREACHABLE: {e.display}"
  | view e => e.display

/-- The calls to the broker and to the clock. -/
inductive BrokerOp where
  | now
  | sleepSecs (secs : Nat)
  | snapshot (now : Instant)
  | place (req : OrderRequest)
  | getOrder (brokerOrderId : String)
  | openOrders
  | findByTag (tag : String)
  | cancelAndSettle (brokerOrderId : String)
  deriving DecidableEq

abbrev BrokerOp.Answer : BrokerOp → Type
  | now => Instant
  | sleepSecs _ => Unit
  | snapshot _ => Except SnapshotError BrokerSnapshot
  | place _ => Except BrokerError PlaceOutcome
  | getOrder _ => Except BrokerError OrderReport
  | openOrders => Except BrokerError (List OrderReport)
  | findByTag _ => Except BrokerError (List OrderReport)
  | cancelAndSettle _ => Except BrokerError (CancelOutcome × OrderReport)

namespace Broker

open Interaction

/-- A program that calls the broker and carries a state of its own. -/
abbrev Calls (σ : Type) := StateT σ (Prog BrokerOp BrokerOp.Answer)

variable {σ : Type}

def now : Calls σ Instant := ask BrokerOp.now
def sleepSecs (secs : Nat) : Calls σ Unit := ask (BrokerOp.sleepSecs secs)
def snapshot (now : Instant) : Calls σ (Except SnapshotError BrokerSnapshot) := ask (BrokerOp.snapshot now)
def place (req : OrderRequest) : Calls σ (Except BrokerError PlaceOutcome) := ask (BrokerOp.place req)
def getOrder (id : String) : Calls σ (Except BrokerError OrderReport) := ask (BrokerOp.getOrder id)
def openOrders : Calls σ (Except BrokerError (List OrderReport)) := ask BrokerOp.openOrders
def findByTag (tag : String) : Calls σ (Except BrokerError (List OrderReport)) := ask (BrokerOp.findByTag tag)
def cancelAndSettle (id : String) : Calls σ (Except BrokerError (CancelOutcome × OrderReport)) :=
  ask (BrokerOp.cancelAndSettle id)

end Broker

/-- Every tag this program gives to an order starts with it. -/
def ownTagPrefix : String := "rb1:"

/-- Ours by its tag, or by an id that was recorded when it was placed. -/
def isOwnOrder (order : OrderReport) (knownOrderIds : Std.ExtTreeSet String) : Bool :=
  order.tag.any (fun tag => ownTagPrefix.toList.isPrefixOf tag.toList) ||
    knownOrderIds.contains order.brokerOrderId

end RebalancerRun
