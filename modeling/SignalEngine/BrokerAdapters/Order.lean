import SignalEngine.BrokerAdapters.Decimal

/-! # Order vocabulary shared by the broker adapters

Requests, the answers of a broker, and the errors of a call.
-/

open Text

namespace BrokerAdapters

inductive Side where
  | buy
  | sell
  deriving Repr, DecidableEq

def Side.asStr : Side → String
  | buy => "buy"
  | sell => "sell"

/-- Buys count up, sells count down. -/
def Side.signed (side : Side) (quantity : ℚ) : ℚ :=
  match side with
  | buy => quantity
  | sell => -quantity

/-- A limit price lives inside its kind, so a market order cannot carry one. -/
inductive OrderKind where
  | market
  | limit (price : Dec)
  deriving DecidableEq

def OrderKind.isLimit : OrderKind → Bool
  | limit _ => true
  | market => false

/-- The direction in which a limit price is never worse than asked. -/
def Side.priceRounding : Side → Rounding
  | buy => .floor
  | sell => .ceil

inductive TimeInForce where
  | gtc
  | ioc
  deriving DecidableEq

structure OrderRequest where
  tag : String
  symbol : String
  side : Side
  kind : OrderKind
  quantity : Dec
  timeInForce : Option TimeInForce
  postOnly : Bool
  reduceOnly : Bool
  validateOnly : Bool
  /-- Used only for the minimum-cost check of market orders. -/
  referencePrice : Option Dec
  deriving DecidableEq

namespace OrderRequest

def base (tag symbol : String) (side : Side) (kind : OrderKind) (quantity : Dec) : OrderRequest where
  tag
  symbol
  side
  kind
  quantity
  timeInForce := none
  postOnly := false
  reduceOnly := false
  validateOnly := false
  referencePrice := none

def market (tag symbol : String) (side : Side) (quantity : Dec) : OrderRequest :=
  base tag symbol side .market quantity

/-- A market order with the price for its minimum-cost check. -/
def marketAt (tag symbol : String) (side : Side) (quantity : Dec) (price : Option Dec) : OrderRequest :=
  { market tag symbol side quantity with referencePrice := price }

end OrderRequest

/-- The body of a request, as far as an order needs it. -/
inductive JsonValue where
  | text (s : String)
  | flag (b : Bool)
  | object (fields : List (String × JsonValue))

def JsonValue.get : JsonValue → String → Option JsonValue
  | object fields, key => fields.lookup key
  | _, _ => none

structure SentOrder where
  brokerPair : String
  side : Side
  quantity : Dec
  price : Option Dec
  userref : Int
  validateOnly : Bool
  deriving DecidableEq

inductive ErrorClass where
  | invalidNonce
  | auth
  | rateLimited
  | serviceUnavailable
  | insufficientFunds
  | invalidArguments
  | orderRejected
  | unknownOrder
  | other
  deriving DecidableEq

structure ExchangeError where
  code : String
  errorClass : ErrorClass
  deriving DecidableEq

/-- After `unknownOutcome` the order may exist at the broker. -/
inductive PlaceOutcome where
  | accepted (brokerOrderId : String) (description : Option String) (sent : SentOrder)
      (warnings : List String)
  | validatedOnly (description : Option String) (sent : SentOrder) (warnings : List String)
  | rejected (errors : List ExchangeError) (sent : SentOrder)
  | unknownOutcome (reason : String) (sent : SentOrder)
  deriving DecidableEq

inductive OrderStatus where
  | pending
  | «open»
  | partiallyFilled
  | filled
  | partiallyFilledThenCanceled
  | partiallyFilledThenExpired
  | canceled
  | expired
  | rejected
  deriving DecidableEq

namespace OrderStatus

def isTerminal : OrderStatus → Bool
  | pending | «open» | partiallyFilled => false
  | _ => true

def debug : OrderStatus → String
  | pending => "Pending"
  | «open» => "Open"
  | partiallyFilled => "PartiallyFilled"
  | filled => "Filled"
  | partiallyFilledThenCanceled => "PartiallyFilledThenCanceled"
  | partiallyFilledThenExpired => "PartiallyFilledThenExpired"
  | canceled => "Canceled"
  | expired => "Expired"
  | rejected => "Rejected"

end OrderStatus

structure OrderReport where
  brokerOrderId : String
  /-- Ours, when the broker's reference is in our table. -/
  tag : Option String
  symbol : String
  side : Option Side
  status : OrderStatus
  quantity : Dec
  executedQuantity : Dec
  avgPrice : Option Dec
  /-- Total executed cost in the quote currency. -/
  cost : Option Dec
  fee : Option Dec
  deriving DecidableEq

structure CancelOutcome where
  canceledCount : Nat
  /-- Accepted, but not finished. -/
  pending : Bool
  deriving DecidableEq

inductive NonceError where
  | io (why : String)
  | corrupt (why : String)
  | exhausted
  deriving DecidableEq

def NonceError.display : NonceError → String
  | io why => s!"nonce store i/o error: {why}"
  | corrupt why => s!"nonce store is corrupt: {why}"
  | exhausted => "nonce space exhausted"

inductive TransportError where
  | connectFailed (why : String)
  | timeout
  | io (why : String)
  deriving DecidableEq

def TransportError.display : TransportError → String
  | connectFailed why => s!"connect failed: {why}"
  | timeout => "request timed out"
  | io why => s!"i/o error: {why}"

inductive BrokerError where
  | unknownSymbol (symbol : String)
  | invalidRequest (why : String)
  | unsupported (what : String)
  | quantityRoundsToZero (symbol : String) (requested rounded : Dec)
  | belowMinQuantity (symbol : String) (min rounded : Dec)
  | belowMinCost (symbol : String) (min cost : Dec)
  | invalidPrice (why : String)
  | pairNotTradable (symbol status : String)
  | credentials (why : String)
  | nonce (e : NonceError)
  | transport (e : TransportError)
  | http (status : Nat)
  | malformed (what : String)
  | exchange (errors : List ExchangeError)
  | notFound (what : String)
  | unknownTag (tag : String)
  | userref (why : String)
  | config (why : String)
  | rateLimited (retryAfterSecs : Option Nat) (message : String)
  | marketClosed (nextOpen nextClose : String)
  | accountBlocked (why : String)
  | preflight (why : String)
  | cancelTargetNotFound (id : String)
  | lookupInconclusive (why : String)
  deriving DecidableEq

def DecError.display [DebugText] : DecError → String
  | invalid text => s!"invalid decimal literal: {DebugText.quoted text}"
  | tooPrecise text => s!"decimal has more than {maxScale} fractional digits: {DebugText.quoted text}"
  | overflow => "decimal arithmetic overflow"
  | scaleTooLarge scale => s!"scale {scale} exceeds the maximum of {maxScale}"
  | badStep => "rounding step must be positive"

/-- `map_dec`: a failed calculation is a refused request. -/
def mapDec [DebugText] {α : Type} : Except DecError α → Except BrokerError α
  | .ok a => .ok a
  | .error e => .error (.invalidRequest e.display)

def mapPrice [DebugText] {α : Type} : Except DecError α → Except BrokerError α
  | .ok a => .ok a
  | .error e => .error (.invalidPrice e.display)

theorem mapDec_eq_ok [DebugText] {α : Type} {x : Except DecError α} {a : α} :
    mapDec x = .ok a ↔ x = .ok a := by
  cases x <;> simp [mapDec]

theorem mapPrice_eq_ok [DebugText] {α : Type} {x : Except DecError α} {a : α} :
    mapPrice x = .ok a ↔ x = .ok a := by
  cases x <;> simp [mapPrice]

def fmtRetryAfter : Option Nat → String
  | some secs => s!" (retry after {secs}s)"
  | none => ""

def joinCodes (errors : List ExchangeError) : String := ", ".intercalate (errors.map ExchangeError.code)

def BrokerError.display [DebugText] : BrokerError → String
  | unknownSymbol symbol => s!"unknown symbol: {symbol}"
  | invalidRequest why => s!"invalid order request: {why}"
  | unsupported what => s!"unsupported: {what}"
  | quantityRoundsToZero symbol requested rounded =>
      s!"{symbol}: quantity {requested.display} rounds down to {rounded.display} at the pair's lot precision, which is zero"
  | belowMinQuantity symbol min rounded =>
      s!"{symbol}: quantity {rounded.display} is below the pair minimum order size {min.display}"
  | belowMinCost symbol min cost =>
      s!"{symbol}: order cost {cost.display} is below the pair minimum cost {min.display}"
  | invalidPrice why => s!"invalid price: {why}"
  | pairNotTradable symbol status => s!"{symbol}: pair is not tradable (status {status})"
  | credentials why => s!"credentials: {why}"
  | nonce e => s!"nonce: {e.display}"
  | transport e => s!"transport: {e.display}"
  | http status => s!"unexpected HTTP status {status}"
  | malformed what => s!"malformed response: {what}"
  | exchange errors => s!"exchange error: {joinCodes errors}"
  | notFound what => s!"not found: {what}"
  | unknownTag tag => s!"order tag {DebugText.quoted tag} was never assigned a userref"
  | userref why => s!"userref: {why}"
  | config why => s!"configuration: {why}"
  | rateLimited retryAfterSecs message =>
      s!"rate limited{fmtRetryAfter retryAfterSecs}: {message}"
  | marketClosed nextOpen nextClose =>
      s!"market is closed (next open {nextOpen}, next close {nextClose}): market order refused"
  | accountBlocked why => s!"account cannot trade: {why}"
  | preflight why => s!"pre-order check failed, nothing was sent: {why}"
  | cancelTargetNotFound id =>
      s!"cancel target {id} was refused as unknown and the follow-up query found no such order"
  | lookupInconclusive why => s!"lookup by tag is inconclusive: {why}"

end BrokerAdapters
