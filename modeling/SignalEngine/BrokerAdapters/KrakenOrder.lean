import SignalEngine.BrokerAdapters.Order
import SignalEngine.BrokerAdapters.DecimalRounding
import SignalEngine.Lib.Casing
import SignalEngine.Lib.Outcome

/-! # Kraken order preparation

A request against one row of the pair table: the volume is rounded down to the
pair's lot decimals and refused when nothing or too little is left, a limit
price is rounded to the side where it is never worse than asked.
-/

open Outcome Text

namespace BrokerAdapters.Kraken

/-- One row of the pair table. -/
structure PairInfo where
  /-- `BASE/QUOTE`. -/
  canonical : String
  /-- The `pair` parameter of a request. -/
  altname : String
  restName : String
  wsName : String
  pairDecimals : Nat
  lotDecimals : Nat
  orderMin : Dec
  costMin : Option Dec
  tickSize : Option Dec
  status : Option String
  deriving DecidableEq

def PairInfo.matches (pair : PairInfo) (name : String) : Bool :=
  let n := trimmed name
  eqIgnoreAsciiCase pair.canonical n || eqIgnoreAsciiCase pair.altname n ||
    eqIgnoreAsciiCase pair.restName n || eqIgnoreAsciiCase pair.wsName n

structure PairTable where
  pairs : List PairInfo

/-- The first row any of whose names is this one. -/
def PairTable.lookup (table : PairTable) (name : String) : Option PairInfo :=
  table.pairs.find? fun pair => pair.matches name

structure PrepareOptions where
  allowReduceOnly : Bool
  forceValidate : Bool

def PrepareOptions.default : PrepareOptions := ⟨false, false⟩

structure PreparedOrder where
  symbol : String
  brokerPair : String
  side : Side
  requestedQuantity : Dec
  volume : Dec
  volumeDp : Nat
  price : Option Dec
  priceDp : Nat
  userref : Int
  timeInForce : Option TimeInForce
  postOnly : Bool
  reduceOnly : Bool
  validate : Bool
  costCheckSkipped : Bool

def checkTradable (pair : PairInfo) : Except BrokerError Unit :=
  match pair.status with
  | some status =>
      if status ≠ "online" then .error (.pairNotTradable pair.canonical status) else .ok ()
  | none => .ok ()

def checkRequest (req : OrderRequest) (opts : PrepareOptions) : Except BrokerError Unit := do
  if !req.quantity.isPositive then throw (.invalidRequest "quantity must be positive")
  if req.postOnly && !req.kind.isLimit then
    throw (.invalidRequest "post_only requires a limit order")
  if req.timeInForce.isSome && !req.kind.isLimit then
    throw (.invalidRequest "time_in_force is only supported on limit orders")
  if req.reduceOnly && !opts.allowReduceOnly then
    throw (.unsupported
      "reduce_only is not supported for spot orders; enable margin params explicitly or size the order to the held balance")

theorem checkRequest_market {tag symbol : String} {side : Side} {q price : Dec} {opts : PrepareOptions}
    {u : Unit} : checkRequest (OrderRequest.marketAt tag symbol side q (some price)) opts = .ok u ↔ q.isPositive = true := by
  simp [checkRequest, refuse_last_eq_ok, pure_eq_ok, OrderRequest.marketAt, OrderRequest.market, OrderRequest.base]

variable [DebugText]

/-- Round down to the lot decimals; refuse zero and sub-minimum. -/
def sizeVolume (pair : PairInfo) (quantity : Dec) : Except BrokerError Dec := do
  let volume ← mapDec (quantity.roundDp pair.lotDecimals .floor)
  if volume.isZero then throw (.quantityRoundsToZero pair.canonical quantity volume)
  if volume < pair.orderMin then throw (.belowMinQuantity pair.canonical pair.orderMin volume)
  return volume

/-- First to the decimals, then to the tick. -/
def limitPrice (pair : PairInfo) (side : Side) : OrderKind → Except BrokerError (Option Dec)
  | .market => .ok none
  | .limit price => do
      if !price.isPositive then throw (.invalidPrice "limit price must be positive")
      let mode := side.priceRounding
      let toDecimals ← mapPrice (price.roundDp pair.pairDecimals mode)
      let p ← match pair.tickSize with
        | some tick => mapPrice (toDecimals.roundToMultiple tick mode)
        | none => .ok toDecimals
      if p.normal.scale > pair.pairDecimals then
        let tick := match pair.tickSize with
          | some tick => s!"Some(Dec({tick.display}))"
          | none => "None"
        throw (.config
          s!"{pair.canonical}: tick size {tick} is finer than pair_decimals {pair.pairDecimals}")
      if !p.isPositive then throw (.invalidPrice s!"limit price {price.display} rounds to zero")
      return some p

/-- Whether the minimum cost could not be checked. -/
def checkCost (pair : PairInfo) (volume : Dec) (price : Option Dec) : Except BrokerError Bool :=
  match pair.costMin, price with
  | none, _ => .ok false
  | some _, none => .ok true
  | some minCost, some px =>
      match volume.checkedMul px with
      | none => .error (.invalidRequest "cost overflow")
      | some cost =>
          if cost < minCost then .error (.belowMinCost pair.canonical minCost cost) else .ok false

def prepareOrder (req : OrderRequest) (pair : PairInfo) (userref : Int) (opts : PrepareOptions) :
    Except BrokerError PreparedOrder := do
  checkTradable pair
  checkRequest req opts
  let volume ← sizeVolume pair req.quantity
  let price ← limitPrice pair req.side req.kind
  let costCheckSkipped ← checkCost pair volume (price.or req.referencePrice)
  return {
    symbol := pair.canonical
    brokerPair := pair.altname
    side := req.side
    requestedQuantity := req.quantity
    volume
    volumeDp := pair.lotDecimals
    price
    priceDp := pair.pairDecimals
    userref
    timeInForce := req.timeInForce
    postOnly := req.postOnly
    reduceOnly := req.reduceOnly
    validate := req.validateOnly || opts.forceValidate
    costCheckSkipped }

/-- `KrakenAdapter::prepare`, with the userref reserved for the tag. -/
def prepare (pairs : PairTable) (opts : PrepareOptions) (userref : Int) (req : OrderRequest) :
    Except BrokerError PreparedOrder :=
  match pairs.lookup req.symbol with
  | none => .error (.unknownSymbol req.symbol)
  | some pair => prepareOrder req pair userref opts

def timeInForceParam : TimeInForce → String
  | .gtc => "GTC"
  | .ioc => "IOC"

/-- The form parameters of `AddOrder`, without the nonce. -/
def PreparedOrder.toParams (order : PreparedOrder) : Except BrokerError (List (String × String)) := do
  let volume ← mapDec (order.volume.toFixed order.volumeDp)
  let price ← match order.price with
    | some px => do
        let text ← mapDec (px.toFixed order.priceDp)
        pure [("price", text)]
    | none => pure []
  return [("pair", order.brokerPair), ("type", order.side.asStr),
      ("ordertype", if order.price.isSome then "limit" else "market"), ("volume", volume)] ++
    price ++
    (match order.timeInForce with
      | some tif => [("timeinforce", timeInForceParam tif)]
      | none => []) ++
    (if order.postOnly then [("oflags", "post")] else []) ++
    [("userref", toString order.userref)] ++
    (if order.reduceOnly then [("reduce_only", "true")] else []) ++
    (if order.validate then [("validate", "true")] else [])

theorem sizeVolume_eq_ok {pair : PairInfo} {q v : Dec} :
    sizeVolume pair q = .ok v ↔
      q.roundDp pair.lotDecimals .floor = .ok v ∧ ¬ v.isZero = true ∧ ¬ v < pair.orderMin := by
  simp only [sizeVolume, bind_eq_ok, mapDec_eq_ok, refuse_eq_ok, pure_eq_ok]
  constructor
  · rintro ⟨_, rounded, nonzero, enough, rfl⟩
    exact ⟨rounded, nonzero, enough⟩
  · rintro ⟨rounded, nonzero, enough⟩
    exact ⟨v, rounded, nonzero, enough, rfl⟩

theorem sizeVolume_again {pair : PairInfo} {q v : Dec} (sized : sizeVolume pair q = .ok v) :
    sizeVolume pair v = .ok v := by
  obtain ⟨rounded, rest⟩ := sizeVolume_eq_ok.1 sized
  obtain ⟨scale, -⟩ := Dec.roundDp_floor_eq_ok.1 rounded
  exact sizeVolume_eq_ok.2 ⟨scale ▸ v.roundDp_floor_self, rest⟩

def marketOrder (pair : PairInfo) (side : Side) (requested volume : Dec) (userref : Int)
    (opts : PrepareOptions) (costCheckSkipped : Bool) : PreparedOrder :=
  ⟨pair.canonical, pair.altname, side, requested, volume, pair.lotDecimals, none, pair.pairDecimals,
    userref, none, false, false, opts.forceValidate, costCheckSkipped⟩

theorem prepareOrder_market {pair : PairInfo} {tag symbol : String} {side : Side} {q price : Dec}
    {userref : Int} {opts : PrepareOptions} {order : PreparedOrder} :
    prepareOrder (OrderRequest.marketAt tag symbol side q (some price)) pair userref opts = .ok order ↔
      checkTradable pair = .ok () ∧ q.isPositive = true ∧ ∃ volume skipped,
        sizeVolume pair q = .ok volume ∧ checkCost pair volume (some price) = .ok skipped ∧
        marketOrder pair side q volume userref opts skipped = order := by
  simp only [prepareOrder, bind_eq_ok, checkRequest_market, pure_eq_ok]
  constructor
  · rintro ⟨⟨⟩, tradable, ⟨⟩, positive, volume, sized, price, market, skipped, cost, made⟩
    obtain rfl := Except.ok.inj market
    exact ⟨tradable, positive, volume, skipped, sized, cost, made⟩
  · rintro ⟨tradable, positive, volume, skipped, sized, cost, made⟩
    exact ⟨(), tradable, (), positive, volume, sized, none, rfl, skipped, cost, made⟩

theorem toParams_volume (pair : PairInfo) (side : Side) (requested : Dec) {volume : Dec} (userref : Int)
    (opts : PrepareOptions) (skipped : Bool) (scale : volume.scale = pair.lotDecimals) :
    ∃ params, (marketOrder pair side requested volume userref opts skipped).toParams = .ok params ∧
      params.lookup "volume" = some volume.display := by
  have text : mapDec (volume.toFixed pair.lotDecimals) = .ok volume.display := by
    rw [mapDec_eq_ok, ← scale]
    exact volume.toFixed_self
  simp only [PreparedOrder.toParams, marketOrder, text]
  exact ⟨_, rfl, rfl⟩

end BrokerAdapters.Kraken
