import SignalEngine.FakeBroker.Money
import SignalEngine.BrokerAdapters.Order

/-! # The simulated exchange

Accounts with balances, one controllable price for each pair, orders with their
fills, scripted behaviour and cancels. Every operation returns the exchange it
leaves behind together with its answer; a `Panic` is an assertion of the source
or a decimal that does not fit.
-/

open BrokerAdapters Outcome Text

namespace FakeBroker

open Money

/-! ## Pairs, fees and scripts -/

structure PairSpec where
  /-- `BASE/QUOTE`. -/
  canonical : String
  pairDecimals : Nat
  lotDecimals : Nat
  orderMin : Dec
  costMin : Dec
  tickSize : Dec
  status : String

/-- The asset before the slash of a pair name, or the whole name. -/
def baseOf (canonical : String) : String :=
  match splitFirst (· == '/') canonical.toList with
  | some (base, _) => String.ofList base
  | none => canonical

def quoteOf (canonical : String) : String :=
  match splitFirst (· == '/') canonical.toList with
  | some (_, quote) => String.ofList quote
  | none => ""

def PairSpec.base (spec : PairSpec) : String := baseOf spec.canonical

def PairSpec.quote (spec : PairSpec) : String := quoteOf spec.canonical

structure PairMarket where
  spec : PairSpec
  last : Dec
  bid : Dec
  ask : Dec
  spread : Dec

/-- Fee rates as fractions of the cost, charged in the quote currency. -/
structure FeeSchedule where
  maker : Dec
  taker : Dec

inductive Liquidity where
  | maker
  | taker
  deriving DecidableEq

inductive Status where
  | pending
  | «open»
  /-- Fully filled. -/
  | closed
  | canceled
  | expired
  deriving DecidableEq

def Status.asKraken : Status → String
  | pending => "pending"
  | «open» => "open"
  | closed => "closed"
  | canceled => "canceled"
  | expired => "expired"

def Status.isLive : Status → Bool
  | pending | «open» => true
  | _ => false

inductive Tif where
  | gtc
  | ioc
  deriving DecidableEq

/-- How a fill shows up in order reports; the fill itself is not touched. -/
inductive ReportGlitch where
  | normal
  | dropped
  | duplicated
  deriving DecidableEq

inductive StepAmount where
  | qty (q : Dec)
  /-- Of the order volume, floored to the lot decimals. -/
  | fraction (f : Dec)
  | remainder
  deriving DecidableEq

/-- One scripted execution; without a price, at the limit price or the touch. -/
structure FillStep where
  amount : StepAmount
  price : Option Dec
  deriving DecidableEq

/-- What the exchange does with an order after accepting it. -/
inductive FillPolicy where
  | auto
  | fullFill (price : Option Dec)
  | partly (steps : List FillStep)
  | noFill
  | pending
  | reject (codes : List String)
  deriving DecidableEq

structure OrderMatcher where
  pair : Option String
  side : Option Side
  userref : Option Int
  /-- Market orders only, or limit orders only. -/
  market : Option Bool

def OrderMatcher.matches (m : OrderMatcher) (pair : String) (side : Side) (kind : OrderKind)
    (userref : Option Int) : Bool :=
  m.pair.all (· == pair) && m.side.all (· == side) && m.userref.all (fun u => some u == userref) &&
    m.market.all (· == !kind.isLimit)

/-- The next `remaining` matching orders get the policy. -/
structure OrderRule where
  matcher : OrderMatcher
  policy : FillPolicy
  remaining : Nat

/-! ## Orders and accounts -/

structure Fill where
  id : String
  order : String
  qty : Dec
  price : Dec
  cost : Dec
  fee : Dec
  timeNanos : Nat
  liquidity : Liquidity
  report : ReportGlitch

structure Order where
  txid : String
  account : String
  seq : Nat
  /-- Canonical name. -/
  pair : String
  side : Side
  kind : OrderKind
  volume : Dec
  userref : Option Int
  tif : Tif
  postOnly : Bool
  status : Status
  reason : Option String
  openTimeNanos : Nat
  closeTimeNanos : Option Nat
  fills : List Fill
  foreign : Bool
  /-- A cancel was accepted and is not processed yet. -/
  cancelRequested : Bool
  policy : FillPolicy
  queue : List FillStep
  reservePrice : Dec

namespace Order

def volExec (o : Order) : Except Panic Dec := sum (o.fills.map Fill.qty)

def remaining (o : Order) : Except Panic Dec := do
  let executed ← o.volExec
  sub o.volume executed

def cost (o : Order) : Except Panic Dec := sum (o.fills.map Fill.cost)

end Order

structure NewOrder where
  account : String
  pair : String
  side : Side
  kind : OrderKind
  volume : Dec
  userref : Option Int
  tif : Tif
  postOnly : Bool
  validate : Bool

/-- Someone else's order on the account, perhaps partly filled already. -/
structure ForeignOrder where
  pair : String
  side : Side
  kind : OrderKind
  volume : Dec
  userref : Option Int
  filled : Dec

inductive Placed where
  | validated
  | created (txid : String)

inductive Reject where
  | unknownPair (name : String)
  | invalidArguments (what : String)
  | orderMinimumNotMet
  | costMinimumNotMet
  | insufficientFunds
  | postOnlyWouldCross
  | marketMode (status : String)
  | unknownOrder
  | scripted (codes : List String)

inductive CancelTarget where
  | txid (t : String)
  | userref (u : Int)

def CancelTarget.hits (target : CancelTarget) (o : Order) : Bool :=
  match target with
  | .txid t => o.txid == t
  | .userref u => o.userref == some u

structure CancelResult where
  count : Nat
  pending : Bool
  txids : List String

/-- Amounts by asset; an asset that is not listed has none. -/
abbrev Amounts := Std.ExtTreeMap String Dec

def Amounts.of (m : Amounts) (asset : String) : Dec := m[asset]?.getD Dec.zero

structure AccountState where
  balances : Amounts
  /-- Deposits, withdrawals and unexplained drift. -/
  external : Amounts
  fees : Option FeeSchedule

structure Core where
  seed : UInt64
  pairs : Std.ExtTreeMap String PairMarket
  accounts : Std.ExtTreeMap String AccountState
  orders : List Order
  index : Std.ExtTreeMap String Nat
  feeDefault : FeeSchedule
  defaultPolicy : FillPolicy
  rules : List OrderRule
  armedGlitches : List ReportGlitch
  deferredCancels : Nat
  nextOrder : UInt64
  nextFill : UInt64

/-! ## Identifiers -/

def mix (z : UInt64) : UInt64 :=
  let z := (z ^^^ (z >>> 30)) * 0xBF58476D1CE4E5B9
  let z := (z ^^^ (z >>> 27)) * 0x94D049BB133111EB
  z ^^^ (z >>> 31)

def ALPHABET : List Char := "ABCDEFGHIJKLMNOPQRSTUVWXYZ234567".toList

/-- The low groups of five bits, the last one at the end. -/
def encode : UInt64 → Nat → List Char
  | _, 0 => []
  | v, len + 1 => encode (v >>> 5) len ++ [ALPHABET.getD (v &&& 31).toNat 'A']

def krakenStyleId (first : Char) (seed counter : UInt64) : String :=
  let m := mix (seed ^^^ mix counter)
  String.ofList (first :: encode m 5 ++ '-' :: encode (m >>> 25) 5 ++ '-' :: encode counter 6)

namespace Core

def new (seed : UInt64) (fees : FeeSchedule) : Core where
  seed
  pairs := ∅
  accounts := ∅
  orders := []
  index := ∅
  feeDefault := fees
  defaultPolicy := .auto
  rules := []
  armedGlitches := []
  deferredCancels := 0
  nextOrder := 1
  nextFill := 1

/-! ## Setup -/

def addPair (core : Core) (spec : PairSpec) (price : Dec) : Except Panic Core := do
  let spread := spec.tickSize
  let ask ← add price spread
  return { core with pairs := core.pairs.insert spec.canonical ⟨spec, price, price, ask, spread⟩ }

def addAccount (core : Core) (name : String) : Core :=
  if core.accounts.contains name then core
  else { core with accounts := core.accounts.insert name ⟨∅, ∅, none⟩ }

def market (core : Core) (pair : String) : Except Panic PairMarket :=
  match core.pairs[pair]? with
  | some m => .ok m
  | none => .error (.assertion s!"fake-broker: unknown pair {pair}")

def acct (core : Core) (name : String) : Except Panic AccountState :=
  match core.accounts[name]? with
  | some a => .ok a
  | none => .error (.assertion s!"fake-broker: unknown account {name}")

def orderAt (core : Core) (idx : Nat) : Except Panic Order :=
  match core.orders[idx]? with
  | some o => .ok o
  | none => .error (.assertion "index out of bounds")

def setPairStatus (core : Core) (canonical status : String) : Except Panic Core := do
  let m ← core.market canonical
  return { core with pairs := core.pairs.insert canonical { m with spec := { m.spec with status } } }

def setAccountFees (core : Core) (account : String) (fees : Option FeeSchedule) : Except Panic Core := do
  let a ← core.acct account
  return { core with accounts := core.accounts.insert account { a with fees } }

def feeRate (core : Core) (account : String) (liquidity : Liquidity) : Except Panic Dec := do
  let a ← core.acct account
  let f := a.fees.getD core.feeDefault
  return match liquidity with
    | .maker => f.maker
    | .taker => f.taker

/-! ## Balances -/

/-- What one live order commits of `asset`: quote at the reserve price and the
    taker fee for a buy, base for a sell. -/
def reservedBy (core : Core) (taker : Dec) (asset : String) (total : Dec) (o : Order) :
    Except Panic Dec := do
  let m ← core.market o.pair
  let rem ← o.remaining
  match o.side with
  | .buy =>
      if m.spec.quote = asset then do
        let cost ← mul rem o.reservePrice
        let factor ← add ⟨⟨1, Dec.fits_one⟩, 0, Dec.scale_zero⟩ taker
        let held ← mul cost factor
        add total held
      else return total
  | .sell => if m.spec.base = asset then add total rem else return total

def reserved (core : Core) (account asset : String) : Except Panic Dec := do
  let taker ← core.feeRate account .taker
  let live := core.orders.filter fun o => o.account == account && o.status.isLive
  live.foldlM (core.reservedBy taker asset) Dec.zero

def available (core : Core) (account asset : String) : Except Panic Dec := do
  let a ← core.acct account
  let held ← core.reserved account asset
  sub (a.balances.of asset) held

def externalAdjust (core : Core) (account asset : String) (delta : Dec) : Except Panic Core := do
  let a ← core.acct account
  let balance ← add (a.balances.of asset) delta
  if balance.isNegative then
    throw (.assertion s!"fake-broker: external adjustment would make {asset} balance negative")
  let external ← add (a.external.of asset) delta
  let moved := { a with
    balances := a.balances.insert asset balance
    external := a.external.insert asset external }
  return { core with accounts := core.accounts.insert account moved }

def setBalance (core : Core) (account asset : String) (amount : Dec) : Except Panic Core := do
  let a ← core.acct account
  let delta ← sub amount (a.balances.of asset)
  core.externalAdjust account asset delta

/-! ## Matching and filling -/

def touch (core : Core) (pair : String) (side : Side) : Except Panic Dec := do
  let m ← core.market pair
  return match side with
    | .buy => m.ask
    | .sell => m.bid

def crosses (core : Core) (pair : String) (side : Side) (limit : Dec) : Except Panic Bool := do
  let t ← core.touch pair side
  return match side with
    | .buy => t ≤ limit
    | .sell => limit ≤ t

def withOrder (core : Core) (idx : Nat) (change : Order → Order) : Core :=
  match core.orders[idx]? with
  | some o => { core with orders := core.orders.set idx (change o) }
  | none => core

def closeOrder (core : Core) (now idx : Nat) (status : Status) (reason : String) : Core :=
  core.withOrder idx fun o =>
    { o with status, reason := some reason, closeTimeNanos := some now, cancelRequested := false }

def finishIoc (core : Core) (now idx : Nat) : Except Panic Core := do
  let o ← core.orderAt idx
  if o.tif = .ioc && o.status.isLive then
    return core.closeOrder now idx .canceled "Immediate-or-cancel"
  else return core

end Core

/-- The two sides of an execution, on amounts by asset. -/
def applyTrade (m : Amounts) (pair : String) (side : Side) (qty cost fee : Dec) :
    Except Panic Amounts := do
  let base := baseOf pair
  let quote := quoteOf pair
  match side with
  | .buy => do
      let nb ← add (m.of base) qty
      let paid ← add cost fee
      let nq ← sub (m.of quote) paid
      return (m.insert base nb).insert quote nq
  | .sell => do
      let nb ← sub (m.of base) qty
      let received ← sub cost fee
      let nq ← add (m.of quote) received
      return (m.insert base nb).insert quote nq

def affordable (balances : Amounts) (pair : String) (side : Side) (qty cost fee : Dec) :
    Except Panic Bool := do
  match side with
  | .buy => do
      let paid ← add cost fee
      return paid ≤ balances.of (quoteOf pair)
  | .sell => return qty ≤ balances.of (baseOf pair)

/-- A fill in the list; the order closes when nothing remains. -/
def Order.filled (o : Order) (now : Nat) (fill : Fill) : Except Panic Order := do
  let o := { o with fills := o.fills ++ [fill] }
  let rest ← o.remaining
  if rest.isPositive then return o
  else return { o with status := .closed, closeTimeNanos := some now, cancelRequested := false }

namespace Core

/-- Execute `qty` at `price`, or cancel an order that cannot be paid. The answer
    says whether the fill happened. -/
def fillInternal (core : Core) (now idx : Nat) (qty price : Dec) (liquidity : Liquidity) :
    Except Panic (Core × Bool) := do
  let o ← core.orderAt idx
  if !qty.isPositive then throw (.assertion "fake-broker: fill quantity must be positive")
  let remaining ← o.remaining
  if ¬ qty ≤ remaining then
    throw (.assertion s!"fake-broker: fill of {qty.display} exceeds the remaining volume of {o.txid}")
  let m ← core.market o.pair
  let cost ← mul qty price
  let rate ← core.feeRate o.account liquidity
  let fee ← mul cost rate
  let a ← core.acct o.account
  let canPay ← affordable a.balances m.spec.canonical o.side qty cost fee
  if !canPay then return (core.closeOrder now idx .canceled "Insufficient funds", false)
  let balances ← applyTrade a.balances m.spec.canonical o.side qty cost fee
  let fill : Fill := {
    id := krakenStyleId 'T' core.seed core.nextFill
    order := o.txid
    qty
    price
    cost
    fee
    timeNanos := now
    liquidity
    report := core.armedGlitches.head?.getD .normal }
  let filled ← o.filled now fill
  return ({ core with
    accounts := core.accounts.insert o.account { a with balances }
    armedGlitches := core.armedGlitches.tail
    nextFill := core.nextFill + 1
    orders := core.orders.set idx filled }, true)

/-- Price and fee side of an order that matches by itself; `none` when it does
    not cross. -/
def autoPrice (core : Core) (o : Order) (atPlacement : Bool) : Except Panic (Option (Dec × Liquidity)) :=
  match o.kind with
  | .market => do
      let t ← core.touch o.pair o.side
      return some (t, .taker)
  | .limit price => do
      let crossing ← core.crosses o.pair o.side price
      if !crossing then return none
      else if atPlacement then do
        let t ← core.touch o.pair o.side
        return some (t, .taker)
      else return some (price, .maker)

def tryAutoFill (core : Core) (now idx : Nat) (atPlacement : Bool) : Except Panic Core := do
  let o ← core.orderAt idx
  if o.status ≠ .open ∨ o.policy ≠ .auto then return core
  else do
    let qty ← o.remaining
    if !qty.isPositive then return core
    else do
      match ← core.autoPrice o atPlacement with
      | none => return core
      | some (px, liq) => do
          let (core, _) ← core.fillInternal now idx qty px liq
          return core

/-- Every resting order of the pair, in the order of placement. -/
def matchResting (core : Core) (now : Nat) (pair : String) : Except Panic Core :=
  (List.range core.orders.length).foldlM (fun core idx => do
    let o ← core.orderAt idx
    if o.pair = pair then core.tryAutoFill now idx false else return core) core

/-- Only at placement can a limit take from the book. -/
def takesAt (core : Core) (o : Order) (limit : Dec) (atPlacement : Bool) : Except Panic Bool :=
  if atPlacement then core.crosses o.pair o.side limit else .ok false

/-- The price of a scripted fill: its own, else the limit price or the touch. -/
def scriptedPrice (core : Core) (o : Order) (price : Option Dec) (atPlacement : Bool) :
    Except Panic (Dec × Liquidity) :=
  match price, o.kind with
  | some p, .market => return (p, .taker)
  | some p, .limit _ => return (p, .maker)
  | none, .market => do
      let t ← core.touch o.pair o.side
      return (t, .taker)
  | none, .limit price => do
      let crossing ← core.takesAt o price atPlacement
      if crossing then do
        let t ← core.touch o.pair o.side
        return (t, .taker)
      else return (price, .maker)

def stepQty (spec : PairSpec) (o : Order) (remaining : Dec) : StepAmount → Except Panic Dec
  | .qty q => .ok q
  | .fraction f => do
      let part ← mul o.volume f
      match part.roundDp spec.lotDecimals .floor with
      | .ok q => return q
      | .error _ => throw (.assertion "lot decimals within scale")
  | .remainder => .ok remaining

/-- Apply the next queued step of a script. The answer says whether there was one. -/
def applyNextStep (core : Core) (now idx : Nat) (atPlacement : Bool) : Except Panic (Core × Bool) := do
  let o ← core.orderAt idx
  match o.queue with
  | [] => return (core, false)
  | step :: queue => do
      let core := core.withOrder idx fun o => { o with queue }
      let remaining ← o.remaining
      let m ← core.market o.pair
      let qty ← stepQty m.spec o remaining step.amount
      if ¬ (qty.isPositive ∧ qty ≤ remaining) then
        throw (.assertion <| s!"fake-broker script error: a step fills {qty.display} " ++
          s!"but order {o.txid} has {remaining.display} remaining")
      let (px, liq) ← core.scriptedPrice o step.price atPlacement
      let (core, _) ← core.fillInternal now idx qty px liq
      return (core, true)

/-! ## Market moves -/

def setPrice (core : Core) (now : Nat) (canonical : String) (price : Dec) : Except Panic Core := do
  let m ← core.market canonical
  let ask ← add price m.spread
  let core := { core with
    pairs := core.pairs.insert canonical { m with last := price, bid := price, ask } }
  core.matchResting now canonical

def setSpread (core : Core) (canonical : String) (spread : Dec) : Except Panic Core := do
  let m ← core.market canonical
  let ask ← add m.bid spread
  return { core with pairs := core.pairs.insert canonical { m with spread, ask } }

def setQuote (core : Core) (now : Nat) (canonical : String) (bid ask last : Dec) : Except Panic Core := do
  let m ← core.market canonical
  let core := { core with pairs := core.pairs.insert canonical { m with bid, ask, last } }
  core.matchResting now canonical

/-! ## Placing -/

/-- The policy of a new order; a rule that is used up is removed. -/
def takePolicy (core : Core) (new : NewOrder) (consume : Bool) : FillPolicy × Core :=
  let fits (r : OrderRule) := r.remaining > 0 && r.matcher.matches new.pair new.side new.kind new.userref
  match core.rules.findIdx? fits with
  | none => (core.defaultPolicy, core)
  | some i =>
      match core.rules[i]? with
      | none => (core.defaultPolicy, core)
      | some rule =>
          if !consume then (rule.policy, core)
          else if rule.remaining = 1 then
            (rule.policy, { core with rules := core.rules.eraseIdx i })
          else (rule.policy,
            { core with rules := core.rules.set i { rule with remaining := rule.remaining - 1 } })

/-- The price that sizes an order: its limit, checked against the pair's
    decimals and tick, or the touch. -/
def refPrice (core : Core) (spec : PairSpec) (new : NewOrder) : Except Panic (Except Reject Dec) :=
  match new.kind with
  | .market => do
      let t ← core.touch new.pair new.side
      return .ok t
  | .limit price =>
      if !price.isPositive || price.normal.scale > spec.pairDecimals then
        return .error (.invalidArguments "price")
      else match price.roundToMultiple spec.tickSize .floor with
        | .ok p => return if p.eq price then .ok price else .error (.invalidArguments "price")
        | .error _ => return .error (.invalidArguments "price")

def checkStatus (spec : PairSpec) (new : NewOrder) : Except Reject Unit :=
  match spec.status with
  | "online" => .ok ()
  | "post_only" =>
      if new.kind.isLimit && new.postOnly then .ok () else .error (.marketMode "post_only")
  | "limit_only" => if new.kind.isLimit then .ok () else .error (.marketMode "limit_only")
  | other => .error (.marketMode other)

def checkArguments (spec : PairSpec) (new : NewOrder) : Except Reject Unit := do
  if !new.volume.isPositive then throw (.invalidArguments "volume")
  if new.volume.normal.scale > spec.lotDecimals then throw (.invalidArguments "volume")
  if new.postOnly && !new.kind.isLimit then throw (.invalidArguments "oflags")
  if new.tif = .ioc && !new.kind.isLimit then throw (.invalidArguments "timeinforce")

def wouldCross (core : Core) (new : NewOrder) : Except Panic Bool :=
  match new.kind with
  | .limit price => if new.postOnly then core.crosses new.pair new.side price else .ok false
  | .market => .ok false

/-- The minimums, the post-only test and the funds of an order sized at `ref`. -/
def checkSize (core : Core) (spec : PairSpec) (new : NewOrder) (ref : Dec) :
    Except Panic (Except Reject Unit) := do
  if new.volume < spec.orderMin then return .error .orderMinimumNotMet
  else do
    let cost ← mul new.volume ref
    if cost < spec.costMin then return .error .costMinimumNotMet
    else do
      let crossing ← core.wouldCross new
      if crossing then return .error .postOnlyWouldCross
      else do
        let taker ← core.feeRate new.account .taker
        match new.side with
        | .buy => do
            let factor ← add ⟨⟨1, Dec.fits_one⟩, 0, Dec.scale_zero⟩ taker
            let need ← mul cost factor
            let free ← core.available new.account spec.quote
            return if need > free then .error .insufficientFunds else .ok ()
        | .sell => do
            let free ← core.available new.account spec.base
            return if new.volume > free then .error .insufficientFunds else .ok ()

def checkOrder (core : Core) (new : NewOrder) : Except Panic (Except Reject Unit) :=
  match core.pairs[new.pair]? with
  | none => return .error (.unknownPair new.pair)
  | some m =>
      match checkStatus m.spec new with
      | .error e => return .error e
      | .ok () =>
          match checkArguments m.spec new with
          | .error e => return .error e
          | .ok () => do
              match ← core.refPrice m.spec new with
              | .error e => return .error e
              | .ok ref => core.checkSize m.spec new ref

/-- The price that sizes the funds an order reserves. -/
def reserveAt (core : Core) (new : NewOrder) : Except Panic Dec :=
  match new.kind with
  | .limit price => .ok price
  | .market => core.touch new.pair new.side

/-- The order a request becomes; a policy that waits or scripts shows in it. -/
def newOrder (core : Core) (now : Nat) (new : NewOrder) (policy : FillPolicy) (foreign : Bool)
    (reservePrice : Dec) : Order where
  txid := krakenStyleId 'O' core.seed core.nextOrder
  account := new.account
  seq := core.nextOrder.toNat
  pair := new.pair
  side := new.side
  kind := new.kind
  volume := new.volume
  userref := new.userref
  tif := new.tif
  postOnly := new.postOnly
  status := if policy = .pending then .pending else .open
  reason := none
  openTimeNanos := now
  closeTimeNanos := none
  fills := []
  foreign
  cancelRequested := false
  policy := if policy = .pending then .auto else policy
  queue := match policy with
    | .partly steps => steps
    | _ => []
  reservePrice

def pushOrder (core : Core) (o : Order) : Core :=
  { core with
    nextOrder := core.nextOrder + 1
    index := core.index.insert o.txid core.orders.length
    orders := core.orders ++ [o] }

/-- The price of a full fill: a given price is taken, a limit is made. -/
def fullFillPrice (core : Core) (o : Order) (price : Option Dec) : Except Panic (Dec × Liquidity) :=
  match price, o.kind with
  | some p, _ => return (p, .taker)
  | none, .market => do
      let t ← core.touch o.pair o.side
      return (t, .taker)
  | none, .limit price => return (price, .maker)

def startPolicy (core : Core) (now idx : Nat) (o : Order) : FillPolicy → Except Panic Core
  | .auto => core.tryAutoFill now idx true
  | .fullFill price => do
      let (px, liq) ← core.fullFillPrice o price
      let (core, _) ← core.fillInternal now idx o.volume px liq
      return core
  | .partly _ => do
      let (core, _) ← core.applyNextStep now idx true
      return core
  | .noFill | .pending | .reject _ => return core

def create (core : Core) (now : Nat) (new : NewOrder) (policy : FillPolicy) (foreign : Bool) :
    Except Panic (Core × Except Reject Placed) := do
  let reservePrice ← core.reserveAt new
  let o := core.newOrder now new policy foreign reservePrice
  let idx := core.orders.length
  let started ← (core.pushOrder o).startPolicy now idx o policy
  let finished ← started.finishIoc now idx
  return (finished, .ok (.created o.txid))

/-- The checks of an order whose policy is known, and its creation. -/
def createChecked (core : Core) (now : Nat) (new : NewOrder) (policy : FillPolicy) (foreign : Bool) :
    Except Panic (Core × Except Reject Placed) :=
  match policy with
  | .reject codes => .ok (core, .error (.scripted codes))
  | policy => do
      match ← core.checkOrder new with
      | .error e => return (core, .error e)
      | .ok () => if new.validate then return (core, .ok .validated) else core.create now new policy foreign

def placeInner (core : Core) (now : Nat) (new : NewOrder) (forced : Option FillPolicy)
    (foreign : Bool) : Except Panic (Core × Except Reject Placed) :=
  if !core.accounts.contains new.account then
    .error (.assertion s!"fake-broker: unknown account {new.account}")
  else
    let (policy, core) := match forced with
      | some p => (p, core)
      | none => core.takePolicy new (!new.validate)
    core.createChecked now new policy foreign

def place (core : Core) (now : Nat) (new : NewOrder) : Except Panic (Core × Except Reject Placed) :=
  core.placeInner now new none false

/-! ## Scripted order control -/

def idxOf (core : Core) (txid : String) : Except String Nat :=
  match core.index[txid]? with
  | some idx => .ok idx
  | none => .error s!"unknown order {txid}"

def applyNextFill (core : Core) (now : Nat) (txid : String) : Except Panic (Core × Except String Unit) :=
  match core.idxOf txid with
  | .error e => return (core, .error e)
  | .ok idx => do
      let o ← core.orderAt idx
      if !o.status.isLive then return (core, .error s!"order {txid} is {o.status.asKraken}")
      else do
        let (core, done) ← core.applyNextStep now idx false
        return (core, if done then .ok () else .error s!"order {txid} has no scripted fill left")

def scriptFill (core : Core) (now : Nat) (txid : String) (qty : Dec) (price : Option Dec) :
    Except Panic (Core × Except String Unit) :=
  match core.idxOf txid with
  | .error e => return (core, .error e)
  | .ok idx => do
      let o ← core.orderAt idx
      if !o.status.isLive then return (core, .error s!"order {txid} is {o.status.asKraken}")
      else do
        let remaining ← o.remaining
        if !qty.isPositive || qty > remaining then
          return (core, .error
            s!"fill {qty.display} does not fit the remaining {remaining.display} of {txid}")
        else do
          let (px, liq) ← core.scriptedPrice o price false
          let (core, done) ← core.fillInternal now idx qty px liq
          return (core, if done then .ok () else
            .error s!"insufficient funds to execute the fill on {txid}; the order was closed")

/-- An order that is partly filled from the start; a fill that does not fit is
    reported after the order was placed. -/
def addForeignOrder (core : Core) (now : Nat) (account : String) (f : ForeignOrder) :
    Except Panic (Core × Except Reject String) := do
  let new : NewOrder := ⟨account, f.pair, f.side, f.kind, f.volume, f.userref, .gtc, false, false⟩
  let (core, placed) ← core.placeInner now new (some .auto) true
  match placed with
  | .error e => return (core, .error e)
  | .ok .validated => throw (.assertion "validate is false")
  | .ok (.created txid) =>
      if f.filled.isPositive then do
        let (core, filled) ← core.scriptFill now txid f.filled none
        match filled with
        | .ok () => return (core, .ok txid)
        | .error why => return (core, .error (.invalidArguments why))
      else return (core, .ok txid)

def activate (core : Core) (now : Nat) (txid : String) : Except Panic (Core × Except String Unit) :=
  match core.idxOf txid with
  | .error e => return (core, .error e)
  | .ok idx => do
      let o ← core.orderAt idx
      if o.status ≠ .pending then return (core, .error s!"order {txid} is not pending")
      else do
        let core := core.withOrder idx fun o => { o with status := .open }
        let core ← core.tryAutoFill now idx true
        let core ← core.finishIoc now idx
        return (core, .ok ())

/-- `expire` and `cancel_from_exchange`: end a live order from outside. -/
def endLive (core : Core) (now : Nat) (txid : String) (status : Status) (reason : String) :
    Except Panic (Core × Except String Unit) :=
  match core.idxOf txid with
  | .error e => return (core, .error e)
  | .ok idx => do
      let o ← core.orderAt idx
      if !o.status.isLive then return (core, .error s!"order {txid} is not live")
      else return (core.closeOrder now idx status reason, .ok ())

def expire (core : Core) (now : Nat) (txid reason : String) : Except Panic (Core × Except String Unit) :=
  core.endLive now txid .expired reason

def cancelFromExchange (core : Core) (now : Nat) (txid reason : String) :
    Except Panic (Core × Except String Unit) :=
  core.endLive now txid .canceled reason

/-! ## Cancels -/

/-- The positions of the orders that satisfy `p`. -/
def positions (core : Core) (p : Order → Bool) : List Nat :=
  (core.orders.zipIdx.filter fun (o, _) => p o).map Prod.snd

def cancelAll (core : Core) (now : Nat) (idxs : List Nat) : Core :=
  idxs.foldl (fun core idx => core.closeOrder now idx .canceled "User requested") core

def requestAll (core : Core) (idxs : List Nat) : Core :=
  idxs.foldl (fun core idx => core.withOrder idx fun o => { o with cancelRequested := true }) core

def cancel (core : Core) (now : Nat) (account : String) (target : CancelTarget) :
    Core × Except Reject CancelResult :=
  let idxs := core.positions fun o => o.account == account && o.status.isLive && target.hits o
  if idxs.isEmpty then (core, .error .unknownOrder)
  else
    let txids := idxs.filterMap fun idx => core.orders[idx]?.map Order.txid
    let count := min txids.length (2 ^ 32 - 1)
    if core.deferredCancels > 0 then
      let core := { core with deferredCancels := core.deferredCancels - 1 }
      (core.requestAll idxs, .ok ⟨count, true, txids⟩)
    else (core.cancelAll now idxs, .ok ⟨count, false, txids⟩)

def settlePendingCancels (core : Core) (now : Nat) : Core × Nat :=
  let idxs := core.positions fun o => o.cancelRequested && o.status.isLive
  (core.cancelAll now idxs, idxs.length)

end Core

/-! ## Runs -/

inductive Op where
  | addPair (spec : PairSpec) (price : Dec)
  | addAccount (name : String)
  | setPairStatus (canonical status : String)
  | setFeeDefault (fees : FeeSchedule)
  | setAccountFees (account : String) (fees : Option FeeSchedule)
  | setDefaultPolicy (policy : FillPolicy)
  | pushRule (rule : OrderRule)
  | clearRules
  | armGlitch (glitch : ReportGlitch)
  | deferNextCancels (n : Nat)
  | externalAdjust (account asset : String) (delta : Dec)
  | setBalance (account asset : String) (amount : Dec)
  | setPrice (now : Nat) (canonical : String) (price : Dec)
  | setSpread (canonical : String) (spread : Dec)
  | setQuote (now : Nat) (canonical : String) (bid ask last : Dec)
  | place (now : Nat) (new : NewOrder)
  | addForeignOrder (now : Nat) (account : String) (f : ForeignOrder)
  | applyNextFill (now : Nat) (txid : String)
  | scriptFill (now : Nat) (txid : String) (qty : Dec) (price : Option Dec)
  | activate (now : Nat) (txid : String)
  | expire (now : Nat) (txid reason : String)
  | cancelFromExchange (now : Nat) (txid reason : String)
  | cancel (now : Nat) (account : String) (target : CancelTarget)
  | settlePendingCancels (now : Nat)

def Core.apply (core : Core) : Op → Except Panic Core
  | .addPair spec price => core.addPair spec price
  | .addAccount name => .ok (core.addAccount name)
  | .setPairStatus canonical status => core.setPairStatus canonical status
  | .setFeeDefault fees => .ok { core with feeDefault := fees }
  | .setAccountFees account fees => core.setAccountFees account fees
  | .setDefaultPolicy policy => .ok { core with defaultPolicy := policy }
  | .pushRule rule => .ok { core with rules := core.rules ++ [rule] }
  | .clearRules => .ok { core with rules := [] }
  | .armGlitch glitch => .ok { core with armedGlitches := core.armedGlitches ++ [glitch] }
  | .deferNextCancels n => .ok { core with deferredCancels := n }
  | .externalAdjust account asset delta => core.externalAdjust account asset delta
  | .setBalance account asset amount => core.setBalance account asset amount
  | .setPrice now canonical price => core.setPrice now canonical price
  | .setSpread canonical spread => core.setSpread canonical spread
  | .setQuote now canonical bid ask last => core.setQuote now canonical bid ask last
  | .place now new => Prod.fst <$> core.place now new
  | .addForeignOrder now account f => Prod.fst <$> core.addForeignOrder now account f
  | .applyNextFill now txid => Prod.fst <$> core.applyNextFill now txid
  | .scriptFill now txid qty price => Prod.fst <$> core.scriptFill now txid qty price
  | .activate now txid => Prod.fst <$> core.activate now txid
  | .expire now txid reason => Prod.fst <$> core.expire now txid reason
  | .cancelFromExchange now txid reason => Prod.fst <$> core.cancelFromExchange now txid reason
  | .cancel now account target => .ok (core.cancel now account target).1
  | .settlePendingCancels now => .ok (core.settlePendingCancels now).1

def Core.run (core : Core) (ops : List Op) : Except Panic Core := ops.foldlM Core.apply core

/-! ## The exchange's own check -/

def firstComplaint {α : Type} (check : α → Except Panic (Except String Unit)) :
    List α → Except Panic (Except String Unit)
  | [] => .ok (.ok ())
  | a :: as => do
      match ← check a with
      | .error why => return .error why
      | .ok () => firstComplaint check as

/-- The balances that the external ledger and every fill of the account give. -/
def Core.expected (core : Core) (name : String) (acct : AccountState) : Except Panic Amounts :=
  (core.orders.filter fun o => o.account == name).foldlM (fun m o => do
    let market ← core.market o.pair
    o.fills.foldlM (fun m f => applyTrade m market.spec.canonical o.side f.qty f.cost f.fee) m)
    acct.external

def checkAsset (name : String) (balances expected : Amounts) (asset : String) : Except String Unit :=
  let held := balances.of asset
  let want := expected.of asset
  if held.isNegative then .error s!"{name}: {asset} balance is negative ({held.display})"
  else if !held.eq want then
    .error s!"{name}: {asset} balance {held.display} != ledger {want.display}"
  else .ok ()

def Core.checkAccount (core : Core) (entry : String × AccountState) : Except Panic (Except String Unit) := do
  let (name, acct) := entry
  let expected ← core.expected name acct
  let assets := (Std.ExtTreeSet.ofList (acct.balances.keys ++ expected.keys)).toList
  return assets.forM (checkAsset name acct.balances expected)

def Order.check (o : Order) : Except Panic (Except String Unit) := do
  let exec ← o.volExec
  if exec > o.volume then
    return .error s!"{o.txid}: executed {exec.display} exceeds volume {o.volume.display}"
  else if o.status = .closed && !exec.eq o.volume then
    return .error s!"{o.txid}: closed but executed {exec.display} of {o.volume.display}"
  else if o.status.isLive && o.volume ≤ exec then
    return .error s!"{o.txid}: live but fully executed"
  else do
    let costs ← o.fills.mapM fun f => mul f.qty f.price
    let costFromFills ← sum costs
    let cost ← o.cost
    if !costFromFills.eq cost then
      return .error s!"{o.txid}: cost {cost.display} != sum(qty*price) {costFromFills.display}"
    else if o.fills.any fun f => !f.qty.isPositive || f.fee.isNegative then
      return .error s!"{o.txid}: a fill has a non-positive quantity or a negative fee"
    else return .ok ()

def Core.checkInvariants (core : Core) : Except Panic (Except String Unit) := do
  match ← firstComplaint core.checkAccount core.accounts.toList with
  | .error why => return .error why
  | .ok () => firstComplaint Order.check core.orders

end FakeBroker
