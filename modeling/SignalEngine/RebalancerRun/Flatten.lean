import SignalEngine.RebalancerRun.Broker
import SignalEngine.RebalancerCore.Planner

/-! # Flatten

Cancel our open orders, buy back every short and sell every long of the
mandate's universe, round after round, then read the account once more and
report. Every problem becomes a coded failure of the report.
-/

open BrokerAdapters Interaction Text

namespace RebalancerRun

open RebalancerCore (Instant Sha256 VenueRuleBook)
open RebalancerCore.DecMath (neg add sub divFloor)

/-! ## Tags -/

def flattenTagPrefix : String := "rb1:fl:"

section Tags

variable [UnicodeCase] [Sha256]

def legTag (account attemptKey symbol leg : String) (k : Nat) : String :=
  let identity := s!"flatten:{account}:{attemptKey}:{symbol}:{leg}:{k}"
  let hash := String.ofList ((Sha256.hexDigest identity).toList.take 16)
  let attempt := String.ofList ((attemptKey.toList.filter Char.isAlphanum).take 20)
  let readable := toUppercase (String.ofList ((symbol.toList.filter Char.isAlphanum).take 10))
  s!"{flattenTagPrefix}{attempt}:{readable}:{k}:{hash}"

def flattenTag (account attemptKey symbol : String) (k : Nat) : String :=
  legTag account attemptKey symbol "sell" k

def flattenCoverTag (account attemptKey symbol : String) (k : Nat) : String :=
  legTag account attemptKey symbol "cover" k

end Tags

/-! ## Report -/

inductive FlattenCode where
  | readFailed
  | cancelFailed
  | cancelTargetNotFound
  | cancelUnsettled
  | shortHeld
  | cannotSize
  | lookupFailed
  | orderNotSent
  | orderRejected
  | orderUnsettled
  | duplicateFillAnomaly
  | openOrdersRemain
  | notFlat
  deriving DecidableEq

def FlattenCode.asStr : FlattenCode → String
  | readFailed => "FLATTEN_READ_FAILED"
  | cancelFailed => "FLATTEN_CANCEL_FAILED"
  | cancelTargetNotFound => "FLATTEN_CANCEL_TARGET_NOT_FOUND"
  | cancelUnsettled => "FLATTEN_CANCEL_UNSETTLED"
  | shortHeld => "FLATTEN_SHORT_HELD"
  | cannotSize => "FLATTEN_CANNOT_SIZE"
  | lookupFailed => "FLATTEN_LOOKUP_FAILED"
  | orderNotSent => "FLATTEN_ORDER_NOT_SENT"
  | orderRejected => "FLATTEN_ORDER_REJECTED"
  | orderUnsettled => "FLATTEN_ORDER_UNSETTLED"
  | duplicateFillAnomaly => "FLATTEN_DUPLICATE_FILL_ANOMALY"
  | openOrdersRemain => "FLATTEN_OPEN_ORDERS_REMAIN"
  | notFlat => "FLATTEN_NOT_FLAT"

/-- An order may still be live, or the broker's reports contradict each other. -/
def FlattenCode.isBlocking : FlattenCode → Bool
  | cancelUnsettled | orderUnsettled | duplicateFillAnomaly | openOrdersRemain | notFlat => true
  | _ => false

structure FlattenFailure where
  code : FlattenCode
  message : String
  deriving DecidableEq

def failureList (failures : List FlattenFailure) : String :=
  " | ".intercalate (failures.map fun (f : FlattenFailure) => s!"{f.code.asStr}: {f.message}")

structure CancelRecord where
  brokerOrderId : String
  tag : Option String
  canceledCount : Nat
  /-- The state of the order after the cancel. -/
  finalStatus : OrderStatus
  executedQuantity : Dec
  deriving DecidableEq

inductive FlattenOutcome where
  | filled
  | partiallyFilled
  | nothingExecuted
  | rejected
  | notSent
  | unknownNotFound
  | unsettled
  deriving DecidableEq

structure FlattenOrder where
  tag : String
  symbol : String
  side : Side
  /-- The quantity sent. -/
  quantity : Dec
  brokerOrderId : Option String
  outcome : FlattenOutcome
  status : Option OrderStatus
  executedQuantity : Dec
  avgPrice : Option Dec
  cost : Option Dec
  fee : Option Dec
  /-- The outcome of the placement was unknown and the order was found by its tag. -/
  adoptedByTag : Bool
  deriving DecidableEq

structure DustRecord where
  symbol : String
  quantity : Dec
  reason : String
  deriving DecidableEq

inductive FlattenVerdict where
  | flat
  | flatWithDust
  | haltAndAlert
  deriving DecidableEq

def FlattenVerdict.asStr : FlattenVerdict → String
  | flat => "FLAT"
  | flatWithDust => "FLAT_WITH_DUST"
  | haltAndAlert => "HALT_AND_ALERT"

structure FlattenReport where
  attemptKey : String
  startedAt : Instant
  finishedAt : Instant
  rounds : Nat
  cancels : List CancelRecord
  orders : List FlattenOrder
  dust : List DustRecord
  unmanaged : List DustRecord
  foreignOpenOrders : List String
  failures : List FlattenFailure
  residual : List DustRecord
  verifiedFlat : Bool
  verdict : FlattenVerdict
  deriving DecidableEq

def FlattenReport.summary (r : FlattenReport) : String :=
  s!"flatten {r.verdict.asStr}: {r.orders.length} order(s), {r.cancels.length} cancel(s), {r.dust.length} dust, {r.failures.length} failure(s): {failureList r.failures}"

structure FlattenSpec where
  accountId : String
  /-- The same key on a second call gives the same tags. -/
  attemptKey : String
  /-- Upper-case symbols; nothing else is traded. -/
  «universe» : Std.ExtTreeSet String
  venueRules : VenueRuleBook
  knownOrderIds : Std.ExtTreeSet String
  maxRounds : Nat
  maxPolls : Nat
  pollSecs : Nat
  maxTagIndex : Nat

def FlattenSpec.new (accountId attemptKey : String) («universe» : Std.ExtTreeSet String)
    (venueRules : VenueRuleBook) (knownOrderIds : Std.ExtTreeSet String) : FlattenSpec :=
  ⟨accountId, attemptKey, «universe», venueRules, knownOrderIds, 4, 3, 1, 25⟩

structure Flattener where
  cancels : List CancelRecord
  orders : List FlattenOrder
  failures : List FlattenFailure
  foreign : Std.ExtTreeSet String
  /-- The short first seen for each symbol: the most a cover may buy back. -/
  firstShort : Std.ExtTreeMap String Dec

def Flattener.new : Flattener := ⟨[], [], [], ∅, ∅⟩

abbrev FlattenM := Broker.Calls Flattener

def fail (code : FlattenCode) (message : String) : FlattenM Unit :=
  modify fun f => { f with failures := f.failures ++ [⟨code, message⟩] }

def failIf (problem : Bool) (code : FlattenCode) (message : String) : FlattenM Unit :=
  if problem then fail code message else pure ()

def containsChars (part : List Char) : List Char → Bool
  | [] => part.isEmpty
  | c :: cs => part.isPrefixOf (c :: cs) || containsChars part cs

def isAnomaly : BrokerError → Bool
  | .malformed m => containsChars "overfill anomaly".toList m.toList
  | _ => false

/-! ## Cancelling -/

section Calls

variable [DebugText]

/-- Read the order until it has ended, `polls` times at most. -/
def pollOrder (spec : FlattenSpec) (id : String) : (polls : Nat) →
    FlattenM (Option (Except BrokerError OrderReport))
  | 0 => pure none
  | polls + 1 => do
      match ← Broker.getOrder id with
      | .error e => pure (some (.error e))
      | .ok r =>
          if r.status.isTerminal then pure (some (.ok r))
          else if polls = 0 then pollOrder spec id polls
          else do
            Broker.sleepSecs spec.pollSecs
            pollOrder spec id polls

/-- Poll an order until it ends; cancel it if it will not end. -/
def settle (spec : FlattenSpec) (id : String) : FlattenM (Except BrokerError OrderReport) := do
  match ← pollOrder spec id spec.maxPolls with
  | some result => pure result
  | none =>
      match ← Broker.cancelAndSettle id with
      | .error e => pure (.error e)
      | .ok (_, report) =>
          failIf (!report.status.isTerminal) .orderUnsettled
            s!"order {id} is still {report.status.debug} after polling and a cancel"
          pure (.ok report)

/-- The newest cancel record now carries the final state of its order. -/
def amendLast (r : OrderReport) : List CancelRecord → List CancelRecord
  | [] => []
  | [c] => [{ c with finalStatus := r.status, executedQuantity := r.executedQuantity }]
  | c :: cs => c :: amendLast r cs

/-- A pending cancel is given time, then looked at again. -/
def confirmCancel (spec : FlattenSpec) (id : String) : FlattenM Unit := do
  match ← settle spec id with
  | .ok r =>
      if !r.status.isTerminal then
        fail .cancelUnsettled s!"order {id} is still {r.status.debug} after the cancel"
      else modify fun f => { f with cancels := amendLast r f.cancels }
  | .error e => fail .cancelUnsettled s!"order {id}: could not confirm the cancel: {e.display}"

def cancelOpenOrder (spec : FlattenSpec) (o : OrderReport) : FlattenM Unit := do
  if !isOwnOrder o spec.knownOrderIds then
    modify fun f => { f with foreign := f.foreign.insert o.brokerOrderId }
  else
    match ← Broker.cancelAndSettle o.brokerOrderId with
    | .ok (outcome, report) =>
        modify fun f => { f with
          cancels := f.cancels ++ [⟨o.brokerOrderId, o.tag, outcome.canceledCount, report.status,
            report.executedQuantity⟩] }
        if !report.status.isTerminal then confirmCancel spec o.brokerOrderId
    | .error (.cancelTargetNotFound id) =>
        fail .cancelTargetNotFound
          s!"cancel target {id} was refused as unknown and not found: the next read decides"
    | .error e =>
        if isAnomaly e then fail .duplicateFillAnomaly s!"order {o.brokerOrderId}: {e.display}"
        else fail .cancelFailed s!"cancelling {o.brokerOrderId}: {e.display}"

/-- Cancel every open order of ours; `false` when they could not be listed. -/
def cancelOwnOpenOrders (spec : FlattenSpec) : FlattenM Bool := do
  match ← Broker.openOrders with
  | .error e =>
      fail .readFailed s!"could not list open orders: {e.display}"
      pure false
  | .ok orders =>
      orders.forM (cancelOpenOrder spec)
      pure true

end Calls

/-! ## Placing -/

section Legs

variable [UnicodeCase] [Sha256] [DebugText]

/-- The first index from `k` on that the broker has no order for, `left` tries at most. -/
def freeTagFrom (spec : FlattenSpec) (symbol : String) (side : Side) (k : Nat) : (left : Nat) →
    FlattenM (Option String)
  | 0 => do
      fail .lookupFailed s!"every flatten tag index up to {spec.maxTagIndex} is used for {symbol}"
      pure none
  | left + 1 => do
      let tag := match side with
        | .buy => flattenCoverTag spec.accountId spec.attemptKey symbol k
        | .sell => flattenTag spec.accountId spec.attemptKey symbol k
      match ← Broker.findByTag tag with
      | .ok [] => pure (some tag)
      | .ok _ => freeTagFrom spec symbol side (k + 1) left
      | .error e =>
          fail .lookupFailed s!"cannot verify that tag {tag} is unused ({e.display}); not sending"
          pure none

def freeTag (spec : FlattenSpec) (symbol : String) (side : Side) : FlattenM (Option String) :=
  freeTagFrom spec symbol side 1 spec.maxTagIndex

/-- The order a leg sends, as far as the report needs it. -/
structure Leg where
  tag : String
  symbol : String
  side : Side
  quantity : Dec

def reportOutcome (report : OrderReport) : FlattenOutcome :=
  if report.status = .filled then .filled
  else if report.executedQuantity.isPositive then .partiallyFilled
  else if report.status.isTerminal then .nothingExecuted
  else .unsettled

def recordReport (leg : Leg) (report : OrderReport) (adopted : Bool) : FlattenM Unit :=
  modify fun f => { f with
    orders := f.orders ++ [⟨leg.tag, leg.symbol, leg.side, leg.quantity, some report.brokerOrderId,
      reportOutcome report, some report.status, report.executedQuantity, report.avgPrice,
      report.cost, report.fee, adopted⟩] }

def recordUnsent (leg : Leg) (outcome : FlattenOutcome) : FlattenM Unit :=
  modify fun f => { f with
    orders := f.orders ++ [⟨leg.tag, leg.symbol, leg.side, leg.quantity, none, outcome, none,
      Dec.zero, none, none, none, false⟩] }

def settleAndRecord (spec : FlattenSpec) (leg : Leg) (id : String) (adopted : Bool) :
    FlattenM Unit := do
  match ← settle spec id with
  | .ok report => recordReport leg report adopted
  | .error e =>
      if isAnomaly e then do
        fail .duplicateFillAnomaly s!"order {id}: {e.display}"
        recordUnsent leg .unsettled
      else do
        fail .orderUnsettled s!"order {id}: could not read its final state: {e.display}"
        recordUnsent leg .unsettled

/-- Send the order; after an unknown outcome look for it, and go on with `missing`
    when nothing is found. -/
def sendLeg (spec : FlattenSpec) (leg : Leg) (req : OrderRequest) (missing : String → FlattenM Unit) :
    FlattenM Unit := do
  let verb := if leg.side = .buy then "cover" else "sell"
  match ← Broker.place req with
  | .ok (.accepted brokerOrderId _ _ _) => settleAndRecord spec leg brokerOrderId false
  | .ok (.validatedOnly _ _ _) =>
      fail .orderNotSent s!"{leg.symbol}: the broker only validated the order"
      recordUnsent leg .notSent
  | .ok (.rejected errors _) =>
      fail .orderRejected s!"{leg.symbol}: the broker rejected the {verb}: {joinCodes errors}"
      recordUnsent leg .rejected
  | .ok (.unknownOutcome reason _) =>
      match ← Broker.findByTag leg.tag with
      | .ok (found :: _) => settleAndRecord spec leg found.brokerOrderId true
      | .ok [] => missing reason
      | .error e =>
          fail .lookupFailed
            s!"{leg.symbol}: outcome unknown ({reason}) and the lookup failed ({e.display}); not retrying"
          recordUnsent leg .unknownNotFound
  | .error e =>
      fail .orderNotSent s!"{leg.symbol}: the {verb} was not sent: {e.display}"
      recordUnsent leg .notSent

/-- Send one market order that reduces a position, and settle it. -/
def placeLeg (spec : FlattenSpec) (symbol : String) (side : Side) (qty price : Dec) :
    FlattenM Unit := do
  match ← freeTag spec symbol side with
  | none => pure ()
  | some tag =>
      let req := { OrderRequest.market tag symbol side qty with referencePrice := some price }
      let leg : Leg := ⟨tag, symbol, side, qty⟩
      -- Nothing found after the first attempt: one more with the same tag.
      sendLeg spec leg req fun _ => sendLeg spec leg req fun reason => do
        fail .orderNotSent
          s!"{symbol}: outcome unknown ({reason}) and no order exists after 2 attempts"
        recordUnsent leg .unknownNotFound

/-- Bought back in this call: what executed, plus the whole of every order whose
    end is not known. -/
def coverQuantityUsed (orders : List FlattenOrder) (symbol : String) : Dec :=
  (orders.filter fun o => o.side = .buy && eqIgnoreAsciiCase o.symbol symbol).foldl
    (fun total o =>
      match add total (if o.outcome = .unsettled then o.quantity else o.executedQuantity) with
      | .ok sum => sum
      | .error _ => total)
    Dec.zero

def subOrZero (a b : Dec) : Dec :=
  match sub a b with
  | .ok d => d
  | .error _ => Dec.zero

/-- The allowance as a quantity the venue takes, never above it. -/
def coverSize (spec : FlattenSpec) (venue symbol : String) (allowance price : Dec) : Option Dec :=
  match spec.venueRules.get venue with
  | none => none
  | some rules =>
      match rules.roundQuantity symbol .buy allowance price with
      | .ok q => if q ≤ allowance then some q else none
      | .error _ => none

/-- Buy back a short, bounded by the short first seen for the symbol. -/
def cover (spec : FlattenSpec) (venue symbol : String) (qty price : Dec) : FlattenM Unit := do
  let key := toUppercase symbol
  modify fun f => { f with firstShort := f.firstShort.insertIfNew key qty }
  let f ← get
  let first := f.firstShort.getD key qty
  let used := coverQuantityUsed f.orders symbol
  let allowance := subOrZero first used
  if !allowance.isPositive then
    fail .shortHeld
      s!"{key}: a short is still reported after {used.display} was bought to cover {first.display}; not buying more"
  else if allowance < qty then
    match coverSize spec venue symbol allowance price with
    | some q => placeLeg spec symbol .buy q price
    | none =>
        fail .shortHeld
          s!"{key}: the remaining cover allowance {allowance.display} cannot be sized; not buying more"
  else placeLeg spec symbol .buy qty price

def sell (spec : FlattenSpec) (symbol : String) (qty price : Dec) : FlattenM Unit :=
  placeLeg spec symbol .sell qty price

end Legs

/-! ## What a reading says to trade -/

/-- An order to send: symbol, magnitude and reference price. -/
structure Close where
  symbol : String
  quantity : Dec
  price : Dec
  deriving DecidableEq

structure SellPlan where
  /-- One per short; placed before any sell. -/
  covers : List Close
  sells : List Close
  dust : List DustRecord
  unmanaged : List DustRecord
  blockers : List FlattenFailure
  deriving DecidableEq

def SellPlan.empty : SellPlan := ⟨[], [], [], [], []⟩

/-- The broker's mark, else the value per unit. -/
def priceOf (h : Holding) : Option Dec :=
  match h.mark.filter Dec.isPositive with
  | some mark => some mark
  | none => do
      -- Value and quantity of a short are both negative.
      let value ← if h.quantity.isNegative then (neg h.marketValue).toOption else some h.marketValue
      let qty ← if h.quantity.isNegative then (neg h.quantity).toOption else some h.quantity
      if qty.isPositive && value.isPositive then
        (divFloor value qty 8).toOption.filter Dec.isPositive
      else none

/-- The side that closes the holding, and its magnitude. -/
def closing (h : Holding) : Option (Side × Dec) :=
  if h.quantity.isNegative then
    match neg h.quantity with
    | .ok magnitude => some (.buy, magnitude)
    | .error _ => none
  else some (.sell, h.quantity)

/-- What rounding `held` down to `q` leaves, with the sign of the position. -/
def restOf (side : Side) (held q : Dec) : Dec :=
  let rest := match sub held q with
    | .ok d => d
    | .error _ => held
  match side with
  | .buy =>
      match neg rest with
      | .ok d => d
      | .error _ => rest
  | .sell => rest

namespace SellPlan

def block (plan : SellPlan) (message : String) : SellPlan :=
  { plan with blockers := plan.blockers ++ [⟨.cannotSize, message⟩] }

def addDust (plan : SellPlan) (symbol : String) (quantity : Dec) (reason : String) : SellPlan :=
  { plan with dust := plan.dust ++ [⟨symbol, quantity, reason⟩] }

def addClose (plan : SellPlan) (side : Side) (close : Close) : SellPlan :=
  match side with
  | .buy => { plan with covers := plan.covers ++ [close] }
  | .sell => { plan with sells := plan.sells ++ [close] }

def addSized (plan : SellPlan) (sym : String) (h : Holding) (side : Side) (held q price : Dec) :
    SellPlan :=
  if held < q then
    plan.block s!"{sym}: venue rounding produced {q.display}, more than the {held.display} held"
  else
    let noted :=
      if q < held then
        plan.addDust sym (restOf side held q) "below the venue's lot precision after rounding down"
      else plan
    noted.addClose side ⟨h.symbol, q, price⟩

variable [UnicodeCase]

def addHolding (spec : FlattenSpec) (venue : String) (plan : SellPlan) (h : Holding) : SellPlan :=
  let sym := toUppercase h.symbol
  if h.quantity.isZero then plan
  else if !spec.universe.contains sym then
    { plan with
      unmanaged := plan.unmanaged ++ [⟨sym, h.quantity, "not in the mandate's universe: left alone"⟩] }
  else
    match closing h with
    | none => plan.block s!"{sym}: the short of {h.quantity.display} cannot be sized"
    | some (side, held) =>
        let verb := if side = .buy then "cover" else "sell"
        match spec.venueRules.get venue, priceOf h with
        | some rules, some price =>
            match rules.roundQuantity h.symbol side held price with
            | .ok q => plan.addSized sym h side held q price
            | .error .roundsToZero | .error (.belowMinQuantity _) | .error (.belowMinCost _) =>
                plan.addDust sym h.quantity "below the venue's minimum order: reported, not sent"
            | .error refusal => plan.block s!"{sym}: {refusal.display}"
        | _, _ =>
            plan.block s!"{sym}: no venue rules or no price to size a {verb} of {held.display}"

end SellPlan

def planSells [UnicodeCase] (spec : FlattenSpec) (venue : String) (snap : BrokerSnapshot) : SellPlan :=
  (snap.holdings.insertionSort fun a b => a.symbol ≤ b.symbol).foldl
    (SellPlan.addHolding spec venue) SellPlan.empty

/-! ## The whole call -/

/-- Where the rounds stand: how many were begun, and what the newest reading left aside. -/
structure Rounds where
  rounds : Nat
  dust : List DustRecord
  unmanaged : List DustRecord
  deriving DecidableEq

structure Verification where
  dust : List DustRecord
  unmanaged : List DustRecord
  residual : List DustRecord
  verifiedFlat : Bool
  deriving DecidableEq

def SellPlan.residual [UnicodeCase] (plan : SellPlan) : List DustRecord :=
  plan.covers.map (fun c =>
    let short := match neg c.quantity with
      | .ok d => d
      | .error _ => c.quantity
    ⟨toUppercase c.symbol, short, "short still open after flatten"⟩) ++
  plan.sells.map fun c => ⟨toUppercase c.symbol, c.quantity, "still held after flatten"⟩

def addBlockers (blockers failures : List FlattenFailure) : List FlattenFailure :=
  blockers.foldl (fun known b => if known.contains b then known else known ++ [b]) failures

def verdictOf (verifiedFlat : Bool) (failures : List FlattenFailure) (dust : List DustRecord) :
    FlattenVerdict :=
  if !verifiedFlat || failures.any (fun f => f.code.isBlocking) then .haltAndAlert
  else if dust.isEmpty then .flat
  else .flatWithDust

section Flatten

variable [UnicodeCase] [Sha256] [DebugText]

def trade (spec : FlattenSpec) (venue : String) (plan : SellPlan) : FlattenM Unit := do
  plan.covers.forM fun c => cover spec venue c.symbol c.quantity c.price
  plan.sells.forM fun c => sell spec c.symbol c.quantity c.price

/-- Cancel, read, trade, `left` times at most. -/
def runRounds (spec : FlattenSpec) (venue : String) (at_ : Rounds) : (left : Nat) → FlattenM Rounds
  | 0 => pure at_
  | left + 1 => do
      let begun := { at_ with rounds := at_.rounds + 1 }
      let listed ← cancelOwnOpenOrders spec
      if !listed then pure begun
      else
        let now ← Broker.now
        match ← Broker.snapshot now with
        | .error e =>
            fail .readFailed s!"could not read the account: {e.display}"
            pure begun
        | .ok snap =>
            let plan := planSells spec venue snap
            let read := { begun with dust := plan.dust, unmanaged := plan.unmanaged }
            if plan.covers.isEmpty && plan.sells.isEmpty then pure read
            else do
              trade spec venue plan
              runRounds spec venue read left

/-- What the reading `snap` says about the account after the rounds. -/
def verifyWith (spec : FlattenSpec) (venue : String) (snap : BrokerSnapshot) :
    FlattenM Verification := do
  let plan := planSells spec venue snap
  let residual := plan.residual
  modify fun f => { f with
    failures := addBlockers plan.blockers f.failures
    foreign := (snap.openOrders.filter fun o => !isOwnOrder o spec.knownOrderIds).foldl
      (fun foreign o => foreign.insert o.brokerOrderId) f.foreign }
  let list := ", ".intercalate (residual.map fun r => s!"{r.quantity.display} {r.symbol}")
  failIf (!residual.isEmpty) .notFlat s!"still holding: {list}"
  failIf (snap.openOrders.any fun o => isOwnOrder o spec.knownOrderIds) .openOrdersRemain
    "one of our orders is still open after the flatten"
  let f ← get
  pure ⟨plan.dust, plan.unmanaged, residual, residual.isEmpty &&
    !f.failures.any fun x => x.code == .shortHeld || x.code == .cannotSize⟩

/-- Verification from a fresh reading, never from what we think we traded. -/
def verify (spec : FlattenSpec) (venue : String) (at_ : Rounds) : FlattenM Verification := do
  let now ← Broker.now
  match ← Broker.snapshot now with
  | .error e =>
      fail .readFailed s!"could not verify flat: {e.display}"
      pure ⟨at_.dust, at_.unmanaged, [], false⟩
  | .ok snap => verifyWith spec venue snap

def flattenCall (spec : FlattenSpec) (venue : String) : FlattenM FlattenReport := do
  let startedAt ← Broker.now
  let done ← runRounds spec venue ⟨0, [], []⟩ spec.maxRounds
  let checked ← verify spec venue done
  let finishedAt ← Broker.now
  let f ← get
  pure {
    attemptKey := spec.attemptKey
    startedAt
    finishedAt
    rounds := done.rounds
    cancels := f.cancels
    orders := f.orders
    dust := checked.dust
    unmanaged := checked.unmanaged
    foreignOpenOrders := f.foreign.toList
    failures := f.failures
    residual := checked.residual
    verifiedFlat := checked.verifiedFlat
    verdict := verdictOf checked.verifiedFlat f.failures checked.dust }

/-- One call of flatten against a broker of `venue`. -/
def flatten (spec : FlattenSpec) (venue : String) : Prog BrokerOp BrokerOp.Answer FlattenReport :=
  (flattenCall spec venue).run' Flattener.new

end Flatten

end RebalancerRun
