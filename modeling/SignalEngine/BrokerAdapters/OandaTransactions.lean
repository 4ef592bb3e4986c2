import SignalEngine.BrokerAdapters.OandaOrder
import Std.Data.ExtTreeSet

/-! # The OANDA transaction stream

An order is known from the transactions that name it: its creation, its fills
and its cancels. They are read from a page of the stream, either for all orders
that carry a tag or for one order by its id.
-/

open MachineInt Outcome Text

namespace BrokerAdapters.Oanda

/-! ## Bodies -/

/-- A JSON value; a number is kept as it is printed. -/
inductive Value where
  | null
  | bool (b : Bool)
  | number (text : String)
  | string (s : String)
  | array (items : List Value)
  | object (fields : List (String × Value))

namespace Value

def get : Value → String → Option Value
  | object fields, key => fields.lookup key
  | _, _ => none

def asStr : Value → Option String
  | string s => some s
  | _ => none

def asArray : Value → Option (List Value)
  | array items => some items
  | _ => none

end Value

/-- The JSON library. -/
class JsonText where
  fromStr : String → Option Value

def okOr {α : Type} (e : BrokerError) : Option α → Except BrokerError α
  | some a => .ok a
  | none => .error e

theorem okOr_eq_ok {α : Type} {e : BrokerError} {o : Option α} {a : α} : okOr e o = .ok a ↔ o = some a := by
  cases o <;> simp [okOr]

def refuse (c : Prop) [Decidable c] (e : BrokerError) : Except BrokerError Unit := if c then .error e else .ok ()

theorem refuse_of {c : Prop} [Decidable c] (holds : c) (e : BrokerError) : refuse c e = .error e := if_pos holds

theorem refuse_of_not {c : Prop} [Decidable c] (fails : ¬ c) (e : BrokerError) : refuse c e = .ok () := if_neg fails

theorem refuse_eq_ok {c : Prop} [Decidable c] {e : BrokerError} {u : Unit} : refuse c e = .ok u ↔ ¬ c := by
  by_cases h : c <;> simp [refuse, h]

def optStr (obj : Value) (field : String) : Option String :=
  ((obj.get field).bind Value.asStr).filter fun s => s ≠ ""

def reqStr (obj : Value) (field : String) : Except BrokerError String :=
  okOr (.malformed s!"missing or empty field `{field}`") (optStr obj field)

def Value.digits : Value → Option String
  | string s => some s
  | number text => some text
  | _ => none

def decFromValue (field : String) (v : Value) : Except BrokerError Dec := do
  let text ← okOr (.malformed s!"field `{field}` is not a number") v.digits
  okOr (.malformed s!"field `{field}` is not a decimal") (Dec.parse text).toOption

def optDec (obj : Value) (field : String) : Except BrokerError (Option Dec) :=
  match obj.get field with
  | none | some .null => .ok none
  | some v => some <$> decFromValue field v

def reqDec (obj : Value) (field : String) : Except BrokerError Dec := do
  okOr (.malformed s!"missing field `{field}`") (← optDec obj field)

/-- An unsigned 64-bit number; a plus sign is allowed. -/
def parseU64 (s : String) : Option Nat :=
  let digits := match s.toList with
    | '+' :: cs => cs
    | cs => cs
  if digits ≠ [] ∧ allDigits digits then
    let n := Nat.ofDigitChars 10 digits 0
    if n < 2 ^ 64 then some n else none
  else none

/-! ## Transactions -/

structure FillInfo where
  id : String
  orderId : String
  clientOrderId : Option String
  instrument : String
  /-- Signed. -/
  units : Dec
  price : Dec
  pl : Option Dec
  commission : Option Dec
  financing : Option Dec
  reason : Option String
  deriving DecidableEq

structure CancelInfo where
  id : String
  orderId : String
  clientOrderId : Option String
  reason : String
  deriving DecidableEq

structure RejectInfo where
  id : Option String
  reason : String
  clientOrderId : Option String
  deriving DecidableEq

structure CreateInfo where
  id : String
  kind : String
  instrument : Option String
  units : Option Dec
  price : Option Dec
  timeInForce : Option String
  clientId : Option String
  deriving DecidableEq

def clientIdOf (v : Value) : Option String := (v.get "clientExtensions").bind fun c => optStr c "id"

section

variable [DebugText]

def parseFill (v : Value) : Except BrokerError FillInfo := do
  return {
    id := ← reqStr v "id"
    orderId := ← reqStr v "orderID"
    clientOrderId := optStr v "clientOrderID"
    instrument := ← normalizeInstrument (← reqStr v "instrument")
    units := ← reqDec v "units"
    price := ← reqDec v "price"
    pl := ← optDec v "pl"
    commission := ← optDec v "commission"
    financing := ← optDec v "financing"
    reason := optStr v "reason" }

def parseCancel (v : Value) : Except BrokerError CancelInfo := do
  return {
    id := ← reqStr v "id"
    orderId := ← reqStr v "orderID"
    clientOrderId := optStr v "clientOrderID"
    reason := ← reqStr v "reason" }

def parseReject (v : Value) : RejectInfo where
  id := optStr v "id"
  reason := (optStr v "rejectReason").getD "UNSPECIFIED"
  clientOrderId := (optStr v "clientOrderID").or (clientIdOf v)

def parseCreate (v : Value) : Except BrokerError CreateInfo := do
  return {
    id := ← reqStr v "id"
    kind := (optStr v "type").getD ""
    instrument := ← (optStr v "instrument").mapM normalizeInstrument
    units := ← optDec v "units"
    price := ← optDec v "price"
    timeInForce := optStr v "timeInForce"
    clientId := clientIdOf v }

end

/-! ## Pages -/

structure TxnRecord where
  id : Nat
  idText : String
  kind : String
  orderId : Option String
  /-- `clientOrderID`, else `clientExtensions.id`. -/
  clientId : Option String
  raw : Value

/-- The transactions after an id, and the last id of the account. -/
structure TxnPage where
  afterId : Nat
  records : List TxnRecord
  lastTransactionId : Nat

section

variable [DebugText]

def readRecord (afterId : Nat) (t : Value) : Except BrokerError TxnRecord := do
  let idText ← reqStr t "id"
  let id ← okOr (.malformed s!"transaction id {DebugText.quoted idText} is not numeric") (parseU64 idText)
  refuse (id ≤ afterId) (.malformed s!"transaction {id} is not after the requested id {afterId}")
  let kind ← reqStr t "type"
  return {
    id := id
    idText := idText
    kind := kind
    orderId := optStr t "orderID"
    clientId := (optStr t "clientOrderID").or (clientIdOf t)
    raw := t }

def parseTransactionsPage [JsonText] (body : String) (afterId : Nat) : Except BrokerError TxnPage := do
  let root ← okOr (.malformed "transactions body is not JSON") (JsonText.fromStr body)
  let arr ← okOr (.malformed "transactions response has no `transactions` array")
    ((root.get "transactions").bind Value.asArray)
  let lastText ← reqStr root "lastTransactionID"
  let last ← okOr (.malformed s!"lastTransactionID {DebugText.quoted lastText} is not numeric") (parseU64 lastText)
  let records ← arr.mapM (readRecord afterId)
  return ⟨afterId, records, last⟩

end

def checkGaps : List TxnRecord → Except String Unit
  | first :: second :: rest =>
      if second.id ≠ first.id + 1 then .error s!"gap between transaction {first.id} and {second.id}"
      else checkGaps (second :: rest)
  | _ => .ok ()

/-- The page holds every transaction after the requested id. -/
def TxnPage.completeness (page : TxnPage) : Except String Unit :=
  match page.records.head?, page.records.getLast? with
  | some first, some last =>
      if first.id ≠ page.afterId + 1 then .error s!"page starts at id {first.id}, not {page.afterId + 1}"
      else if last.id ≠ page.lastTransactionId then
        .error <| s!"page ends at id {last.id} but the account's last transaction id is " ++ s!"{page.lastTransactionId}"
      else checkGaps page.records
  | _, _ =>
      if page.lastTransactionId = page.afterId then .ok ()
      else .error <| s!"empty page after id {page.afterId} but the account's last transaction id is " ++
        s!"{page.lastTransactionId}"

/-! ## Orders -/

/-- An order as the broker describes it; fills are told elsewhere. -/
structure OrderResource where
  id : String
  state : String
  instrument : Option String
  /-- Signed. -/
  units : Option Dec
  clientId : Option String

structure TaggedOrder where
  orderId : String
  create : Option CreateInfo
  fills : List FillInfo
  cancels : List CancelInfo
  deriving DecidableEq

/-- A minimal number is left as it is: its size does not fit. -/
def absDec (d : Dec) : Dec :=
  if d.isNegative then (Dec.new ((Dec.negate true d.units).val) d.scale).toOption.getD d else d

section

variable [DebugText]

def debugTag : Option String → String
  | some tag => s!"Some({DebugText.quoted tag})"
  | none => "None"

/-- More executed than ordered is a corrupt report. -/
def refuseOverfill (state : String) (orderedAbs : Option Dec) (executedAbs : Dec) : Except BrokerError Unit :=
  match orderedAbs with
  | some q => refuse (q < executedAbs) (.malformed <|
      s!"overfill anomaly: executed units {executedAbs.display} exceed ordered units " ++
        s!"{q.display} (state {DebugText.quoted state}); refusing to report an inflated fill")
  | none => .ok ()

def deriveOrderStatus (state : String) (orderedAbs : Option Dec) (executedAbs : Dec) (cancelReason : Option String) :
    Except BrokerError OrderStatus := do
  refuse (executedAbs.isNegative) (.malformed "negative executed quantity")
  refuseOverfill state orderedAbs executedAbs
  let hasExec := executedAbs.isPositive
  let expiry := decide (cancelReason = some "TIME_IN_FORCE_EXPIRED")
  if state = "PENDING" ∨ state = "TRIGGERED" then
    if hasExec then .error (.malformed s!"state {state} but an executed quantity was reported") else .ok .open
  else if state = "FILLED" then
    if !hasExec then .error (.malformed "state FILLED but no executed quantity (missing or empty fill transaction)")
    else match orderedAbs with
      | some q => .ok (if executedAbs < q then .partiallyFilledThenCanceled else .filled)
      | none => .ok .filled
  else if state = "CANCELLED" then
    .ok <| match hasExec, expiry with
      | true, true => .partiallyFilledThenExpired
      | true, false => .partiallyFilledThenCanceled
      | false, true => .expired
      | false, false => .canceled
  else .error (.malformed s!"unsupported order state {DebugText.quoted state}")

namespace OrderResource

variable (resource : OrderResource)

def refuseForeign : Option FillInfo → Except BrokerError Unit
  | some f => refuse (f.orderId ≠ resource.id)
      (.malformed s!"fill transaction {f.id} belongs to order {f.orderId}, not {resource.id}")
  | none => .ok ()

def refuseOpposite (fill : Option FillInfo) : Except BrokerError Unit :=
  match fill, resource.units with
  | some f, some u => refuse (f.units.isNegative ≠ u.isNegative)
      (.malformed s!"fill {f.id} has the opposite sign to order {resource.id}")
  | _, _ => .ok ()

def side : Option Side :=
  match resource.units with
  | some u => if u.isPositive then some .buy else if u.isNegative then some .sell else none
  | none => none

/-- The client id, unless it is not one of ours. -/
def tag (ownPrefix : Option String) : Option String :=
  match resource.clientId, ownPrefix with
  | some id, some start => if start.toList.isPrefixOf id.toList then some id else none
  | id, _ => id

/-- The first `_` becomes `/`. -/
def symbol : String :=
  match resource.instrument with
  | some name => match splitFirst (· == '_') name.toList with
      | some (base, quote) => String.ofList (base ++ '/' :: quote)
      | none => name
  | none => ""

def intoReport (fill : Option FillInfo) (cancelReason ownPrefix : Option String) : Except BrokerError OrderReport := do
  resource.refuseForeign fill
  let orderedAbs := resource.units.map absDec
  let executedAbs := (fill.map fun f => absDec f.units).getD .zero
  let status ← deriveOrderStatus resource.state orderedAbs executedAbs cancelReason
  resource.refuseOpposite fill
  return {
    brokerOrderId := resource.id
    tag := resource.tag ownPrefix
    symbol := resource.symbol
    side := resource.side
    status := status
    quantity := orderedAbs.getD .zero
    executedQuantity := executedAbs
    avgPrice := if executedAbs.isPositive then fill.map FillInfo.price else none
    cost := none
    fee := fill.bind FillInfo.commission }

end OrderResource

/-- The order as the broker would have described it. -/
def TaggedOrder.resource (order : TaggedOrder) (tag : Option String) : Except BrokerError OrderResource :=
  match order.create with
  | none =>
      .error (.lookupInconclusive <| s!"order {order.orderId} carries {debugTag tag} on its fill or cancel but its " ++
        "creation lies outside the scanned window")
  | some create =>
      .ok {
        id := order.orderId
        state := match order.fills, order.cancels with
          | _ :: _, _ => "FILLED"
          | [], _ :: _ => "CANCELLED"
          | [], [] => "PENDING"
        instrument := create.instrument
        units := create.units
        clientId := tag }

/-- Two fills of one order are refused. -/
def TaggedOrder.report (order : TaggedOrder) (tag ownPrefix : Option String) : Except BrokerError OrderReport := do
  refuse (order.fills.length > 1) (.malformed <|
    s!"order {order.orderId} has {order.fills.length} fill transactions; refusing to guess its executed quantity")
  let resource ← order.resource tag
  resource.intoReport order.fills.head? (order.cancels.head?.map CancelInfo.reason) ownPrefix

end

def isCreateKind (kind : String) : Bool := "_ORDER".toList.isSuffixOf kind.toList

def isOrderRejectKind (kind : String) : Bool :=
  "_ORDER_REJECT".toList.isSuffixOf kind.toList && kind ≠ "ORDER_CANCEL_REJECT"

/-! ## By tag -/

inductive CoverageKind where
  | sinceCheckpoint
  | recentWindow
  | fullHistory
  deriving DecidableEq

/-- The transactions a scan covered. -/
structure Coverage where
  kind : CoverageKind
  afterId : Nat
  throughId : Nat
  deriving DecidableEq

structure TagScan where
  tag : String
  coverage : Coverage
  orders : List TaggedOrder
  rejects : List RejectInfo

def orderIdOf (r : TxnRecord) : Option String :=
  if isCreateKind r.kind then some r.idText
  else if r.kind = "ORDER_FILL" ∨ r.kind = "ORDER_CANCEL" then r.orderId
  else none

def rejectOf (r : TxnRecord) : Option RejectInfo :=
  if isCreateKind r.kind then none
  else if r.kind = "ORDER_FILL" ∨ r.kind = "ORDER_CANCEL" then none
  else if isOrderRejectKind r.kind then some (parseReject r.raw)
  else none

section

variable [DebugText]

/-- What a record adds to an order. A record that cannot be read adds nothing. -/
def attributeTo (order : TaggedOrder) (r : TxnRecord) : TaggedOrder :=
  if isCreateKind r.kind ∧ r.idText = order.orderId then { order with create := (parseCreate r.raw).toOption }
  else if r.kind = "ORDER_FILL" ∧ r.orderId = some order.orderId then
    match parseFill r.raw with
    | .ok f => { order with fills := order.fills ++ [f] }
    | .error _ => order
  else if r.kind = "ORDER_CANCEL" ∧ r.orderId = some order.orderId then
    match parseCancel r.raw with
    | .ok c => { order with cancels := order.cancels ++ [c] }
    | .error _ => order
  else order

def gather (page : TxnPage) (orderId : String) : TaggedOrder :=
  page.records.foldl attributeTo ⟨orderId, none, [], []⟩

def buildScan (tag : String) (page : TxnPage) (coverage : Coverage) : TagScan :=
  let tagged := page.records.filter fun r => r.clientId = some tag
  let orderIds : Std.ExtTreeSet String := .ofList (tagged.filterMap orderIdOf)
  let number (o : TaggedOrder) : Nat := (parseU64 o.orderId).getD (2 ^ 64 - 1)
  { tag := tag
    coverage := coverage
    orders := (orderIds.toList.map (gather page)).mergeSort fun a b => number a ≤ number b
    rejects := tagged.filterMap rejectOf }

/-! ## By id -/

/-- The page after an id, as the transport reads it. -/
def fetchPage [JsonText] (read : Nat → Except BrokerError String) (afterId : Nat) : Except BrokerError TxnPage := do
  parseTransactionsPage (← read afterId) afterId

/-- Here a record that cannot be read ends the search. -/
def collect (id : String) (order : TaggedOrder) (r : TxnRecord) : Except BrokerError TaggedOrder :=
  if r.orderId ≠ some id then .ok order
  else if r.kind = "ORDER_FILL" then do
    let f ← parseFill r.raw
    return { order with fills := order.fills ++ [f] }
  else if r.kind = "ORDER_CANCEL" then do
    let c ← parseCancel r.raw
    return { order with cancels := order.cancels ++ [c] }
  else .ok order

def orderFromTransactions [JsonText] (read : Nat → Except BrokerError String) (ownPrefix : Option String) (id : String) :
    Except BrokerError OrderReport := do
  let notFound := .notFound s!"order {id} is not in the transaction stream"
  let n ← okOr notFound (parseU64 id)
  refuse (n = 0) notFound
  let page ← fetchPage read (n - 1)
  let _ ← okOr notFound (page.records.head?.filter fun r => r.id = n ∧ isCreateKind r.kind)
  page.completeness.mapError fun why =>
    .lookupInconclusive s!"the transaction scan from order {id} is incomplete: {why}"
  let create ← okOr notFound ((page.records.find? fun r => r.id = n).bind fun r => (parseCreate r.raw).toOption)
  let order ← page.records.foldlM (collect id) ⟨id, some create, [], []⟩
  order.report create.clientId ownPrefix

end

end BrokerAdapters.Oanda
