import SignalEngine.BrokerAdapters.Order
import SignalEngine.BrokerAdapters.DecimalRounding
import SignalEngine.Lib.Casing
import SignalEngine.Lib.Outcome

/-! # OANDA order preparation

A request against one row of the instrument table. Units are rounded down to
the row's precision and sent with the sign of the side.
-/

open MachineInt Outcome Text

namespace BrokerAdapters.Oanda

structure InstrumentInfo where
  /-- `EUR_USD`. -/
  name : String
  displayPrecision : Nat
  tradeUnitsPrecision : Nat
  minimumTradeSize : Dec
  maximumOrderUnits : Dec
  deriving DecidableEq

structure PrepareOptions where
  ownTagPrefix : Option String
  /-- `clientExtensions.tag`. -/
  clientTag : String

inductive SentTif where
  | fok
  | ioc
  | gtc
  deriving DecidableEq

def SentTif.asStr : SentTif → String
  | fok => "FOK"
  | ioc => "IOC"
  | gtc => "GTC"

inductive PositionFill where
  | default
  | reduceOnly
  deriving DecidableEq

def PositionFill.asStr : PositionFill → String
  | default => "DEFAULT"
  | reduceOnly => "REDUCE_ONLY"

structure PreparedOrder where
  instrument : String
  side : Side
  requestedQuantity : Dec
  /-- Rounded magnitude. -/
  quantity : Dec
  /-- As sent: negative for a sell. -/
  units : Dec
  limitPrice : Option Dec
  timeInForce : SentTif
  positionFill : PositionFill
  clientId : String
  clientTag : String

def MAX_CLIENT_ID_LEN : Nat := 128

def isSeparator (c : Char) : Bool := c == '_' || c == '/' || c == '-'

/-- Base and quote of an upper-case name: around its only separator, or the
    halves of six letters. -/
def splitName (s : List Char) : Option (List Char × List Char) :=
  match splitFirst isSeparator s with
  | some (base, quote) => if quote.any isSeparator then none else some (base, quote)
  | none => if s.length = 6 && s.all Char.isUpper then some (s.take 3, s.drop 3) else none

def baseOk (base : List Char) : Bool :=
  2 ≤ base.length && base.length ≤ 8 && base.head?.any Char.isUpper &&
    base.all fun c => c.isUpper || c.isDigit

def quoteOk (quote : List Char) : Bool := quote.length == 3 && quote.all Char.isUpper

/-- The sign of the side; the negation is unchecked. -/
def signedUnits (side : Side) (quantity : Dec) : Dec :=
  match side with
  | .buy => quantity
  | .sell => ⟨(Dec.negate true quantity.units).val, quantity.scale, quantity.scale_le⟩

theorem toRat_signedUnits (side : Side) {quantity : Dec} (positive : quantity.isPositive = true) :
    (Oanda.signedUnits side quantity).toRat = side.signed quantity.toRat := by
  cases side with
  | buy => rfl
  | sell =>
      have exact : ((Dec.negate true quantity.units).val).val = -quantity.units.val := by
        obtain ⟨out, negated, value⟩ := Dec.negate_eq true (Dec.isPositive_iff_units.1 positive).le
        rw [negated]
        exact value
      simp only [Oanda.signedUnits, Side.signed, Dec.toRat, exact]
      push_cast
      ring

theorem name_char {c : Char} (name : (c.isUpper || c.isDigit) = true) :
    (48 ≤ c.toNat ∧ c.toNat ≤ 57) ∨ (65 ≤ c.toNat ∧ c.toNat ≤ 90) := by
  delta Char.isUpper Char.isDigit at name
  simp only [Bool.or_eq_true, Bool.and_eq_true, decide_eq_true_eq,
    ge_iff_le, UInt32.le_iff_toNat_le] at name
  exact name.symm

theorem isSeparator_name_char {c : Char} (name : (c.isUpper || c.isDigit) = true) :
    isSeparator c = false := by
  have range := name_char name
  simp only [isSeparator, Bool.or_eq_false_iff, beq_eq_false_iff_ne, ne_eq, ← Char.toNat_inj]
  simp only [show '_'.toNat = 95 from rfl, show '/'.toNat = 47 from rfl, show '-'.toNat = 45 from rfl]
  omega

/-- What a normalized name is made of. -/
structure NameParts (base quote : List Char) : Prop where
  base : baseOk base = true
  quote : quoteOk quote = true

namespace NameParts

variable {base quote : List Char}

theorem base_char (parts : NameParts base quote) : ∀ c ∈ base, (c.isUpper || c.isDigit) = true := by
  have shape := parts.base
  simp only [baseOk, Bool.and_eq_true, List.all_eq_true] at shape
  exact shape.2

theorem quote_char (parts : NameParts base quote) : ∀ c ∈ quote, (c.isUpper || c.isDigit) = true := by
  have shape := parts.quote
  simp only [quoteOk, Bool.and_eq_true, List.all_eq_true] at shape
  intro c member
  simp [shape.2 c member]

theorem char (parts : NameParts base quote) : ∀ c ∈ base ++ '_' :: quote,
    (48 ≤ c.toNat ∧ c.toNat ≤ 57) ∨ (65 ≤ c.toNat ∧ c.toNat ≤ 90) ∨ c.toNat = 95 := by
  intro c member
  rcases List.mem_append.1 member with inBase | inRest
  · have := name_char (parts.base_char c inBase)
    omega
  · rcases List.mem_cons.1 inRest with rfl | inQuote
    · exact .inr (.inr rfl)
    · have := name_char (parts.quote_char c inQuote)
      omega

theorem visible (parts : NameParts base quote) :
    ∀ c ∈ base ++ '_' :: quote, isWhitespace c = false := by
  intro c member
  have range := parts.char c member
  simp only [isWhitespace, Bool.or_eq_false_iff, Bool.and_eq_false_iff, decide_eq_false_iff_not,
    beq_eq_false_iff_ne]
  omega

theorem normalized (parts : NameParts base quote) :
    (trim (base ++ '_' :: quote)).map Char.toUpper = base ++ '_' :: quote := by
  have trimmed : trim (base ++ '_' :: quote) = base ++ '_' :: quote :=
    trim_of_ends (fun c first => parts.visible c (List.mem_of_mem_head? first))
      (fun c last => parts.visible c (List.mem_of_getLast? last))
  have fixed : ∀ c ∈ base ++ '_' :: quote, c.toUpper = id c := by
    intro c member
    have range := parts.char c member
    exact toUpper_of_not_lower (by omega)
  rw [trimmed, List.map_congr_left fixed, List.map_id]

theorem splitName (parts : NameParts base quote) :
    Oanda.splitName (base ++ '_' :: quote) = some (base, quote) := by
  have clear : quote.any isSeparator = false := by
    rw [List.any_eq_false]
    intro c member
    simp [isSeparator_name_char (parts.quote_char c member)]
  rw [Oanda.splitName, splitFirst_append
    (fun c member => isSeparator_name_char (parts.base_char c member)) rfl]
  simp [clear]

end NameParts

variable [DebugText]

def normalizeInstrument (input : String) : Except BrokerError String :=
  let bad := .error <|
    .unknownSymbol s!"{DebugText.quoted input} is not a recognised OANDA instrument name"
  let s := (trimmed input).toList.map Char.toUpper
  if s.isEmpty || !(s.all fun c => c.toNat < 128) then bad
  else match splitName s with
    | some (base, quote) =>
        if baseOk base && quoteOk quote then .ok (String.ofList (base ++ '_' :: quote)) else bad
    | none => bad

def canonicalSymbol (input : String) : Except BrokerError String := do
  let name ← normalizeInstrument input
  return match splitFirst (· == '_') name.toList with
    | some (base, quote) => String.ofList (base ++ '/' :: quote)
    | none => name

structure InstrumentTable where
  rows : Std.ExtTreeMap String InstrumentInfo

def InstrumentTable.lookup (table : InstrumentTable) (name : String) : Option InstrumentInfo :=
  match normalizeInstrument name with
  | .ok n => table.rows[n]?
  | .error _ => none

def validateClientId (tag : String) (ownTagPrefix : Option String) : Except BrokerError Unit := do
  if tag.isEmpty then throw (.invalidRequest "order tag (clientExtensions.id) must not be empty")
  if tag.utf8ByteSize > MAX_CLIENT_ID_LEN then
    throw (.invalidRequest <| s!"order tag is {tag.utf8ByteSize} characters; " ++
      s!"the client id limit is {MAX_CLIENT_ID_LEN}")
  if !(tag.toList.all fun c => 0x20 ≤ c.toNat && c.toNat ≤ 0x7e) then
    throw (.invalidRequest "order tag must be printable ASCII")
  match ownTagPrefix with
  | some start =>
      if !start.toList.isPrefixOf tag.toList then
        throw (.invalidRequest <| s!"order tag {DebugText.quoted tag} does not start with " ++
          s!"the configured own_tag_prefix {DebugText.quoted start}")
  | none => pure ()

def checkRow (info : InstrumentInfo) (instrument : String) : Except BrokerError Unit :=
  if instrument ≠ info.name then
    .error (.invalidRequest
      s!"instrument row {info.name} does not match order symbol {instrument}")
  else .ok ()

/-- The flags, the sign of the quantity and the tag. -/
def checkRequest (req : OrderRequest) (opts : PrepareOptions) : Except BrokerError Unit := do
  if req.validateOnly then
    throw (.unsupported
      "OANDA has no validate-only order endpoint; use the practice environment, or `prepare` for a local dry run")
  if req.postOnly then throw (.unsupported "post_only is not available for OANDA orders")
  if !req.quantity.isPositive then
    throw (.invalidRequest "quantity must be positive (the side gives the sign)")
  validateClientId req.tag opts.ownTagPrefix

/-- Round down to the row's precision; refuse zero, too little and too much. -/
def sizeUnits (info : InstrumentInfo) (symbol : String) (wanted : Dec) : Except BrokerError Dec := do
  let quantity ← mapDec (wanted.roundDp info.tradeUnitsPrecision .floor)
  if quantity.isZero then throw (.quantityRoundsToZero symbol wanted quantity)
  if quantity < info.minimumTradeSize then
    throw (.belowMinQuantity symbol info.minimumTradeSize quantity)
  if quantity > info.maximumOrderUnits then
    throw (.invalidRequest <| s!"{symbol}: {quantity.display} units exceeds the instrument's " ++
      s!"maximumOrderUnits {info.maximumOrderUnits.display}; refusing to truncate")
  return quantity

def timeInForce : OrderKind → Option TimeInForce → Except BrokerError SentTif
  | .market, none => .ok .fok
  | .market, some .ioc => .ok .ioc
  | .market, some .gtc =>
      .error (.invalidRequest "a market order cannot be GTC; use FOK (default) or IOC")
  | .limit _, none | .limit _, some .gtc => .ok .gtc
  | .limit _, some .ioc => .ok .ioc

def limitPrice (info : InstrumentInfo) (side : Side) : OrderKind → Except BrokerError (Option Dec)
  | .market => .ok none
  | .limit price => do
      if !price.isPositive then throw (.invalidPrice "limit price must be positive")
      let p ← mapPrice (price.roundDp info.displayPrecision side.priceRounding)
      if !p.isPositive then throw (.invalidPrice s!"limit price {price.display} rounds to zero")
      return some p

def prepareOrder (req : OrderRequest) (info : InstrumentInfo) (opts : PrepareOptions) :
    Except BrokerError PreparedOrder := do
  let instrument ← normalizeInstrument req.symbol
  checkRow info instrument
  checkRequest req opts
  let symbol ← canonicalSymbol instrument
  let quantity ← sizeUnits info symbol req.quantity
  let tif ← timeInForce req.kind req.timeInForce
  let price ← limitPrice info req.side req.kind
  return {
    instrument
    side := req.side
    requestedQuantity := req.quantity
    quantity
    units := signedUnits req.side quantity
    limitPrice := price
    timeInForce := tif
    positionFill := if req.reduceOnly then .reduceOnly else .default
    clientId := req.tag
    clientTag := opts.clientTag }

/-- `OandaAdapter::prepare`: the row is looked up under the normalized name. -/
def prepare (instruments : InstrumentTable) (opts : PrepareOptions) (req : OrderRequest) :
    Except BrokerError PreparedOrder := do
  let instrument ← normalizeInstrument req.symbol
  match instruments.lookup instrument with
  | none => throw (.unknownSymbol instrument)
  | some info => prepareOrder req info opts

theorem prepare_eq {instruments : InstrumentTable} {opts : PrepareOptions} {req : OrderRequest}
    {instrument : String} {info : InstrumentInfo} (named : normalizeInstrument req.symbol = .ok instrument)
    (row : instruments.lookup instrument = some info) :
    prepare instruments opts req = prepareOrder req info opts := by
  rw [prepare, named]
  simp only [bind, Except.bind, row]

/-- The body of `POST /v3/accounts/{id}/orders`. -/
def PreparedOrder.toJson (order : PreparedOrder) : JsonValue :=
  let fields :=
    [("type", JsonValue.text (if order.limitPrice.isNone then "MARKET" else "LIMIT")),
      ("instrument", .text order.instrument), ("units", .text order.units.normal.display),
      ("timeInForce", .text order.timeInForce.asStr),
      ("positionFill", .text order.positionFill.asStr),
      ("clientExtensions",
        .object [("id", .text order.clientId), ("tag", .text order.clientTag)])] ++
    (match order.limitPrice with
      | some p => [("price", JsonValue.text p.display)]
      | none => [])
  .object [("order", .object fields)]

omit [DebugText] in
theorem toJson_units (order : PreparedOrder) : ((order.toJson.get "order").bind fun o => o.get "units") =
    some (.text order.units.normal.display) := by
  simp [PreparedOrder.toJson, JsonValue.get, List.lookup_cons]

theorem normalizeInstrument_parts {input name : String} (h : normalizeInstrument input = .ok name) :
    ∃ base quote, NameParts base quote ∧ name = String.ofList (base ++ '_' :: quote) := by
  simp only [normalizeInstrument] at h
  split at h
  · cases h
  · split at h
    next base quote _ =>
      split at h
      next ok =>
        rw [Bool.and_eq_true] at ok
        exact ⟨base, quote, ⟨ok.1, ok.2⟩, (Except.ok.inj h).symm⟩
      next => cases h
    next => cases h

theorem normalizeInstrument_again {input name : String} (h : normalizeInstrument input = .ok name) :
    normalizeInstrument name = .ok name := by
  obtain ⟨base, quote, parts, rfl⟩ := normalizeInstrument_parts h
  have ascii : (base ++ '_' :: quote).all (fun c => c.toNat < 128) = true := by
    rw [List.all_eq_true]
    intro c member
    have range := parts.char c member
    exact decide_eq_true (by omega)
  simp only [normalizeInstrument, trimmed, String.toList_ofList, parts.normalized, ascii,
    parts.splitName, parts.base, parts.quote]
  simp

theorem lookup_normalizeInstrument {input name : String} (table : InstrumentTable)
    (h : normalizeInstrument input = .ok name) : table.lookup name = table.lookup input := by
  rw [InstrumentTable.lookup, InstrumentTable.lookup, h, normalizeInstrument_again h]

theorem sizeUnits_eq_ok {info : InstrumentInfo} {symbol : String} {q v : Dec} :
    sizeUnits info symbol q = .ok v ↔
      q.roundDp info.tradeUnitsPrecision .floor = .ok v ∧ ¬ v.isZero = true ∧
        ¬ v < info.minimumTradeSize ∧ ¬ v > info.maximumOrderUnits := by
  simp only [sizeUnits, bind_eq_ok, mapDec_eq_ok, refuse_eq_ok, pure_eq_ok]
  constructor
  · rintro ⟨_, rounded, nonzero, enough, allowed, rfl⟩
    exact ⟨rounded, nonzero, enough, allowed⟩
  · rintro ⟨rounded, nonzero, enough, allowed⟩
    exact ⟨v, rounded, nonzero, enough, allowed, rfl⟩

theorem sizeUnits_again {info : InstrumentInfo} {symbol : String} {q v : Dec}
    (sized : sizeUnits info symbol q = .ok v) : sizeUnits info symbol v = .ok v := by
  obtain ⟨rounded, rest⟩ := sizeUnits_eq_ok.1 sized
  obtain ⟨scale, -⟩ := Dec.roundDp_floor_eq_ok.1 rounded
  exact sizeUnits_eq_ok.2 ⟨scale ▸ v.roundDp_floor_self, rest⟩

theorem checkRequest_market {tag name : String} {side : Side} {q : Dec} {price : Option Dec}
    {opts : PrepareOptions} {u : Unit} :
    checkRequest (OrderRequest.marketAt tag name side q price) opts = .ok u ↔
      q.isPositive = true ∧ validateClientId tag opts.ownTagPrefix = .ok () := by
  simp [checkRequest, refuse_eq_ok, OrderRequest.marketAt, OrderRequest.market, OrderRequest.base]

def marketOrder (tag instrument : String) (side : Side) (requested quantity : Dec)
    (opts : PrepareOptions) : PreparedOrder :=
  ⟨instrument, side, requested, quantity, signedUnits side quantity, none, .fok, .default, tag,
    opts.clientTag⟩

theorem prepareOrder_market {info : InstrumentInfo} {tag name : String} {side : Side} {q : Dec}
    {price : Option Dec} {opts : PrepareOptions} {order : PreparedOrder} :
    prepareOrder (OrderRequest.marketAt tag name side q price) info opts = .ok order ↔
      ∃ instrument symbol, normalizeInstrument name = .ok instrument ∧
        checkRow info instrument = .ok () ∧ q.isPositive = true ∧
        validateClientId tag opts.ownTagPrefix = .ok () ∧ canonicalSymbol instrument = .ok symbol ∧
        ∃ quantity, sizeUnits info symbol q = .ok quantity ∧
          marketOrder tag instrument side q quantity opts = order := by
  simp only [prepareOrder, bind_eq_ok, checkRequest_market, pure_eq_ok]
  constructor
  · rintro ⟨instrument, named, ⟨⟩, row, ⟨⟩, ⟨positive, tagged⟩, symbol, canonical, quantity, sized,
      tif, force, price', market, made⟩
    obtain rfl := Except.ok.inj market
    obtain rfl := Except.ok.inj force
    exact ⟨instrument, symbol, named, row, positive, tagged, canonical, quantity, sized, made⟩
  · rintro ⟨instrument, symbol, named, row, positive, tagged, canonical, quantity, sized, made⟩
    exact ⟨instrument, named, (), row, (), ⟨positive, tagged⟩, symbol, canonical, quantity, sized,
      .fok, rfl, none, rfl, made⟩

end BrokerAdapters.Oanda
