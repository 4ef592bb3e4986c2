import SignalEngine.BrokerAdapters.Order
import SignalEngine.BrokerAdapters.DecimalRounding
import SignalEngine.Lib.Casing
import SignalEngine.Lib.Outcome

/-! # Alpaca order preparation

A request against one row of the asset table. A fractionable asset is rounded
down to nine decimals and then to the trade increment of the row, any other to
whole shares.
-/

open MachineInt Outcome Text

namespace BrokerAdapters.Alpaca

/-- Decimals of a fractional share. -/
def FRACTIONAL_DP : Nat := 9

inductive AssetSource where
  /-- Hard-coded, not verified. -/
  | builtin
  | api
  deriving DecidableEq

structure AssetInfo where
  symbol : String
  tradable : Bool
  fractionable : Bool
  minOrderSize : Dec
  minTradeIncrement : Option Dec
  priceIncrement : Option Dec
  status : Option String
  source : AssetSource
  deriving DecidableEq

structure AssetTable where
  assets : Std.ExtTreeMap String AssetInfo

def AssetTable.lookup (table : AssetTable) (symbol : String) : Option AssetInfo :=
  table.assets[asciiUpper (trimmed symbol)]?

def AssetInfo.notTradableReason (asset : AssetInfo) : Option String :=
  if !asset.tradable then some "tradable=false"
  else match asset.status with
    | some s => if !eqIgnoreAsciiCase s "active" then some s!"status {s}" else none
    | none => none

structure PrepareOptions where
  allowExtendedHours : Bool
  minNotional : Dec
  ownTagPrefix : Option String
  refuseBuiltinAssets : Bool
  allowCrypto : Bool

/-- The time in force as sent. -/
inductive SentTif where
  | day
  | gtc
  | ioc
  deriving DecidableEq

def SentTif.asStr : SentTif → String
  | day => "day"
  | gtc => "gtc"
  | ioc => "ioc"

structure PreparedOrder where
  symbol : String
  side : Side
  requestedQuantity : Dec
  quantity : Dec
  fractional : Bool
  limitPrice : Option Dec
  timeInForce : SentTif
  extendedHours : Bool
  clientOrderId : String
  assetSource : AssetSource
  costCheckSkipped : Bool

def MAX_CLIENT_ORDER_ID_LEN : Nat := 128

def isCryptoPair (symbol : String) : Bool := (trimmed symbol).toList.contains '/'

def alnum (t : List Char) : Bool := !t.isEmpty && t.all Char.isAlphanum

/-- Nine decimals and the trade increment, or whole shares. -/
def AssetInfo.floored (asset : AssetInfo) (qty : Dec) : Except DecError Dec :=
  if asset.fractionable then do
    let q ← qty.roundDp FRACTIONAL_DP .floor
    match asset.minTradeIncrement with
    | some step => q.roundToMultiple step .floor
    | none => return q
  else qty.roundDp 0 .floor

def AssetInfo.decimals (asset : AssetInfo) : Nat := if asset.fractionable then FRACTIONAL_DP else 0

/-- Rounding a quantity of this asset twice is rounding it once: the first
    rounding does not wrap below zero, and the multiple of the increment that
    the second one finds has no more decimals than the first one leaves. -/
def AssetInfo.Steady (asset : AssetInfo) (q : Dec) : Prop :=
  0 < q.digitsAt asset.decimals ∧
    (asset.fractionable = true → ∀ step, asset.minTradeIncrement = some step →
      ∃ k : Int, (⌊(q.digitsAt FRACTIONAL_DP : ℚ) / 10 ^ FRACTIONAL_DP / step.toRat⌋ : ℚ) * step.toRat =
        k / 10 ^ FRACTIONAL_DP)

variable {asset : AssetInfo} {q : Dec}

theorem floored_cases {m : Dec} (h : asset.floored q = .ok m) :
    (m.scale = asset.decimals ∧ m.units.val = q.digitsAt asset.decimals ∧
      (asset.fractionable = true → asset.minTradeIncrement = none)) ∨
    ∃ step q9, asset.fractionable = true ∧ asset.minTradeIncrement = some step ∧
      q.roundDp FRACTIONAL_DP .floor = .ok q9 ∧ q9.roundToMultiple step .floor = .ok m := by
  unfold AssetInfo.floored at h
  by_cases fractionable : asset.fractionable = true
  · rw [if_pos fractionable] at h
    obtain ⟨q9, rounded, h⟩ := bind_eq_ok.1 h
    cases increment : asset.minTradeIncrement with
    | none =>
        rw [increment] at h
        obtain rfl := Except.ok.inj h
        obtain ⟨scale, units⟩ := Dec.roundDp_floor_eq_ok.1 rounded
        simp only [AssetInfo.decimals, fractionable, if_true]
        exact .inl ⟨scale, units, fun _ => trivial⟩
    | some step =>
        rw [increment] at h
        exact .inr ⟨step, q9, fractionable, rfl, rounded, h⟩
  · rw [if_neg fractionable] at h
    obtain ⟨scale, units⟩ := Dec.roundDp_floor_eq_ok.1 h
    simp only [AssetInfo.decimals, fractionable, Bool.false_eq_true, if_false]
    exact .inl ⟨scale, units, fun yes => nomatch yes⟩

theorem floored_plain_again {m : Dec} (scale : m.scale = asset.decimals) (nonzero : m.units.val ≠ 0)
    (plain : asset.fractionable = true → asset.minTradeIncrement = none) :
    asset.floored m.normal = .ok m := by
  have again : m.normal.roundDp asset.decimals .floor = .ok m := by
    obtain ⟨le, value, -⟩ := m.normal_spec nonzero
    refine Dec.roundDp_floor_eq_ok.2 ⟨scale, ?_⟩
    rw [← scale, Dec.digitsAt, if_pos le, ← value, wrap_of_fits m.units.fits]
  unfold AssetInfo.floored
  by_cases fractionable : asset.fractionable = true
  · simp only [AssetInfo.decimals, fractionable, if_true] at again
    rw [if_pos fractionable, again, plain fractionable]
    rfl
  · simp only [AssetInfo.decimals, fractionable, Bool.false_eq_true, if_false] at again
    rw [if_neg fractionable, again]

section increment

variable {asset : AssetInfo} {step q q9 m : Dec} (fractionable : asset.fractionable = true)
  (increment : asset.minTradeIncrement = some step)

include fractionable increment

theorem floored_increment {d r : Dec} :
    asset.floored d = .ok r ↔ ∃ d9, d.roundDp FRACTIONAL_DP .floor = .ok d9 ∧
      d9.roundToMultiple step .floor = .ok r := by
  simp only [AssetInfo.floored, fractionable, increment, if_true, bind_eq_ok]

theorem floored_increment_again (rounded : q.roundDp FRACTIONAL_DP .floor = .ok q9)
    (multiple : q9.roundToMultiple step .floor = .ok m) (positive : 0 < m.units.val)
    (short : m.normal.scale ≤ FRACTIONAL_DP) : asset.floored m.normal = .ok m := by
  obtain ⟨scale9, -⟩ := Dec.roundDp_floor_eq_ok.1 rounded
  obtain ⟨-, -, -, scale, -⟩ := Dec.roundToMultiple_floor_eq_ok.1 multiple
  obtain ⟨-, value, -⟩ := m.normal_spec positive.ne'
  have nine : FRACTIONAL_DP ≤ m.scale := by
    rw [scale, scale9]
    exact le_max_left ..
  have lifted : m.normal.units.val * 10 ^ (FRACTIONAL_DP - m.normal.scale) *
      10 ^ (m.scale - FRACTIONAL_DP) = m.units.val := by
    have powers : FRACTIONAL_DP - m.normal.scale + (m.scale - FRACTIONAL_DP) =
        m.scale - m.normal.scale := by omega
    rw [mul_assoc, ← pow_add, powers]
    exact value.symm
  -- Nine decimals of it are no more digits than the multiple has.
  have digits : m.normal.digitsAt FRACTIONAL_DP =
      m.normal.units.val * 10 ^ (FRACTIONAL_DP - m.normal.scale) := by
    rw [Dec.digitsAt, if_pos short]
    apply wrap_of_fits
    have one : (1 : Int) ≤ 10 ^ (m.scale - FRACTIONAL_DP) := Dec.ten_pow_pos _
    have digitsPos : 0 < m.normal.units.val * 10 ^ (FRACTIONAL_DP - m.normal.scale) :=
      pos_of_mul_pos_left (lifted ▸ positive) (Dec.ten_pow_pos _).le
    refine m.units.fits.of_le digitsPos.le ?_
    calc m.normal.units.val * 10 ^ (FRACTIONAL_DP - m.normal.scale)
        ≤ m.normal.units.val * 10 ^ (FRACTIONAL_DP - m.normal.scale) *
            10 ^ (m.scale - FRACTIONAL_DP) := le_mul_of_one_le_right digitsPos.le one
      _ = m.units.val := lifted
  obtain ⟨units, unitsVal, again⟩ := m.normal.roundDp_floor (show FRACTIONAL_DP ≤ maxScale by decide)
  refine (floored_increment fractionable increment).2 ⟨_, again, ?_⟩
  apply Dec.roundToMultiple_floor_again multiple scale9.symm
  have common : max FRACTIONAL_DP step.scale = m.scale := by rw [scale, scale9]
  simp only [Dec.commonUnits, unitsVal, digits, common]
  exact lifted

theorem floored_increment_less (positive : 0 < m.units.val)
    (long : ¬ m.normal.scale ≤ FRACTIONAL_DP) {m' : Dec} (again : asset.floored m.normal = .ok m') :
    m'.atto < m.atto := by
  obtain ⟨r9, down, second⟩ := (floored_increment fractionable increment).1 again
  obtain ⟨scale, units⟩ := Dec.roundDp_floor_eq_ok.1 down
  obtain ⟨-, -, last⟩ := m.normal_spec positive.ne'
  rw [Dec.digitsAt, if_neg long] at units
  have last : ¬ (10 : Int) ∣ m.normal.units.val := last.resolve_left (by omega)
  have inexact : r9.units.val * 10 ^ (m.normal.scale - FRACTIONAL_DP) < m.normal.units.val := by
    rw [units]
    apply lt_of_le_of_ne (Int.ediv_mul_le _ (Dec.ten_pow_pos _).ne')
    intro same
    apply last
    rw [← same]
    exact Dvd.dvd.mul_left (dvd_pow_self 10 (by omega)) _
  calc m'.atto ≤ r9.atto := Dec.atto_roundToMultiple_floor_le second
    _ = r9.units.val * 10 ^ (m.normal.scale - FRACTIONAL_DP) * 10 ^ (maxScale - m.normal.scale) := by
      rw [← scale]
      exact r9.atto_lift (by omega) m.normal.scale_le
    _ < m.normal.units.val * 10 ^ (maxScale - m.normal.scale) :=
      mul_lt_mul_of_pos_right inexact (Dec.ten_pow_pos _)
    _ = m.atto := m.atto_normal

end increment

theorem atto_floored_le {m : Dec} (nonneg : 0 ≤ q.units.val) (h : asset.floored q = .ok m) : m.atto ≤ q.atto := by
  rcases floored_cases h with ⟨scale, units, -⟩ | ⟨step, q9, -, -, rounded, multiple⟩
  · rw [Dec.atto, scale, units]
    exact q.digitsAt_le nonneg (scale ▸ m.scale_le)
  · exact (Dec.atto_roundToMultiple_floor_le multiple).trans
      (Dec.le_iff.1 (Dec.roundDp_floor_le nonneg rounded))

/-- Rounding again gives the same exactly under `Steady`. -/
theorem floored_again_iff {m : Dec} (h : asset.floored q = .ok m) (nonzero : m.units.val ≠ 0) :
    (0 < m.units.val ∧ ∃ m', asset.floored m.normal = .ok m' ∧ m'.normal = m.normal) ↔
      asset.Steady q := by
  rcases floored_cases h with ⟨scale, units, plain⟩ | ⟨step, q9, fractionable, increment, rounded, multiple⟩
  · have again := floored_plain_again scale nonzero plain
    rw [units]
    constructor
    · rintro ⟨positive, -⟩
      refine ⟨positive, fun fractionable step increment => ?_⟩
      rw [plain fractionable] at increment
      cases increment
    · rintro ⟨positive, -⟩
      exact ⟨positive, m, again, rfl⟩
  · obtain ⟨scale9, units9⟩ := Dec.roundDp_floor_eq_ok.1 rounded
    have decimals : asset.decimals = FRACTIONAL_DP := if_pos fractionable
    have q9Rat : q9.toRat = (q.digitsAt FRACTIONAL_DP : ℚ) / 10 ^ FRACTIONAL_DP := by
      rw [Dec.toRat, scale9, units9]
    have short : m.normal.scale ≤ FRACTIONAL_DP ↔ ∃ k : Int,
        (⌊(q.digitsAt FRACTIONAL_DP : ℚ) / 10 ^ FRACTIONAL_DP / step.toRat⌋ : ℚ) * step.toRat =
          k / 10 ^ FRACTIONAL_DP := by
      rw [m.normal_scale_le_iff nonzero, Dec.toRat_roundToMultiple_floor multiple, q9Rat]
    constructor
    · rintro ⟨positive, m', again, same⟩
      have digits : 0 < q.digitsAt FRACTIONAL_DP :=
        units9 ▸ Dec.roundToMultiple_floor_pos multiple positive
      refine ⟨decimals.symm ▸ digits, fun _ step' found => ?_⟩
      obtain rfl := Option.some.inj (increment.symm.trans found)
      apply short.1
      by_contra long
      have less := floored_increment_less fractionable increment positive long again
      rw [← m'.atto_normal, same, m.atto_normal] at less
      exact lt_irrefl _ less
    · rintro ⟨digits, steps⟩
      rw [decimals, ← units9] at digits
      have positive : 0 < m.units.val :=
        lt_of_le_of_ne (Dec.roundToMultiple_floor_nonneg multiple digits.le) nonzero.symm
      refine ⟨positive, m, ?_, rfl⟩
      exact floored_increment_again fractionable increment rounded multiple positive
        (short.2 (steps fractionable step increment))

variable [DebugText]

/-- Round down; zero and sub-minimum results are refused. -/
def AssetInfo.roundQuantity (asset : AssetInfo) (qty : Dec) : Except BrokerError Dec := do
  let rounded ← mapDec (asset.floored qty)
  let rounded := rounded.normal
  if rounded.isZero then throw (.quantityRoundsToZero asset.symbol qty rounded)
  if rounded < asset.minOrderSize then
    throw (.belowMinQuantity asset.symbol asset.minOrderSize rounded)
  return rounded

def normalizeSymbol (symbol : String) : Except BrokerError String :=
  let s := trimmed symbol
  match splitFirst (· == '/') s.toList with
  | some (base, quote) =>
      if alnum base && alnum quote then
        .error (.unsupported s!"{s}: crypto pairs are not supported by the Alpaca equities adapter")
      else .error (.invalidRequest s!"invalid equity symbol {DebugText.quoted symbol}")
  | none =>
      let up := asciiUpper s
      let ok := !up.isEmpty && up.utf8ByteSize ≤ 15 && up.toList.head?.any Char.isAlphanum &&
        up.toList.all fun c => c.isAlphanum || c == '.' || c == '-'
      if ok then .ok up
      else .error (.invalidRequest s!"invalid equity symbol {DebugText.quoted symbol}")

def normalizeCryptoPair (symbol : String) : Except BrokerError String :=
  match splitFirst (· == '/') (asciiUpper (trimmed symbol)).toList with
  | some (base, quote) =>
      if alnum base && alnum quote then .ok (String.ofList (base ++ '/' :: quote))
      else .error (.invalidRequest s!"invalid crypto pair {DebugText.quoted symbol}")
  | none => .error (.invalidRequest s!"invalid crypto pair {DebugText.quoted symbol}")

def validateTag (tag : String) (opts : PrepareOptions) : Except BrokerError Unit := do
  if tag.isEmpty then throw (.invalidRequest "order tag (client_order_id) must not be empty")
  if tag.utf8ByteSize > MAX_CLIENT_ORDER_ID_LEN then
    throw (.invalidRequest <| s!"order tag is {tag.utf8ByteSize} characters; " ++
      s!"Alpaca's client_order_id limit is {MAX_CLIENT_ORDER_ID_LEN}")
  if !(tag.toList.all fun c => 0x20 ≤ c.toNat && c.toNat ≤ 0x7e) then
    throw (.invalidRequest "order tag must be printable ASCII")
  match opts.ownTagPrefix with
  | some start =>
      if !start.toList.isPrefixOf tag.toList then
        throw (.invalidRequest <| s!"order tag {DebugText.quoted tag} does not start with " ++
          s!"the configured own_tag_prefix {DebugText.quoted start}")
  | none => pure ()

def orderSymbol (symbol : String) (opts : PrepareOptions) : Except BrokerError String :=
  if isCryptoPair symbol then
    if !opts.allowCrypto then
      .error (.unsupported
        s!"{trimmed symbol}: crypto pairs are not enabled on this Alpaca connection (paper only)")
    else normalizeCryptoPair symbol
  else normalizeSymbol symbol

/-- The row is the one of the symbol and may be traded. -/
def checkRow (asset : AssetInfo) (symbol : String) (opts : PrepareOptions) : Except BrokerError Unit := do
  if symbol ≠ asset.symbol then
    throw (.invalidRequest s!"asset row {asset.symbol} does not match order symbol {symbol}")
  match asset.notTradableReason with
  | some why => throw (.pairNotTradable symbol why)
  | none => pure ()
  if opts.refuseBuiltinAssets && asset.source == .builtin then
    throw (.config
      s!"{symbol}: only a built-in (unverified) asset row exists and refuse_builtin_assets is set; call refresh_asset first")

/-- The flags, the sign of the quantity and the tag. -/
def checkRequest (req : OrderRequest) (opts : PrepareOptions) : Except BrokerError Unit := do
  if req.validateOnly then
    throw (.unsupported
      "Alpaca has no validate-only order endpoint; use the paper environment, or `prepare` for a local dry run")
  if req.reduceOnly then
    throw (.unsupported
      "reduce_only is not available for Alpaca equities; size the order to the held position")
  if req.postOnly then throw (.unsupported "post_only is not available for Alpaca equities")
  if !req.quantity.isPositive then throw (.invalidRequest "quantity must be positive")
  validateTag req.tag opts

def timeInForce (crypto : Bool) : OrderKind → Option TimeInForce → Except BrokerError SentTif
  | .market, some _ => .error (.invalidRequest
      "time_in_force is only configurable on limit orders; market orders are sent as `day`")
  | .market, none | .limit _, none => .ok (if crypto then .gtc else .day)
  | .limit _, some .gtc => .ok .gtc
  | .limit _, some .ioc => .ok .ioc

/-- A price increment of the row, else a cent from one dollar on, and a
    hundredth of a cent below. -/
def priceIncrement (asset : AssetInfo) (price : Dec) : Dec :=
  match asset.priceIncrement with
  | some i => i
  | none =>
      if price ≥ ⟨⟨1, Dec.fits_one⟩, 0, Dec.scale_zero⟩ then ⟨⟨1, Dec.fits_one⟩, 2, Dec.scale_two⟩
      else ⟨⟨1, Dec.fits_one⟩, 4, Dec.scale_four⟩

def limitPrice (asset : AssetInfo) (side : Side) : OrderKind → Except BrokerError (Option Dec)
  | .market => .ok none
  | .limit price => do
      if !price.isPositive then throw (.invalidPrice "limit price must be positive")
      let p ← mapPrice (price.roundToMultiple (priceIncrement asset price) side.priceRounding)
      if !p.normal.isPositive then
        throw (.invalidPrice s!"limit price {price.display} rounds to zero")
      return some p.normal

/-- Whether the minimum notional could not be checked. -/
def checkCost (opts : PrepareOptions) (symbol : String) (quantity : Dec) (price : Option Dec) :
    Except BrokerError Bool :=
  if !opts.minNotional.isPositive then .ok false
  else match price with
    | none => .ok true
    | some px =>
        match quantity.checkedMul px with
        | none => .error (.invalidRequest "cost overflow")
        | some cost =>
            if cost < opts.minNotional then .error (.belowMinCost symbol opts.minNotional cost)
            else .ok false

def prepareOrder (req : OrderRequest) (asset : AssetInfo) (opts : PrepareOptions) :
    Except BrokerError PreparedOrder := do
  let crypto := isCryptoPair req.symbol
  let symbol ← orderSymbol req.symbol opts
  checkRow asset symbol opts
  checkRequest req opts
  let quantity ← asset.roundQuantity req.quantity
  let whole ← mapDec (quantity.roundDp 0 .floor)
  let fractional := !quantity.eq whole
  let tif ← timeInForce crypto req.kind req.timeInForce
  -- Crypto is fractional by nature; a fractional share needs `day`.
  if fractional && !crypto && tif != .day then
    throw (.invalidRequest <| s!"{symbol}: a fractional quantity ({quantity.display}) requires " ++
      s!"time_in_force `day`, not `{tif.asStr}`")
  let price ← limitPrice asset req.side req.kind
  let costCheckSkipped ← checkCost opts symbol quantity (price.or req.referencePrice)
  return {
    symbol
    side := req.side
    requestedQuantity := req.quantity
    quantity
    fractional
    limitPrice := price
    timeInForce := tif
    extendedHours := opts.allowExtendedHours && req.kind.isLimit && tif == .day
    clientOrderId := req.tag
    assetSource := asset.source
    costCheckSkipped }

/-- `AlpacaAdapter::prepare`: the row is looked up under the normalized symbol. -/
def prepare (assets : AssetTable) (opts : PrepareOptions) (req : OrderRequest) :
    Except BrokerError PreparedOrder := do
  let symbol ← orderSymbol req.symbol opts
  match assets.lookup symbol with
  | none => throw (.unknownSymbol symbol)
  | some asset => prepareOrder req asset opts

theorem prepare_eq {assets : AssetTable} {opts : PrepareOptions} {req : OrderRequest} {symbol : String}
    {asset : AssetInfo} (named : orderSymbol req.symbol opts = .ok symbol)
    (row : assets.lookup symbol = some asset) : prepare assets opts req = prepareOrder req asset opts := by
  rw [prepare, named]
  simp only [bind, Except.bind, row]

/-- The body of `POST /v2/orders`. -/
def PreparedOrder.toJson (order : PreparedOrder) : JsonValue :=
  .object <|
    [("symbol", .text order.symbol), ("qty", .text order.quantity.normal.display),
      ("side", .text order.side.asStr),
      ("type", .text (if order.limitPrice.isNone then "market" else "limit")),
      ("time_in_force", .text order.timeInForce.asStr),
      ("client_order_id", .text order.clientOrderId)] ++
    (match order.limitPrice with
      | some p => [("limit_price", .text p.normal.display)]
      | none => []) ++
    (if order.extendedHours then [("extended_hours", .flag true)] else [])

omit [DebugText] in
theorem toJson_qty (order : PreparedOrder) :
    order.toJson.get "qty" = some (.text order.quantity.normal.display) := by
  simp [PreparedOrder.toJson, JsonValue.get, List.lookup_cons]

theorem normalizeSymbol_eq {name symbol : String} (h : normalizeSymbol name = .ok symbol) :
    symbol = asciiUpper (trimmed name) := by
  simp only [normalizeSymbol] at h
  split at h
  · split at h <;> cases h
  · split at h
    · exact (Except.ok.inj h).symm
    · cases h

theorem normalizeCryptoPair_eq {name symbol : String} (h : normalizeCryptoPair name = .ok symbol) :
    symbol = asciiUpper (trimmed name) := by
  unfold normalizeCryptoPair at h
  split at h
  next base quote split =>
    obtain ⟨slash, here, whole⟩ := of_splitFirst split
    obtain rfl : slash = '/' := by simpa using here
    split at h
    · rw [← Except.ok.inj h, ← whole, String.ofList_toList]
    · cases h
  next => cases h

theorem lookup_orderSymbol {name symbol : String} {opts : PrepareOptions} (table : AssetTable)
    (h : orderSymbol name opts = .ok symbol) : table.lookup symbol = table.lookup name := by
  have same : symbol = asciiUpper (trimmed name) := by
    unfold orderSymbol at h
    split at h
    · split at h
      · cases h
      · exact normalizeCryptoPair_eq h
    · exact normalizeSymbol_eq h
  rw [AssetTable.lookup, AssetTable.lookup, same, asciiUpper_trimmed_again]

theorem roundQuantity_eq_ok {r : Dec} :
    asset.roundQuantity q = .ok r ↔ ∃ m, asset.floored q = .ok m ∧ m.normal = r ∧
      ¬ r.isZero = true ∧ ¬ r < asset.minOrderSize := by
  simp only [AssetInfo.roundQuantity, bind_eq_ok, mapDec_eq_ok, refuse_eq_ok, pure_eq_ok]
  constructor
  · rintro ⟨m, floored, nonzero, enough, rfl⟩
    exact ⟨m, floored, rfl, nonzero, enough⟩
  · rintro ⟨m, floored, rfl, nonzero, enough⟩
    exact ⟨m, floored, nonzero, enough, rfl⟩

theorem roundQuantity_le {r : Dec} (nonneg : 0 ≤ q.units.val) (sized : asset.roundQuantity q = .ok r) : r ≤ q := by
  obtain ⟨m, floored, rfl, -⟩ := roundQuantity_eq_ok.1 sized
  rw [Dec.le_iff, m.atto_normal]
  exact atto_floored_le nonneg floored

theorem roundQuantity_again_iff {r : Dec} (sized : asset.roundQuantity q = .ok r) :
    (r.isPositive = true ∧ asset.roundQuantity r = .ok r) ↔ asset.Steady q := by
  obtain ⟨m, floored, rfl, nonzero, enough⟩ := roundQuantity_eq_ok.1 sized
  have attoPos : m.normal.isPositive = true ↔ 0 < m.units.val := by
    rw [Dec.isPositive_iff, m.atto_normal, ← Dec.isPositive_iff, Dec.isPositive_iff_units]
  have unitsNonzero : m.units.val ≠ 0 := by
    intro zero
    apply nonzero
    rw [Dec.isZero_iff, m.atto_normal, Dec.atto, zero, zero_mul]
  rw [← floored_again_iff floored unitsNonzero, attoPos, roundQuantity_eq_ok]
  simp only [nonzero, enough, Bool.false_eq_true, not_false_eq_true, and_true]

theorem checkRequest_market {tag name : String} {side : Side} {q : Dec} {price : Option Dec}
    {opts : PrepareOptions} {u : Unit} :
    checkRequest (OrderRequest.marketAt tag name side q price) opts = .ok u ↔
      q.isPositive = true ∧ validateTag tag opts = .ok () := by
  simp [checkRequest, refuse_eq_ok, OrderRequest.marketAt, OrderRequest.market, OrderRequest.base]

def marketOrder (req : OrderRequest) (asset : AssetInfo) (symbol : String) (quantity whole : Dec)
    (costCheckSkipped : Bool) : PreparedOrder :=
  ⟨symbol, req.side, req.quantity, quantity, !quantity.eq whole, none,
    if isCryptoPair req.symbol then .gtc else .day, false, req.tag, asset.source, costCheckSkipped⟩

theorem prepareOrder_market {tag name : String} {side : Side} {q price : Dec} {opts : PrepareOptions}
    {order : PreparedOrder} :
    prepareOrder (OrderRequest.marketAt tag name side q (some price)) asset opts = .ok order ↔
      ∃ symbol, orderSymbol name opts = .ok symbol ∧ checkRow asset symbol opts = .ok () ∧
        q.isPositive = true ∧ validateTag tag opts = .ok () ∧ ∃ quantity whole skipped,
          asset.roundQuantity q = .ok quantity ∧ mapDec (quantity.roundDp 0 .floor) = .ok whole ∧
          checkCost opts symbol quantity (some price) = .ok skipped ∧
          marketOrder (OrderRequest.marketAt tag name side q (some price)) asset symbol quantity
            whole skipped = order := by
  simp only [prepareOrder, bind_eq_ok, checkRequest_market, refuse_eq_ok, pure_eq_ok]
  constructor
  · rintro ⟨symbol, named, ⟨⟩, row, ⟨⟩, ⟨positive, tagged⟩, quantity, sized, whole, floor, tif, force,
      -, price', market, skipped, cost, made⟩
    obtain rfl := Except.ok.inj market
    obtain rfl := Except.ok.inj force
    refine ⟨symbol, named, row, positive, tagged, quantity, whole, skipped, sized, floor, cost, ?_⟩
    rw [← made]
    simp [marketOrder, OrderRequest.marketAt, OrderRequest.market, OrderRequest.base, OrderKind.isLimit]
  · rintro ⟨symbol, named, row, positive, tagged, quantity, whole, skipped, sized, floor, cost, made⟩
    refine ⟨symbol, named, (), row, (), ⟨positive, tagged⟩, quantity, sized, whole, floor, _, rfl, ?_,
      none, rfl, skipped, cost, ?_⟩
    · cases crypto : isCryptoPair (OrderRequest.marketAt tag name side q (some price)).symbol <;> simp
    · rw [← made]
      simp [marketOrder, OrderRequest.marketAt, OrderRequest.market, OrderRequest.base, OrderKind.isLimit]

end BrokerAdapters.Alpaca
