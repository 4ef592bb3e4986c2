import SignalEngine.RebalancerCore.Venue
import SignalEngine.BrokerAdapters.KrakenOrder
import SignalEngine.BrokerAdapters.AlpacaOrder
import SignalEngine.BrokerAdapters.OandaOrder

/-! # Sizes the venues accept

The planner's venue rules ask an adapter's own order preparation what it makes
of a market order. The order that is sent later goes through the same
preparation, with the rounded quantity: here is when that second pass changes
nothing.
-/

open BrokerAdapters Outcome Text

namespace RebalancerCore

section sizing

variable [DebugText]

def mapError (symbol : String) : BrokerError → SizeRefusal
  | .quantityRoundsToZero .. => .roundsToZero
  | .belowMinQuantity _ min _ => .belowMinQuantity min
  | .belowMinCost _ min _ => .belowMinCost min
  | .pairNotTradable _ status => .notTradable status
  | .unknownSymbol _ => .unknownInstrument symbol
  | other => .other other.display

/-- The derived `Debug` text of a table lookup. -/
class DebugRow (α : Type) where
  text : Option α → String

def probed {α : Type} (symbol : String) (quantity : α → Dec) (prepared : Except BrokerError α) :
    Except SizeRefusal Dec :=
  match prepared with
  | .ok order => .ok (quantity order)
  | .error e => .error (mapError symbol e)

def KrakenRules [DebugRow Kraken.PairInfo] (pairs : Kraken.PairTable) : VenueRules where
  roundQuantity symbol side quantity price :=
    match pairs.lookup symbol with
    | none => .error (.unknownInstrument symbol)
    | some pair =>
        let req := OrderRequest.marketAt "rb1:size-probe" symbol side quantity (some price)
        probed symbol Kraken.PreparedOrder.volume (Kraken.prepareOrder req pair 1 .default)
  fingerprint symbol := s!"kraken:{symbol}:{DebugRow.text (pairs.lookup symbol)}"

def AlpacaRules [DebugRow Alpaca.AssetInfo] (assets : Alpaca.AssetTable)
    (options : Alpaca.PrepareOptions) : VenueRules where
  roundQuantity symbol side quantity price :=
    match assets.lookup symbol with
    | none => .error (.unknownInstrument symbol)
    | some asset =>
        let tag := options.ownTagPrefix.getD "" ++ "size-probe"
        let req := OrderRequest.marketAt tag symbol side quantity (some price)
        probed symbol Alpaca.PreparedOrder.quantity (Alpaca.prepareOrder req asset options)
  fingerprint symbol :=
    s!"alpaca:{symbol}:{DebugRow.text (assets.lookup symbol)}" ++
      s!":min_notional={options.minNotional.display}"

def OandaRules [DebugRow Oanda.InstrumentInfo] (instruments : Oanda.InstrumentTable)
    (options : Oanda.PrepareOptions) : VenueRules where
  roundQuantity symbol side quantity _ :=
    match instruments.lookup symbol with
    | none => .error (.unknownInstrument symbol)
    | some info =>
        let tag := options.ownTagPrefix.getD "" ++ "size-probe"
        let req := OrderRequest.market tag symbol side quantity
        probed symbol Oanda.PreparedOrder.quantity (Oanda.prepareOrder req info options)
  fingerprint symbol :=
    let canonical := match Oanda.canonicalSymbol symbol with
      | .ok name => name
      | .error _ => symbol
    s!"oanda:{canonical}:{DebugRow.text (instruments.lookup symbol)}"

/-- An adapter with its table and its options. -/
inductive SizedVenue where
  | kraken (pairs : Kraken.PairTable) (opts : Kraken.PrepareOptions)
  | alpaca (assets : Alpaca.AssetTable) (opts : Alpaca.PrepareOptions)
  | oanda (instruments : Oanda.InstrumentTable) (opts : Oanda.PrepareOptions)

structure SentSize where
  quantity : Dec
  /-- The size field of the request. -/
  text : Option String

def textOf : Option JsonValue → Option String
  | some (.text s) => some s
  | _ => none

namespace SizedVenue

def rules [DebugRow Kraken.PairInfo] [DebugRow Alpaca.AssetInfo] [DebugRow Oanda.InstrumentInfo] :
    SizedVenue → VenueRules
  | kraken pairs _ => KrakenRules pairs
  | alpaca assets opts => AlpacaRules assets opts
  | oanda instruments opts => OandaRules instruments opts

/-- The adapter's preparation of a request and the size field it writes. The
    userref is the one Kraken reserves for the tag. -/
def prepare (userref : Int) (req : OrderRequest) : SizedVenue → Except BrokerError SentSize
  | kraken pairs opts => do
      let order ← Kraken.prepare pairs opts userref req
      let params ← order.toParams
      return ⟨order.volume, params.lookup "volume"⟩
  | alpaca assets opts => do
      let order ← Alpaca.prepare assets opts req
      return ⟨order.quantity, textOf (order.toJson.get "qty")⟩
  | oanda instruments opts => do
      let order ← Oanda.prepare instruments opts req
      return ⟨order.quantity, textOf ((order.toJson.get "order").bind fun o => o.get "units")⟩

/-- A tag the adapter takes; at Kraken every tag stands behind a userref. -/
def ValidTag (tag : String) : SizedVenue → Prop
  | kraken _ _ => True
  | alpaca _ opts => Alpaca.validateTag tag opts = .ok ()
  | oanda _ opts => Oanda.validateClientId tag opts.ownTagPrefix = .ok ()

/-- OANDA writes the side into the sign of the units. -/
def wireValue (side : Side) (quantity : ℚ) : SizedVenue → ℚ
  | oanda _ _ => side.signed quantity
  | _ => quantity

end SizedVenue

/-- A market order of `r` goes out as `r`, whatever its tag. -/
def SentAsPlanned (venue : SizedVenue) (symbol : String) (side : Side) (price r : Dec) : Prop :=
  ∀ tag userref, venue.ValidTag tag →
    ∃ text, venue.prepare userref (OrderRequest.marketAt tag symbol side r (some price)) =
        .ok ⟨r, some text⟩ ∧ Dec.Denotes text (venue.wireValue side r.toRat)

/-- The rounding keeps the sign of the wish, and a second one finds nothing to take. -/
def SizedVenue.Steady (symbol : String) (q : Dec) : SizedVenue → Prop
  | .kraken pairs _ => ∀ pair, pairs.lookup symbol = some pair → 0 < q.digitsAt pair.lotDecimals
  | .alpaca assets _ => ∀ asset, assets.lookup symbol = some asset → asset.Steady q
  | .oanda instruments _ =>
      ∀ info, instruments.lookup symbol = some info → 0 < q.digitsAt info.tradeUnitsPrecision

theorem probed_eq_ok {α : Type} {symbol : String} {quantity : α → Dec}
    {prepared : Except BrokerError α} {r : Dec} :
    probed symbol quantity prepared = .ok r ↔ ∃ order, prepared = .ok order ∧ quantity order = r := by
  cases prepared <;> simp [probed]

/-- The planned size is a positive part of the wish and goes out as it is. -/
def PlannedIsSent (venue : SizedVenue) (symbol : String) (side : Side) (q price r : Dec) : Prop :=
  r.isPositive = true ∧ r ≤ q ∧ SentAsPlanned venue symbol side price r

section kraken

variable [DebugRow Kraken.PairInfo] {pairs : Kraken.PairTable} {opts : Kraken.PrepareOptions}
  {symbol : String} {side : Side} {q price r : Dec}

theorem kraken_planned_is_sent (positive : q.isPositive = true)
    (sized : (KrakenRules pairs).roundQuantity symbol side q price = .ok r) :
    PlannedIsSent (.kraken pairs opts) symbol side q price r ↔
      (SizedVenue.kraken pairs opts).Steady symbol q := by
  cases found : pairs.lookup symbol with
  | none => simp [KrakenRules, found] at sized
  | some pair =>
      simp only [KrakenRules, found, probed_eq_ok, Kraken.prepareOrder_market] at sized
      obtain ⟨_, ⟨tradable, -, volume, skipped, sized, cost, rfl⟩, rfl⟩ := sized
      change PlannedIsSent (.kraken pairs opts) symbol side q price volume ↔ _
      obtain ⟨rounded, -⟩ := Kraken.sizeVolume_eq_ok.1 sized
      obtain ⟨scale, units⟩ := Dec.roundDp_floor_eq_ok.1 rounded
      have steady : (SizedVenue.kraken pairs opts).Steady symbol q ↔ volume.isPositive = true := by
        simp [SizedVenue.Steady, found, Dec.isPositive_iff_units, units]
      rw [steady]
      refine ⟨fun planned => planned.1, fun volumePos => ?_⟩
      refine ⟨volumePos, Dec.roundDp_floor_le (Dec.isPositive_iff_units.1 positive).le rounded, ?_⟩
      intro tag userref _
      obtain ⟨params, written, text⟩ :=
        Kraken.toParams_volume pair side volume userref opts skipped scale
      have order : Kraken.prepare pairs opts userref
          (OrderRequest.marketAt tag symbol side volume (some price)) =
            .ok (Kraken.marketOrder pair side volume volume userref opts skipped) := by
        rw [Kraken.prepare]
        simp only [OrderRequest.marketAt, OrderRequest.market, OrderRequest.base, found]
        exact Kraken.prepareOrder_market.2
          ⟨tradable, volumePos, volume, skipped, Kraken.sizeVolume_again sized, cost, rfl⟩
      refine ⟨volume.display, ?_, volume.denotes_display⟩
      simp only [SizedVenue.prepare, bind_eq_ok, pure_eq_ok]
      refine ⟨_, order, params, written, ?_⟩
      rw [text]
      rfl

end kraken

section alpaca

variable [DebugRow Alpaca.AssetInfo] {assets : Alpaca.AssetTable} {opts : Alpaca.PrepareOptions}
  {symbol : String} {side : Side} {q price r : Dec}

theorem alpaca_planned_is_sent (positive : q.isPositive = true)
    (sized : (AlpacaRules assets opts).roundQuantity symbol side q price = .ok r) :
    PlannedIsSent (.alpaca assets opts) symbol side q price r ↔
      (SizedVenue.alpaca assets opts).Steady symbol q := by
  cases found : assets.lookup symbol with
  | none => simp [AlpacaRules, found] at sized
  | some asset =>
      simp only [AlpacaRules, found, probed_eq_ok, Alpaca.prepareOrder_market] at sized
      obtain ⟨_, ⟨name, named, row, -, tagged, quantity, whole, skipped, sized, floor, cost, rfl⟩, rfl⟩ :=
        sized
      change PlannedIsSent (.alpaca assets opts) symbol side q price quantity ↔ _
      have steady : (SizedVenue.alpaca assets opts).Steady symbol q ↔
          quantity.isPositive = true ∧ asset.roundQuantity quantity = .ok quantity := by
        rw [Alpaca.roundQuantity_again_iff sized]
        simp [SizedVenue.Steady, found]
      have row' : assets.lookup name = some asset := by rw [Alpaca.lookup_orderSymbol assets named, found]
      have order (tag : String) (d : Dec) : Alpaca.prepare assets opts
          (OrderRequest.marketAt tag symbol side d (some price)) =
            Alpaca.prepareOrder (OrderRequest.marketAt tag symbol side d (some price)) asset opts :=
        Alpaca.prepare_eq named row'
      rw [steady]
      constructor
      · rintro ⟨quantityPos, -, sent⟩
        -- The probe's own tag is a valid one.
        obtain ⟨text, prepared, -⟩ := sent _ 0 tagged
        simp only [SizedVenue.prepare, order, bind_eq_ok, pure_eq_ok, Alpaca.prepareOrder_market] at prepared
        obtain ⟨_, ⟨_, -, -, -, -, quantity', _, _, again, -, -, rfl⟩, same⟩ := prepared
        obtain rfl : quantity' = quantity := (SentSize.mk.inj same).1
        exact ⟨quantityPos, again⟩
      · rintro ⟨quantityPos, again⟩
        refine ⟨quantityPos,
          Alpaca.roundQuantity_le (Dec.isPositive_iff_units.1 positive).le sized, ?_⟩
        intro tag userref valid
        refine ⟨quantity.normal.display, ?_, ?_⟩
        · simp only [SizedVenue.prepare, order, bind_eq_ok, pure_eq_ok, Alpaca.toJson_qty]
          refine ⟨Alpaca.marketOrder (OrderRequest.marketAt tag symbol side quantity (some price)) asset
            name quantity whole skipped, ?_, rfl⟩
          rw [Alpaca.prepareOrder_market]
          exact ⟨name, named, row, quantityPos, valid, quantity, whole, skipped, again, floor, cost, rfl⟩
        · have text := quantity.normal.denotes_display
          rwa [Dec.toRat_normal] at text

end alpaca

section oanda

variable [DebugRow Oanda.InstrumentInfo] {instruments : Oanda.InstrumentTable}
  {opts : Oanda.PrepareOptions} {symbol : String} {side : Side} {q price r : Dec}

theorem oanda_planned_is_sent (positive : q.isPositive = true)
    (sized : (OandaRules instruments opts).roundQuantity symbol side q price = .ok r) :
    PlannedIsSent (.oanda instruments opts) symbol side q price r ↔
      (SizedVenue.oanda instruments opts).Steady symbol q := by
  cases found : instruments.lookup symbol with
  | none => simp [OandaRules, found] at sized
  | some info =>
      have probe : ∀ tag, OrderRequest.market tag symbol side q =
        OrderRequest.marketAt tag symbol side q none := fun _ => rfl
      simp only [OandaRules, found, probed_eq_ok, probe, Oanda.prepareOrder_market] at sized
      obtain ⟨_, ⟨instrument, name, named, row, -, tagged, canonical, quantity, sized, rfl⟩, rfl⟩ := sized
      change PlannedIsSent (.oanda instruments opts) symbol side q price quantity ↔ _
      obtain ⟨rounded, -⟩ := Oanda.sizeUnits_eq_ok.1 sized
      obtain ⟨scale, units⟩ := Dec.roundDp_floor_eq_ok.1 rounded
      have steady : (SizedVenue.oanda instruments opts).Steady symbol q ↔
          quantity.isPositive = true := by
        simp [SizedVenue.Steady, found, Dec.isPositive_iff_units, units]
      rw [steady]
      refine ⟨fun planned => planned.1, fun quantityPos => ?_⟩
      refine ⟨quantityPos, Dec.roundDp_floor_le (Dec.isPositive_iff_units.1 positive).le rounded, ?_⟩
      intro tag userref valid
      have row' : instruments.lookup instrument = some info := by
        rw [Oanda.lookup_normalizeInstrument instruments named, found]
      have order : Oanda.prepare instruments opts
          (OrderRequest.marketAt tag symbol side quantity (some price)) =
            Oanda.prepareOrder (OrderRequest.marketAt tag symbol side quantity (some price)) info opts :=
        Oanda.prepare_eq named row'
      refine ⟨(Oanda.signedUnits side quantity).normal.display, ?_, ?_⟩
      · simp only [SizedVenue.prepare, order, bind_eq_ok, pure_eq_ok, Oanda.toJson_units]
        refine ⟨Oanda.marketOrder tag instrument side quantity quantity opts, ?_, rfl⟩
        rw [Oanda.prepareOrder_market]
        exact ⟨instrument, name, named, row, quantityPos, valid, canonical, quantity,
          Oanda.sizeUnits_again sized, rfl⟩
      · have text := (Oanda.signedUnits side quantity).normal.denotes_display
        rw [Dec.toRat_normal, Oanda.toRat_signedUnits side quantityPos] at text
        exact text

end oanda

section venues

variable [DebugRow Kraken.PairInfo] [DebugRow Alpaca.AssetInfo] [DebugRow Oanda.InstrumentInfo]

/-- What the rules plan for a wish is a positive part of it and is sent unchanged,
    under any tag, exactly when the rounding is steady on that wish. -/
theorem planned_size_is_sent_iff (venue : SizedVenue) (symbol : String) (side : Side) (q price r : Dec)
    (positive : q.isPositive = true)
    (sized : venue.rules.roundQuantity symbol side q price = .ok r) :
    PlannedIsSent venue symbol side q price r ↔ venue.Steady symbol q := by
  cases venue with
  | kraken pairs opts =>
      simp only [SizedVenue.rules] at sized
      exact kraken_planned_is_sent positive sized
  | alpaca assets opts =>
      simp only [SizedVenue.rules] at sized
      exact alpaca_planned_is_sent positive sized
  | oanda instruments opts =>
      simp only [SizedVenue.rules] at sized
      exact oanda_planned_is_sent positive sized

end venues

end sizing

namespace Shares

@[reducible] private def quotes : DebugText := ⟨fun s => "\"" ++ s ++ "\""⟩
@[reducible] private def noRow (α : Type) : DebugRow α := ⟨fun _ => ""⟩

attribute [local instance] quotes noRow

private def row (symbol : String) (step : Dec) : Alpaca.AssetInfo :=
  ⟨symbol, true, true, Dec.zero, some step, none, some "active", .api⟩

private def options : Alpaca.PrepareOptions := ⟨false, Dec.zero, some "rb1:", true, false⟩

/-- Two assets: one trades in thousandths, the other in steps of 2.5 billionths. -/
private def assets : Alpaca.AssetTable :=
  ⟨(∅ : Std.ExtTreeMap String Alpaca.AssetInfo)
    |>.insert "SPY" (row "SPY" ⟨⟨1, Dec.fits_one⟩, 3, Dec.scale_three⟩)
    |>.insert "DUST" (row "DUST" ⟨⟨25, Dec.fits_twentyFive⟩, 10, by decide⟩)⟩

private def venue : SizedVenue := .alpaca assets options

private def price : Dec := ⟨⟨500, by decide⟩, 0, Dec.scale_zero⟩

private def wish : Dec := ⟨⟨123456, by decide⟩, 5, Dec.scale_five⟩

private def dust : Dec := ⟨⟨3, Dec.fits_three⟩, 9, by decide⟩

/-- Thousandths are nine-decimal numbers. -/
theorem thousandths_are_sent :
    PlannedIsSent venue "SPY" .buy wish price
      ⟨⟨1234, by decide⟩, 3, by decide⟩ := by
  refine (planned_size_is_sent_iff venue "SPY" .buy _ price _ (by decide) (by decide +kernel)).2 ?_
  intro asset found
  have spy : assets.lookup "SPY" = some (row "SPY" ⟨⟨1, by decide⟩, 3, by decide⟩) := by decide +kernel
  obtain rfl := Option.some.inj (found.symm.trans spy)
  refine ⟨by decide, fun _ step increment => ⟨1234000000, ?_⟩⟩
  obtain rfl := Option.some.inj increment
  have digits : wish.digitsAt 9 = 1234560000 := by decide
  have floor : ⌊(1234560000 : ℚ) / 10 ^ 9 / (1 / 10 ^ 3)⌋ = 1234 := by
    rw [Int.floor_eq_iff]
    norm_num
  simp only [Alpaca.FRACTIONAL_DP, digits, Dec.toRat]
  push_cast
  rw [floor]
  norm_num

theorem increment_below_nine_decimals_is_lost :
    venue.rules.roundQuantity "DUST" .buy dust price =
        .ok ⟨⟨25, by decide⟩, 10, by decide⟩ ∧
      ¬ PlannedIsSent venue "DUST" .buy dust price
        ⟨⟨25, by decide⟩, 10, by decide⟩ := by
  refine ⟨by decide +kernel, ?_⟩
  rintro ⟨-, -, sent⟩
  obtain ⟨text, prepared, -⟩ := sent "rb1:buy" 0 (show Alpaca.validateTag "rb1:buy" options = .ok () by decide +kernel)
  have refused : (venue.prepare 0 (OrderRequest.marketAt "rb1:buy" "DUST" .buy
      ⟨⟨25, by decide⟩, 10, by decide⟩ (some price))).isOk = false := by decide +kernel
  rw [prepared] at refused
  cases refused

end Shares

end RebalancerCore
