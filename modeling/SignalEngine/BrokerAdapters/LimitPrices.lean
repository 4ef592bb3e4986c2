import SignalEngine.BrokerAdapters.DecimalCanonical
import SignalEngine.BrokerAdapters.KrakenOrder
import SignalEngine.BrokerAdapters.AlpacaOrder
import SignalEngine.BrokerAdapters.OandaOrder

/-! # Limit prices

The price that is sent for a limit order is never worse than the one asked for, lies on the
venue's grid, and is what the text of the order says, for every price whose digits the
rounding can lift.
-/

open MachineInt Outcome Text

namespace BrokerAdapters

/-- At most the asked price for a buy, at least it for a sell. -/
def Side.NeverWorse : Side → (asked got : ℚ) → Prop
  | buy, asked, got => got ≤ asked
  | sell, asked, got => asked ≤ got

namespace Side

theorem NeverWorse.trans {side : Side} {a b c : ℚ} (first : side.NeverWorse a b) (second : side.NeverWorse b c) :
    side.NeverWorse a c := by
  cases side with
  | buy => exact le_trans second first
  | sell => exact le_trans first second

theorem NeverWorse.refl (side : Side) (a : ℚ) : side.NeverWorse a a := by
  cases side <;> exact le_refl a

theorem toInt_neverWorse (side : Side) (x : ℚ) : side.NeverWorse x (side.priceRounding.toInt x) := by
  cases side with
  | buy => exact Int.floor_le x
  | sell => exact Int.le_ceil x

theorem multiple_neverWorse (side : Side) (x : ℚ) {step : ℚ} (positive : 0 < step) :
    side.NeverWorse x (side.priceRounding.toInt (x / step) * step) := by
  have way := side.toInt_neverWorse (x / step)
  cases side with
  | buy => exact (le_div_iff₀ positive).1 way
  | sell => exact (div_le_iff₀ positive).1 way

theorem priceRounding_ne_halfUp (side : Side) : side.priceRounding ≠ .halfUp := by
  cases side <;> nofun

end Side

/-! ## Rounding -/

namespace Dec

variable {d r step m : Dec} {dp : Nat} {mode : Rounding}

theorem roundDp_scale (rounded : d.roundDp dp mode = .ok r) : r.scale = dp := by
  unfold roundDp roundDpCalc at rounded
  split at rounded
  next within =>
    split at rounded
    · exact (congrArg Dec.scale (Except.ok.inj rounded)).symm
    · exact (congrArg Dec.scale (Except.ok.inj rounded)).symm
  next => cases rounded

theorem toRat_roundDp (rounded : d.roundDp dp mode = .ok r) (calm : d.LiftFits dp) :
    r.toRat = mode.toInt (d.toRat * 10 ^ dp) / 10 ^ dp := by
  have within : dp ≤ maxScale := roundDp_scale rounded ▸ r.scale_le
  obtain ⟨r', run, -, value⟩ := d.roundDpCalc_exact mode within calm
  rw [roundDp, run, Calc.result_pure] at rounded
  obtain rfl := Except.ok.inj rounded
  exact value

theorem roundToMultiple_ok (directed : mode ≠ .halfUp) (multiple : d.roundToMultiple step mode = .ok m) :
    0 < step.toRat ∧ m.scale = max d.scale step.scale ∧
      m.toRat = mode.toInt (d.toRat / step.toRat) * step.toRat := by
  by_cases positive : 0 < step.units.val
  · have stepPos : 0 < step.toRat := div_pos (by exact_mod_cast positive) (by positivity)
    refine ⟨stepPos, ?_, ?_⟩
    · rcases roundToMultipleCalc_common d mode positive with ⟨overflow, -⟩ | ⟨a, b, -, -, run⟩
      · rw [roundToMultiple, overflow] at multiple
        cases multiple
      · rw [roundToMultiple, run, Calc.result_bind, Calc.result_ofArith] at multiple
        obtain ⟨n, -, multiple⟩ := bind_eq_ok.1 multiple
        rw [Calc.result_bind] at multiple
        obtain ⟨units, -, multiple⟩ := bind_eq_ok.1 multiple
        exact (congrArg Dec.scale (Except.ok.inj multiple)).symm
    · rcases d.roundToMultipleCalc_exact mode positive (fun _ _ _ half => absurd half directed) with
        overflow | ⟨r, run, value⟩
      · rw [roundToMultiple, overflow] at multiple
        cases multiple
      · rw [roundToMultiple, run] at multiple
        obtain rfl := Except.ok.inj multiple
        exact value
  · rw [roundToMultiple, roundToMultipleCalc_badStep d mode (not_lt.1 positive)] at multiple
    cases multiple

theorem toRat_pos_iff : 0 < d.toRat ↔ 0 < d.units.val := by
  unfold toRat
  have power : (0 : ℚ) < 10 ^ d.scale := by positivity
  rw [lt_div_iff₀ power, zero_mul]
  exact Int.cast_pos

theorem lt_of_lift_wraps (positive : 0 < d.toRat) (wraps : ¬ d.LiftFits dp) {p : Dec} (digits : dp ≤ p.scale) :
    p.toRat < d.toRat := by
  unfold LiftFits at wraps
  push Not at wraps
  obtain ⟨within, le, misfit⟩ := wraps
  have large : (2 : Int) ^ 127 ≤ d.units.val * 10 ^ (dp - d.scale) := by
    by_contra small
    have nonneg : 0 ≤ d.units.val * 10 ^ (dp - d.scale) :=
      mul_nonneg (toRat_pos_iff.1 positive).le (ten_pow_pos _).le
    exact misfit ⟨by omega, by omega⟩
  have lifted : (2 : ℚ) ^ 127 ≤ d.toRat * 10 ^ dp := by
    rw [toRat_mul_pow d le]
    exact_mod_cast large
  have power : (0 : ℚ) < 10 ^ dp := by positivity
  have bound : p.toRat * 10 ^ dp < 2 ^ 127 := by
    have units : (p.units.val : ℚ) < 2 ^ 127 := by
      have bound : p.units.val < 2 ^ 127 := by
        have := p.units.fits.2
        omega
      exact_mod_cast bound
    have powers : (10 : ℚ) ^ p.scale = 10 ^ dp * 10 ^ (p.scale - dp) := by
      rw [← pow_add, Nat.add_sub_cancel' digits]
    have rest : (1 : ℚ) ≤ 10 ^ (p.scale - dp) := one_le_pow₀ (by norm_num)
    have shifted : p.toRat * 10 ^ dp = p.units.val / 10 ^ (p.scale - dp) := by
      rw [toRat, powers]
      field_simp
    rw [shifted, div_lt_iff₀ (by positivity)]
    calc (p.units.val : ℚ) < 2 ^ 127 := units
      _ ≤ 2 ^ 127 * 10 ^ (p.scale - dp) := le_mul_of_one_le_right (by positivity) rest
  exact lt_of_mul_lt_mul_right (bound.trans_le lifted) power.le

/-- A number of `10^-dp` that has at least so many digits is shown with exactly so many. -/
theorem toFixed_of_multiple (within : dp ≤ maxScale) (digits : dp ≤ d.scale) {k : Int} (multiple : d.toRat = k / 10 ^ dp) :
    ∃ text, d.toFixed dp = .ok text ∧ Denotes text d.toRat := by
  have calm : d.LiftFits dp := by
    intro _ le
    obtain rfl : dp = d.scale := le_antisymm digits le
    simpa using d.units.fits
  obtain ⟨r, run, -, value⟩ := d.roundDpCalc_exact .floor within calm
  have power : (10 : ℚ) ^ dp ≠ 0 := by positivity
  have same : r.toRat = d.toRat := by
    rw [value, multiple, div_mul_cancel₀ _ power, Rounding.toInt_intCast]
  refine ⟨r.display, ?_, same ▸ r.denotes_display⟩
  rw [toFixed, toFixedCalc, run]
  simp [cmpCalc_eq, toRat_inj.1 same]

theorem roundDp_neverWorse_iff {side : Side} (positive : 0 < d.toRat)
    (rounded : d.roundDp dp side.priceRounding = .ok r) :
    side.NeverWorse d.toRat r.toRat ↔ (side = .sell → d.LiftFits dp) := by
  have power : (0 : ℚ) < 1 / 10 ^ dp := by positivity
  have calm : d.LiftFits dp → side.NeverWorse d.toRat r.toRat := by
    intro fits
    rw [toRat_roundDp rounded fits]
    simpa [div_eq_mul_inv] using side.multiple_neverWorse d.toRat power
  cases side with
  | buy =>
      refine iff_of_true ?_ nofun
      exact le_iff_toRat.1 (roundDp_floor_le (toRat_pos_iff.1 positive).le rounded)
  | sell =>
      refine ⟨fun way _ => ?_, fun fits => calm (fits rfl)⟩
      by_contra wraps
      have less := lt_of_lift_wraps positive wraps (roundDp_scale rounded).ge
      exact absurd way (not_le.2 less)

theorem multiple_of_scale (scale : d.scale = dp) : ∃ k : Int, d.toRat = k / 10 ^ dp :=
  ⟨d.units.val, by rw [toRat, scale]⟩

end Dec

/-! ## The venues -/

/-- The row of a venue's table and the options of its connection. -/
inductive VenueRow where
  | kraken (pair : Kraken.PairInfo) (userref : Int) (opts : Kraken.PrepareOptions)
  | alpaca (asset : Alpaca.AssetInfo) (opts : Alpaca.PrepareOptions)
  | oanda (info : Oanda.InstrumentInfo) (opts : Oanda.PrepareOptions)

inductive VenueOrder where
  | kraken (order : Kraken.PreparedOrder)
  | alpaca (order : Alpaca.PreparedOrder)
  | oanda (order : Oanda.PreparedOrder)

namespace VenueOrder

def price : VenueOrder → Option Dec
  | kraken order => order.price
  | alpaca order => order.limitPrice
  | oanda order => order.limitPrice

def quantity : VenueOrder → Dec
  | kraken order => order.volume
  | alpaca order => order.quantity
  | oanda order => order.quantity

/-- The number that the order is for; OANDA sends the side as its sign. -/
def sentQuantity : VenueOrder → ℚ
  | kraken order => order.volume.toRat
  | alpaca order => order.quantity.toRat
  | oanda order => order.side.signed order.quantity.toRat

end VenueOrder

def JsonValue.textAt (body : JsonValue) (key : String) : Option String :=
  match body.get key with
  | some (.text s) => some s
  | _ => none

section Venues

variable [DebugText]

def VenueRow.prepareOrder (row : VenueRow) (req : OrderRequest) : Except BrokerError VenueOrder :=
  match row with
  | kraken pair userref opts => do return .kraken (← Kraken.prepareOrder req pair userref opts)
  | alpaca asset opts => do return .alpaca (← Alpaca.prepareOrder req asset opts)
  | oanda info opts => do return .oanda (← Oanda.prepareOrder req info opts)

/-- The texts of the quantity and of the limit price, as they are sent. -/
def VenueOrder.texts : VenueOrder → Except BrokerError (Option String × Option String)
  | kraken order => do
      let params ← order.toParams
      return (params.lookup "volume", params.lookup "price")
  | alpaca order => return (order.toJson.textAt "qty", order.toJson.textAt "limit_price")
  | oanda order => do
      let body := order.toJson.get "order"
      return (body.bind (·.textAt "units"), body.bind (·.textAt "price"))

end Venues

def VenueRow.OnGrid (row : VenueRow) (asked price : Dec) : Prop :=
  match row with
  | kraken pair _ _ =>
      (∃ k : Int, price.toRat = k / 10 ^ pair.pairDecimals) ∧
        ∀ tick ∈ pair.tickSize, ∃ k : Int, price.toRat = k * tick.toRat
  | alpaca asset _ =>
      (∃ k : Int, price.toRat = k * (Alpaca.priceIncrement asset asked).toRat) ∧
        ∃ k : Int, price.toRat = k * (Alpaca.priceIncrement asset price).toRat
  | oanda info _ => ∃ k : Int, price.toRat = k / 10 ^ info.displayPrecision

/-- A limit order that is never worse than asked and that its text says exactly. -/
structure SendsLimit [DebugText] (row : VenueRow) (req : OrderRequest) (asked : Dec) (order : VenueOrder) : Prop where
  price : ∃ p, order.price = some p ∧ 0 < p.toRat ∧ req.side.NeverWorse asked.toRat p.toRat ∧ row.OnGrid asked p
  quantity : order.quantity.toRat ≤ req.quantity.toRat
  texts : ∃ quantity price, order.texts = .ok (some quantity, some price) ∧
    Dec.Denotes quantity order.sentQuantity ∧ ∀ p ∈ order.price, Dec.Denotes price p.toRat

/-- No unchecked step of the rounding of a sell wraps. -/
def VenueRow.Calm (row : VenueRow) (req : OrderRequest) (asked : Dec) : Prop :=
  match row with
  | kraken pair _ _ => req.side = .sell → asked.LiftFits pair.pairDecimals
  | alpaca _ _ => True
  | oanda info _ => req.side = .sell → asked.LiftFits info.displayPrecision ∧
      req.quantity.digitsAt info.tradeUnitsPrecision ≠ -2 ^ 127

namespace Kraken

variable [DebugText] {pair : PairInfo} {side : Side} {asked : Dec} {price : Option Dec}

structure Priced (pair : PairInfo) (side : Side) (asked p : Dec) : Prop where
  positive : 0 < p.toRat
  digits : pair.pairDecimals ≤ p.scale
  decimals : ∃ k : Int, p.toRat = k / 10 ^ pair.pairDecimals
  ticks : ∀ tick ∈ pair.tickSize, ∃ k : Int, p.toRat = k * tick.toRat
  way : side.NeverWorse asked.toRat p.toRat ↔ (side = .sell → asked.LiftFits pair.pairDecimals)

/-- The steps to a limit price: to the decimals, then to the tick, then the checks. -/
theorem limitPrice_steps (h : limitPrice pair side (.limit asked) = .ok price) :
    asked.isPositive = true ∧ ∃ r p, asked.roundDp pair.pairDecimals side.priceRounding = .ok r ∧
      (match pair.tickSize with
        | some tick => r.roundToMultiple tick side.priceRounding = .ok p
        | none => p = r) ∧
      p.normal.scale ≤ pair.pairDecimals ∧ p.isPositive = true ∧ price = some p := by
  cases ticked : pair.tickSize with
  | none =>
      simp only [limitPrice, bind_eq_ok, refuse_eq_ok, mapPrice_eq_ok, ticked, ok_bind, pure_eq_ok, Bool.not_eq_true',
        Bool.not_eq_false, not_lt, gt_iff_lt] at h
      obtain ⟨positive, r, rounded, coarse, sent, rfl⟩ := h
      exact ⟨positive, r, r, rounded, rfl, coarse, sent, rfl⟩
  | some tick =>
      simp only [limitPrice, bind_eq_ok, refuse_eq_ok, mapPrice_eq_ok, ticked, pure_eq_ok, Bool.not_eq_true',
        Bool.not_eq_false, not_lt, gt_iff_lt] at h
      obtain ⟨positive, r, rounded, p, multiple, coarse, sent, rfl⟩ := h
      exact ⟨positive, r, p, rounded, multiple, coarse, sent, rfl⟩

theorem limitPrice_priced (h : limitPrice pair side (.limit asked) = .ok price) :
    ∃ p, price = some p ∧ Priced pair side asked p := by
  obtain ⟨positive, r, p, rounded, ticked, coarse, sent, rfl⟩ := limitPrice_steps h
  have askedPos : 0 < asked.toRat := Dec.toRat_pos_iff.2 (Dec.isPositive_iff_units.1 positive)
  have units : 0 < p.units.val := Dec.isPositive_iff_units.1 sent
  have scale := Dec.roundDp_scale rounded
  have toDecimals := Dec.roundDp_neverWorse_iff askedPos rounded
  have ticks : ∀ tick ∈ pair.tickSize, 0 < tick.toRat ∧ p.scale = max r.scale tick.scale ∧
      p.toRat = side.priceRounding.toInt (r.toRat / tick.toRat) * tick.toRat := by
    intro tick found
    rw [Option.mem_def] at found
    rw [found] at ticked
    exact Dec.roundToMultiple_ok side.priceRounding_ne_halfUp ticked
  have untouched : pair.tickSize = none → p = r := by
    intro none
    rw [none] at ticked
    exact ticked
  have digits : pair.pairDecimals ≤ p.scale := by
    cases tick : pair.tickSize with
    | none => rw [untouched tick, scale]
    | some tick' =>
        rw [(ticks tick' tick).2.1, scale]
        exact le_max_left _ _
  have onward : side.NeverWorse r.toRat p.toRat := by
    cases tick : pair.tickSize with
    | none =>
        rw [untouched tick]
        exact .refl side _
    | some tick' =>
        obtain ⟨stepPos, -, value⟩ := ticks tick' tick
        rw [value]
        exact side.multiple_neverWorse _ stepPos
  refine ⟨p, rfl, ?_⟩
  constructor
  case positive => exact Dec.toRat_pos_iff.2 units
  case digits => exact digits
  case decimals => exact (p.normal_scale_le_iff units.ne' _).1 coarse
  case ticks => exact fun tick found => ⟨_, (ticks tick found).2.2⟩
  case way =>
    refine ⟨?_, fun calm => (toDecimals.2 calm).trans onward⟩
    rintro way rfl
    by_contra wraps
    exact absurd way (not_le.2 (Dec.lt_of_lift_wraps askedPos wraps digits))

theorem sizeVolume_toRat_le {q v : Dec} (positive : q.isPositive = true) (sized : sizeVolume pair q = .ok v) :
    v.toRat ≤ q.toRat := by
  exact Dec.le_iff_toRat.1 (Dec.roundDp_floor_le (Dec.isPositive_iff_units.1 positive).le (sizeVolume_eq_ok.1 sized).1)

omit [DebugText] in
theorem checkRequest_positive {req : OrderRequest} {opts : PrepareOptions} {u : Unit}
    (h : checkRequest req opts = .ok u) : req.quantity.isPositive = true := by
  simp only [checkRequest, refuse_eq_ok, Bool.not_eq_true', Bool.not_eq_false] at h
  exact h.1

theorem toParams_texts {order : PreparedOrder} {p : Dec} {volume price : String}
    (priced : order.price = some p) (volumeText : order.volume.toFixed order.volumeDp = .ok volume)
    (priceText : p.toFixed order.priceDp = .ok price) :
    ∃ params, order.toParams = .ok params ∧ params.lookup "volume" = some volume ∧ params.lookup "price" = some price := by
  have first := mapDec_eq_ok.2 volumeText
  have second := mapDec_eq_ok.2 priceText
  simp only [PreparedOrder.toParams, first, priced, second]
  exact ⟨_, rfl, rfl, rfl⟩

theorem sendsLimit_iff {req : OrderRequest} {userref : Int} {opts : PrepareOptions} {order : PreparedOrder}
    (kind : req.kind = .limit asked) (prepared : prepareOrder req pair userref opts = .ok order) :
    SendsLimit (.kraken pair userref opts) req asked (.kraken order) ↔
      VenueRow.Calm (.kraken pair userref opts) req asked := by
  simp only [prepareOrder, bind_eq_ok, pure_eq_ok, kind] at prepared
  obtain ⟨_, -, _, checked, volume, sized, price, limited, skipped, -, made⟩ := prepared
  obtain ⟨p, rfl, priced⟩ := limitPrice_priced limited
  have priceIs : order.price = some p := by rw [← made]
  have volumeIs : order.volume = volume := by rw [← made]
  have volumeDpIs : order.volumeDp = volume.scale := by
    rw [← made]
    exact (Dec.roundDp_floor_eq_ok.1 (sizeVolume_eq_ok.1 sized).1).1.symm
  have priceDpIs : order.priceDp = pair.pairDecimals := by rw [← made]
  constructor
  · rintro ⟨⟨p', same, -, way, -⟩, -, -⟩
    obtain rfl := Option.some.inj (priceIs.symm.trans same)
    exact priced.way.1 way
  · intro calm
    refine ⟨⟨p, priceIs, priced.positive, priced.way.2 calm, priced.decimals, priced.ticks⟩, ?_, ?_⟩
    · rw [VenueOrder.quantity, volumeIs]
      exact sizeVolume_toRat_le (checkRequest_positive checked) sized
    · have volumeText : order.volume.toFixed order.volumeDp = .ok volume.display := by
        rw [volumeIs, volumeDpIs]
        exact volume.toFixed_self
      obtain ⟨k, multiple⟩ := priced.decimals
      obtain ⟨text, fixed, denotes⟩ :=
        Dec.toFixed_of_multiple (priced.digits.trans p.scale_le) priced.digits multiple
      obtain ⟨params, sent, volumeSent, priceSent⟩ := toParams_texts priceIs volumeText (priceDpIs ▸ fixed)
      refine ⟨volume.display, text, ?_, ?_, fun p' same => ?_⟩
      · rw [VenueOrder.texts, sent, ok_bind, volumeSent, priceSent]
        rfl
      · rw [VenueOrder.sentQuantity, volumeIs]
        exact volume.denotes_display
      · obtain rfl := Option.some.inj (priceIs.symm.trans same)
        exact denotes

end Kraken

namespace Alpaca

variable {asset : AssetInfo} {side : Side} {asked : Dec} {price : Option Dec}

theorem priceIncrement_default (none : asset.priceIncrement = none) (price : Dec) :
    (priceIncrement asset price).toRat = if 1 ≤ price.toRat then 1 / 100 else 1 / 10000 := by
  have one : (⟨⟨1, by decide⟩, 0, by decide⟩ : Dec) ≤ price ↔ 1 ≤ price.toRat := by
    rw [Dec.le_iff_toRat]
    simp [Dec.toRat]
  simp only [priceIncrement, none, ge_iff_le, one]
  split <;> norm_num [Dec.toRat]

theorem increment_at_rounded {p : Dec} (multiple : p.toRat =
      side.priceRounding.toInt (asked.toRat / (priceIncrement asset asked).toRat) * (priceIncrement asset asked).toRat) :
    ∃ k : Int, p.toRat = k * (priceIncrement asset p).toRat := by
  cases own : asset.priceIncrement with
  | some i =>
      have same : priceIncrement asset p = priceIncrement asset asked := by
        simp only [priceIncrement, own]
      rw [same]
      exact ⟨_, multiple⟩
  | none =>
      rw [priceIncrement_default own] at multiple ⊢
      by_cases dollar : 1 ≤ asked.toRat
      · rw [if_pos dollar] at multiple
        have cents : (100 : ℤ) ≤ side.priceRounding.toInt (asked.toRat / (1 / 100)) := by
          have hundred : (100 : ℚ) ≤ asked.toRat / (1 / 100) := by linarith
          cases side with
          | buy => exact Int.le_floor.2 hundred
          | sell => exact_mod_cast hundred.trans (Int.le_ceil _)
        have above : 1 ≤ p.toRat := by
          have cents : (100 : ℚ) ≤ side.priceRounding.toInt (asked.toRat / (1 / 100)) := by exact_mod_cast cents
          rw [multiple]
          linarith
        rw [if_pos above]
        exact ⟨_, multiple⟩
      · rw [if_neg dollar] at multiple
        have pips : side.priceRounding.toInt (asked.toRat / (1 / 10000)) ≤ 10000 := by
          have most : asked.toRat / (1 / 10000) ≤ 10000 := by linarith
          cases side with
          | buy => exact_mod_cast (Int.floor_le _).trans most
          | sell => exact Int.ceil_le.2 most
        split
        next above =>
          -- Rounded up to the dollar itself.
          have dollarPips : side.priceRounding.toInt (asked.toRat / (1 / 10000)) = 10000 := by
            refine le_antisymm pips ?_
            rw [multiple] at above
            have least : (10000 : ℚ) ≤ side.priceRounding.toInt (asked.toRat / (1 / 10000)) := by linarith
            exact_mod_cast least
          refine ⟨100, ?_⟩
          rw [multiple, dollarPips]
          norm_num
        next => exact ⟨_, multiple⟩

variable [DebugText]

theorem limitPrice_ok (opts : PrepareOptions) (h : limitPrice asset side (.limit asked) = .ok price) :
    ∃ p, price = some p ∧ 0 < p.toRat ∧ side.NeverWorse asked.toRat p.toRat ∧
      VenueRow.OnGrid (.alpaca asset opts) asked p := by
  simp only [limitPrice, bind_eq_ok, refuse_eq_ok, mapPrice_eq_ok, pure_eq_ok, Bool.not_eq_true',
    Bool.not_eq_false] at h
  obtain ⟨positive, m, multiple, sent, rfl⟩ := h
  obtain ⟨stepPos, -, value⟩ := Dec.roundToMultiple_ok side.priceRounding_ne_halfUp multiple
  rw [← m.toRat_normal] at value
  refine ⟨m.normal, rfl, Dec.toRat_pos_iff.2 (Dec.isPositive_iff_units.1 sent), ?_, ⟨_, value⟩, ?_⟩
  · rw [value]
    exact side.multiple_neverWorse _ stepPos
  · exact increment_at_rounded value

omit [DebugText] in
theorem toJson_limitPrice {order : PreparedOrder} {p : Dec} (priced : order.limitPrice = some p) :
    order.toJson.textAt "qty" = some order.quantity.normal.display ∧
      order.toJson.textAt "limit_price" = some p.normal.display := by
  simp [PreparedOrder.toJson, JsonValue.textAt, JsonValue.get, List.lookup_cons, priced]

theorem checkRequest_positive {req : OrderRequest} {opts : PrepareOptions} {u : Unit}
    (h : checkRequest req opts = .ok u) : req.quantity.isPositive = true := by
  simp only [checkRequest, refuse_eq_ok, Bool.not_eq_true', Bool.not_eq_false] at h
  exact h.2.2.2.1

theorem sendsLimit {req : OrderRequest} {opts : PrepareOptions} {order : PreparedOrder}
    (kind : req.kind = .limit asked) (prepared : prepareOrder req asset opts = .ok order) :
    SendsLimit (.alpaca asset opts) req asked (.alpaca order) := by
  simp only [prepareOrder, bind_eq_ok, refuse_eq_ok, pure_eq_ok, kind] at prepared
  obtain ⟨symbol, -, _, -, _, checked, quantity, sized, whole, -, tif, -, -, price, limited, skipped, -, made⟩ := prepared
  obtain ⟨p, rfl, positive, way, grid⟩ := limitPrice_ok opts limited
  have priceIs : order.limitPrice = some p := by rw [← made]
  have quantityIs : order.quantity = quantity := by rw [← made]
  obtain ⟨quantityText, priceText⟩ := toJson_limitPrice priceIs
  refine ⟨⟨p, priceIs, positive, way, grid⟩, ?_, order.quantity.normal.display, p.normal.display, ?_, ?_, fun p' same => ?_⟩
  · rw [VenueOrder.quantity, quantityIs]
    exact Dec.le_iff_toRat.1 (roundQuantity_le (Dec.isPositive_iff_units.1 (checkRequest_positive checked)).le sized)
  · rw [VenueOrder.texts, quantityText, priceText]
    rfl
  · rw [VenueOrder.sentQuantity, ← order.quantity.toRat_normal]
    exact order.quantity.normal.denotes_display
  · obtain rfl := Option.some.inj (priceIs.symm.trans same)
    rw [← p.toRat_normal]
    exact p.normal.denotes_display

end Alpaca

namespace Oanda

variable {info : InstrumentInfo} {side : Side} {asked : Dec} {price : Option Dec}

/-- The sign of the side is exact but on the smallest number of units. -/
theorem toRat_signedUnits_iff (side : Side) (quantity : Dec) :
    (Oanda.signedUnits side quantity).toRat = side.signed quantity.toRat ↔
      (side = .sell → quantity.units.val ≠ -2 ^ 127) := by
  cases side with
  | buy => exact iff_of_true rfl nofun
  | sell =>
      have power : (10 : ℚ) ^ quantity.scale ≠ 0 := by positivity
      have negated : ((Dec.negate true quantity.units).val).val = wrap 128 (-quantity.units.val) := rfl
      have ratio : (Oanda.signedUnits .sell quantity).toRat = Side.sell.signed quantity.toRat ↔
          wrap 128 (-quantity.units.val) = -quantity.units.val := by
        simp only [Oanda.signedUnits, Side.signed, Dec.toRat, negated]
        rw [← neg_div, div_left_inj' power]
        exact_mod_cast Iff.rfl
      rw [ratio]
      obtain ⟨lower, upper⟩ := quantity.units.fits
      constructor
      · rintro same - smallest
        rw [smallest] at same
        exact absurd same (by decide)
      · intro other
        have different := other rfl
        exact wrap_of_fits ⟨by omega, by omega⟩

variable [DebugText]

theorem limitPrice_ok (h : limitPrice info side (.limit asked) = .ok price) :
    ∃ p, price = some p ∧ 0 < p.toRat ∧ (∃ k : Int, p.toRat = k / 10 ^ info.displayPrecision) ∧
      (side.NeverWorse asked.toRat p.toRat ↔ (side = .sell → asked.LiftFits info.displayPrecision)) := by
  simp only [limitPrice, bind_eq_ok, refuse_eq_ok, mapPrice_eq_ok, pure_eq_ok, Bool.not_eq_true',
    Bool.not_eq_false] at h
  obtain ⟨positive, p, rounded, sent, rfl⟩ := h
  have askedPos : 0 < asked.toRat := Dec.toRat_pos_iff.2 (Dec.isPositive_iff_units.1 positive)
  exact ⟨p, rfl, Dec.toRat_pos_iff.2 (Dec.isPositive_iff_units.1 sent),
    Dec.multiple_of_scale (Dec.roundDp_scale rounded), Dec.roundDp_neverWorse_iff askedPos rounded⟩

omit [DebugText] in
theorem toJson_price {order : PreparedOrder} {p : Dec} (priced : order.limitPrice = some p) :
    ((order.toJson.get "order").bind fun body => body.textAt "units") = some order.units.normal.display ∧
      ((order.toJson.get "order").bind fun body => body.textAt "price") = some p.display := by
  simp [PreparedOrder.toJson, JsonValue.textAt, JsonValue.get, List.lookup_cons, priced]

theorem checkRequest_positive {req : OrderRequest} {opts : PrepareOptions} {u : Unit}
    (h : checkRequest req opts = .ok u) : req.quantity.isPositive = true := by
  simp only [checkRequest, refuse_eq_ok, Bool.not_eq_true', Bool.not_eq_false] at h
  exact h.2.2.1

theorem sendsLimit_iff {req : OrderRequest} {opts : PrepareOptions} {order : PreparedOrder}
    (kind : req.kind = .limit asked) (prepared : prepareOrder req info opts = .ok order) :
    SendsLimit (.oanda info opts) req asked (.oanda order) ↔ VenueRow.Calm (.oanda info opts) req asked := by
  simp only [prepareOrder, bind_eq_ok, pure_eq_ok, kind] at prepared
  obtain ⟨instrument, -, _, -, _, checked, symbol, -, quantity, sized, tif, -, price, limited, made⟩ := prepared
  obtain ⟨p, rfl, positive, grid, way⟩ := limitPrice_ok limited
  have priceIs : order.limitPrice = some p := by rw [← made]
  have quantityIs : order.quantity = quantity := by rw [← made]
  have sideIs : order.side = req.side := by rw [← made]
  have unitsIs : order.units = signedUnits order.side order.quantity := by rw [← made]
  have rounded := (sizeUnits_eq_ok.1 sized).1
  have digits := (Dec.roundDp_floor_eq_ok.1 rounded).2
  have signs := toRat_signedUnits_iff order.side order.quantity
  rw [← unitsIs, quantityIs, digits, sideIs] at signs
  obtain ⟨unitsText, priceText⟩ := toJson_price priceIs
  have texts : (VenueOrder.oanda order).texts = .ok (some order.units.normal.display, some p.display) := by
    rw [VenueOrder.texts, unitsText, priceText]
    rfl
  constructor
  · rintro ⟨⟨p', same, -, bounded, -⟩, -, q, _, sent, denotes, -⟩ sell
    obtain rfl := Option.some.inj (priceIs.symm.trans same)
    refine ⟨way.1 bounded sell, signs.1 ?_ sell⟩
    rw [texts] at sent
    obtain rfl : order.units.normal.display = q := Option.some.inj (congrArg Prod.fst (Except.ok.inj sent))
    have shown := order.units.normal.denotes_display.unique denotes
    rw [← order.units.toRat_normal, shown, VenueOrder.sentQuantity, quantityIs, sideIs]
  · intro calm
    refine ⟨⟨p, priceIs, positive, way.2 fun sell => (calm sell).1, grid⟩, ?_, _, _, texts, ?_, fun p' same => ?_⟩
    · rw [VenueOrder.quantity, quantityIs]
      exact Dec.le_iff_toRat.1 (Dec.roundDp_floor_le (Dec.isPositive_iff_units.1 (checkRequest_positive checked)).le rounded)
    · rw [VenueOrder.sentQuantity, quantityIs, sideIs, ← signs.2 fun sell => (calm sell).2, ← order.units.toRat_normal]
      exact order.units.normal.denotes_display
    · obtain rfl := Option.some.inj (priceIs.symm.trans same)
      exact p.denotes_display

end Oanda

/-- A prepared limit order is never worse than asked, on the grid and sent as it is, exactly
    when no unchecked step of a sell wraps. -/
theorem limit_never_worse [DebugText] (row : VenueRow) {req : OrderRequest} {asked : Dec} {order : VenueOrder}
    (kind : req.kind = .limit asked) (prepared : row.prepareOrder req = .ok order) :
    SendsLimit row req asked order ↔ row.Calm req asked := by
  unfold VenueRow.prepareOrder at prepared
  cases row with
  | kraken pair userref opts =>
      obtain ⟨made, own, same⟩ := bind_eq_ok.1 prepared
      obtain rfl := pure_eq_ok.1 same
      exact Kraken.sendsLimit_iff kind own
  | alpaca asset opts =>
      obtain ⟨made, own, same⟩ := bind_eq_ok.1 prepared
      obtain rfl := pure_eq_ok.1 same
      exact iff_of_true (Alpaca.sendsLimit kind own) trivial
  | oanda info opts =>
      obtain ⟨made, own, same⟩ := bind_eq_ok.1 prepared
      obtain rfl := pure_eq_ok.1 same
      exact Oanda.sendsLimit_iff kind own

namespace SmallTicks

@[reducible] private def quoteMarks : DebugText := ⟨fun s => "\"" ++ s ++ "\""⟩

attribute [local instance] quoteMarks

def row : VenueRow :=
  .kraken {
    canonical := "XBT/USD"
    altname := "XBTUSD"
    restName := "XXBTZUSD"
    wsName := "XBT/USD"
    pairDecimals := 1
    lotDecimals := 8
    orderMin := ⟨⟨1, Dec.fits_one⟩, 4, Dec.scale_four⟩
    costMin := some ⟨⟨5, Dec.fits_five⟩, 1, Dec.scale_one⟩
    tickSize := some ⟨⟨1, Dec.fits_one⟩, 1, Dec.scale_one⟩
    status := some "online" } 7 .default

def request (price : Dec) : OrderRequest :=
  .base "rb1:paper" "XBT/USD" .sell (.limit price) ⟨⟨2, Dec.fits_two⟩, 0, Dec.scale_zero⟩

def sent (price : Dec) : VenueOrder :=
  .kraken {
    symbol := "XBT/USD"
    brokerPair := "XBTUSD"
    side := .sell
    requestedQuantity := ⟨⟨2, Dec.fits_two⟩, 0, Dec.scale_zero⟩
    volume := ⟨⟨200000000, by decide⟩, 8, Dec.scale_eight⟩
    volumeDp := 8
    price := some price
    priceDp := 1
    userref := 7
    timeInForce := none
    postOnly := false
    reduceOnly := false
    validate := false
    costCheckSkipped := false }

/-- 30000.01 is sold at 30000.1. -/
theorem cent_rounded_up :
    SendsLimit row (request ⟨⟨3000001, by decide⟩, 2, by decide⟩) ⟨⟨3000001, by decide⟩, 2, by decide⟩
      (sent ⟨⟨300001, by decide⟩, 1, by decide⟩) := by
  refine (limit_never_worse row rfl rfl).2 fun _ _ digits => ?_
  exact absurd digits (by decide)

def huge : Dec := ⟨⟨34028236692093846346337460743176821146, by decide⟩, 0, Dec.scale_zero⟩

/-- A sell at a huge price goes out at 0.4. -/
theorem huge_sold_at_cents :
    row.prepareOrder (request huge) = .ok (sent ⟨⟨4, by decide⟩, 1, by decide⟩) ∧
      ¬ SendsLimit row (request huge) huge (sent ⟨⟨4, by decide⟩, 1, by decide⟩) := by
  refine ⟨rfl, ?_⟩
  rintro ⟨⟨p, same, -, way, -⟩, -, -⟩
  obtain rfl := Option.some.inj same
  norm_num [request, OrderRequest.base, Side.NeverWorse, huge, Dec.toRat] at way

end SmallTicks

end BrokerAdapters
