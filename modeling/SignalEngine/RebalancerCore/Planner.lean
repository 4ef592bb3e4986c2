import SignalEngine.RebalancerCore.Targets
import Mathlib.Data.List.Sort

/-! # Order planner

Sleeve targets in, guarded and tagged orders out. Reductions are placed before
increases, every order goes through the guard against a running simulation of
the account, and increases that do not fit the budget are scaled by one factor.
-/

open BrokerAdapters Outcome Text

namespace RebalancerCore

/-- The hash library: lower-case hexadecimal SHA-256 of a text. -/
class Sha256 where
  hexDigest : String → String

structure PlannedOrder where
  tag : String
  sleeve : String
  venue : String
  assetClass : String
  symbol : String
  side : Side
  quantity : Dec
  price : Dec
  notional : Dec
  estFee : Dec
  deriving DecidableEq

structure DeniedOrder where
  order : PlannedOrder
  reasons : List Denial
  deriving DecidableEq

inductive SkipReason where
  | noPrice
  | noVenueRules
  | shortPositionHeld
  | belowMinTradeAbs (delta min : Dec)
  | belowMinTradePct (delta min : Dec)
  | venueRefused (refusal : SizeRefusal)
  | cutBelowVenueMinimum
  | noCashAvailable
  | flipCloseLegNotPlaced
  deriving DecidableEq

structure SkippedTrade where
  symbol : String
  sleeve : String
  reason : SkipReason
  deriving DecidableEq

/-- What the planner saw for one managed instrument. -/
structure InstrumentLine where
  symbol : String
  sleeve : String
  held : Dec
  currentNotional : Dec
  targetNotional : Dec
  deriving DecidableEq

structure MarginReport where
  signed : Bool
  needsMargin : Bool
  buyingPower : Option Dec
  buyingPowerLeft : Option Dec
  targetGross : Dec
  projectedGross : Dec
  marginOrderTags : List String
  deriving DecidableEq

def MarginReport.longOnly : MarginReport :=
  ⟨false, false, none, none, Dec.zero, Dec.zero, []⟩

structure OrderPlan where
  inputsDigest : String
  accountId : String
  scheduledFor : Instant
  equity : Dec
  capitalBase : Dec
  riskScale : Dec
  orders : List PlannedOrder
  denied : List DeniedOrder
  skipped : List SkippedTrade
  lines : List InstrumentLine
  margin : MarginReport
  deriving DecidableEq

inductive Leg where
  /-- The whole trade, in one order. -/
  | whole
  /-- First order of a trade that crosses zero. -/
  | close
  /-- Second order of a trade that crosses zero. -/
  | «open»
  deriving Repr, DecidableEq

structure Candidate where
  m : Managed
  side : Side
  qty : Dec
  price : PricePoint
  /-- Moves the position toward zero. -/
  reducing : Bool
  leg : Leg

/-- One leg of a trade before the venue rounds it. -/
structure LegWish where
  leg : Leg
  side : Side
  wished : Dec
  reducing : Bool
  deriving DecidableEq

/-- The account and the day's counters as the plan changes them. -/
structure SimState where
  account : AccountView
  day : DayCounters
  deriving DecidableEq

def skipTrade (m : Managed) (reason : SkipReason) : SkippedTrade := ⟨m.symbol, m.sleeveLabel, reason⟩

section Tags

variable [UnicodeCase] [InstantText] [Sha256]

/-- The readable part of a tag: ASCII letters and digits of the symbol, at most ten. -/
def readableSymbol (symbol : String) : String :=
  toUppercase (String.ofList ((symbol.toList.filter Char.isAlphanum).take 10))

def tagWith (account : String) (scheduledFor : Instant) (sleeve symbol : String) (side : Side)
    (suffix : String) : String :=
  let sched := InstantText.compact scheduledFor
  let identity := s!"rebalance:{account}:{sched}:{sleeve}:{symbol}:{side.asStr}{suffix}"
  let hash := String.ofList ((Sha256.hexDigest identity).toList.take 20)
  s!"rb1:{sched}:{readableSymbol symbol}:{side.asStr}:{hash}"

def clientTag (account : String) (scheduledFor : Instant) (sleeve symbol : String) (side : Side) :
    String :=
  tagWith account scheduledFor sleeve symbol side ""

/-- The close leg of a trade that crosses zero has an identity of its own. -/
def clientTagCloseLeg (account : String) (scheduledFor : Instant) (sleeve symbol : String)
    (side : Side) : String :=
  tagWith account scheduledFor sleeve symbol side ":close"

end Tags

section Sizing

variable [UnicodeCase]

/-- Positions valued at the plan's own prices where it has one. -/
def revaluePosition (prices : Std.ExtTreeMap String PricePoint) (p : Position) :
    Except MathError Position :=
  match prices[upperName p.symbol]? with
  | some px => do
      let marketValue ← DecMath.mul p.quantity px.price
      .ok { p with marketValue }
  | none => .ok p

def revalue (prices : Std.ExtTreeMap String PricePoint) (account : AccountView) :
    Except MathError AccountView := do
  let positions ← account.positions.mapM (revaluePosition prices)
  .ok { account with positions }

/-- Prices by upper-case symbol; a later spelling of a symbol wins. -/
def keyPrices (prices : Std.ExtTreeMap String PricePoint) : Std.ExtTreeMap String PricePoint :=
  prices.toList.foldl (fun keyed entry => keyed.insert (upperName entry.1) entry.2) ∅

/-- The legs of a trade: one, or two when it crosses zero. -/
def tradeLegs (held current target delta absDelta price : Dec) :
    Except MathError (List LegWish) := do
  let heldAbs ← DecMath.abs held
  if (current.isPositive && target.isNegative) || (current.isNegative && target.isPositive) then do
    let targetAbs ← DecMath.abs target
    let opening ← DecMath.divFloor targetAbs price 18
    let closeSide := if held.isPositive then Side.sell else Side.buy
    let openSide := if target.isPositive then Side.buy else Side.sell
    .ok [⟨.close, closeSide, heldAbs, true⟩, ⟨.open, openSide, opening, false⟩]
  else
    let side := if delta.isPositive then Side.buy else Side.sell
    let reduction := (decide (side = .sell) && held.isPositive) ||
      (decide (side = .buy) && held.isNegative)
    if !reduction then do
      let wished ← DecMath.divFloor absDelta price 18
      .ok [⟨.whole, side, wished, reduction⟩]
    else if target.isZero then .ok [⟨.whole, side, heldAbs, reduction⟩]
    else do
      let wished ← DecMath.divFloor absDelta price 18
      .ok [⟨.whole, side, min wished heldAbs, reduction⟩]

/-- The open leg also covers what the close leg left behind. -/
def wishOf (residual : Dec) (w : LegWish) : Except MathError Dec :=
  if w.leg = .open then DecMath.add w.wished residual else .ok w.wished

def residualAfter (residual wished qty : Dec) (w : LegWish) : Except MathError Dec :=
  if w.leg = .close then DecMath.sub wished qty else .ok residual

/-- The legs as the venue rounds them. A close leg that is refused takes the
    whole trade with it. -/
def sizeLegs (m : Managed) (rules : VenueRules) (price : PricePoint) (residual : Dec)
    (skipped : List SkippedTrade) (pending : List Candidate) :
    List LegWish → Except PlanError (List SkippedTrade × List Candidate)
  | [] => .ok (skipped, pending)
  | w :: ws => do
      let wished ← wishOf residual w
      match rules.roundQuantity m.symbol w.side wished price.price with
      | .error refusal =>
          let skipped := skipped ++ [skipTrade m (.venueRefused refusal)]
          if w.leg = .close then .ok (skipped, [])
          else sizeLegs m rules price residual skipped pending ws
      | .ok qty =>
          if wished < qty then .error (.venueRoundedUp m.symbol wished qty)
          else do
            let residual ← residualAfter residual wished qty w
            sizeLegs m rules price residual skipped
              (pending ++ [⟨m, w.side, qty, price, w.reducing, w.leg⟩]) ws

/-- What one managed instrument contributes to the plan. -/
structure Proposal where
  line : Option InstrumentLine
  skipped : List SkippedTrade
  candidates : List Candidate

/-- The trade from `current` to `target`, unless a trade filter drops it. -/
def proposeTrade (cfg : PlanConfig) (m : Managed) (rules : VenueRules) (price : PricePoint)
    (held current target : Dec) : Except PlanError (List SkippedTrade × List Candidate) := do
  let delta ← DecMath.sub target current
  if delta.isZero then .ok ([], [])
  else do
    let absDelta ← DecMath.abs delta
    if absDelta < cfg.minTradeAbs then
      .ok ([skipTrade m (.belowMinTradeAbs absDelta cfg.minTradeAbs)], [])
    else do
      let reference ← DecMath.abs (if target.isZero then current else target)
      let pctMin ← DecMath.mul cfg.minTradePct reference
      if absDelta < pctMin then .ok ([skipTrade m (.belowMinTradePct absDelta pctMin)], [])
      else do
        let legs ← tradeLegs held current target delta absDelta price.price
        sizeLegs m rules price Dec.zero [] [] legs

def propose (cfg : PlanConfig) (book : VenueRuleBook) (account : AccountView)
    (prices : Std.ExtTreeMap String PricePoint) (capitalBase : Dec) (m : Managed) :
    Except PlanError Proposal :=
  match (prices[m.symbol]?).filter fun (p : PricePoint) => p.price.isPositive with
  | none => .ok ⟨none, [skipTrade m .noPrice], []⟩
  | some price =>
      match book.get m.venue with
      | none => .ok ⟨none, [skipTrade m .noVenueRules], []⟩
      | some rules =>
          let held := account.heldQuantity m.symbol
          if held.isNegative && !m.signed then .ok ⟨none, [skipTrade m .shortPositionHeld], []⟩
          else do
            let current ← DecMath.mul held price.price
            let target ← targetNotional cfg capitalBase m
            let trade ← proposeTrade cfg m rules price held current target
            .ok ⟨some ⟨m.symbol, m.sleeveLabel, held, current, target⟩, trade.1, trade.2⟩

end Sizing

/-- Change the first position of the symbol, or open a new one. -/
def updatePosition (m : Instrument) (quantity value : Dec) :
    List Position → Except MathError (List Position)
  | [] => .ok [⟨m.symbol, m.venue, m.assetClass, quantity, value⟩]
  | p :: ps =>
      if eqIgnoreAsciiCase p.symbol m.symbol then do
        let q ← DecMath.add p.quantity quantity
        let v ← DecMath.add p.marketValue value
        .ok ({ p with quantity := q, marketValue := v } :: ps)
      else do
        let rest ← updatePosition m quantity value ps
        .ok (p :: rest)

/-- An accepted order changes the simulated account and the day's counters. -/
def apply (s : SimState) (m : Instrument) (side : Side) (qty price fee : Dec) :
    Except MathError SimState := do
  let notional ← DecMath.mul qty price
  let signedQty ← Guard.signed side qty
  let signedValue ← Guard.signed side notional
  let positions ← updatePosition m signedQty signedValue s.account.positions
  let paid ← DecMath.sub s.account.cash signedValue
  let cash ← DecMath.sub paid fee
  let turnoverToday ← DecMath.add s.day.turnoverToday notional
  .ok ⟨{ s.account with positions, cash }, ⟨min (s.day.ordersToday + 1) (2 ^ 32 - 1), turnoverToday⟩⟩

/-- An accepted order and the candidate it came from. -/
structure Placed where
  candidate : Candidate
  order : PlannedOrder

/-- The state of the plan while orders are placed. -/
structure Placing where
  sim : SimState
  placed : List Placed
  denied : List DeniedOrder
  skipped : List SkippedTrade
  buyingPowerLeft : Option Dec
  marginTags : List String
  /-- Instruments whose close leg was accepted. -/
  closed : Std.ExtTreeSet String

/-- What the orders of one plan are checked and tagged with. -/
structure PlanContext where
  accountId : String
  policy : Policy
  book : VenueRuleBook
  cfg : PlanConfig

section Placing

variable [UnicodeCase] [InstantText] [Sha256]

def Candidate.proposed (c : Candidate) (qty fee : Dec) (usesMargin : Bool) : ProposedOrder where
  venue := c.m.venue
  assetClass := c.m.assetClass
  symbol := c.m.symbol
  side := c.side
  quantity := qty
  price := some c.price
  estFee := fee
  usesMargin := usesMargin
  isDerivative := false
  lossRungCover := false

def PlanContext.tag (ctx : PlanContext) (c : Candidate) : String :=
  if c.leg = .close then
    clientTagCloseLeg ctx.accountId ctx.cfg.scheduledFor c.m.sleeveLabel c.m.symbol c.side
  else clientTag ctx.accountId ctx.cfg.scheduledFor c.m.sleeveLabel c.m.symbol c.side

def PlanContext.usesMargin (ctx : PlanContext) (account : AccountView) (c : Candidate)
    (qty fee : Dec) : Except MathError Bool :=
  if ctx.cfg.isSigned then Guard.marginUse account (c.proposed qty fee false) c.price.price
  else .ok false

def PlanContext.verdict (ctx : PlanContext) (s : SimState) (buyingPowerLeft : Option Dec)
    (proposed : ProposedOrder) : Verdict :=
  if ctx.cfg.isSigned then
    PreTradeGuard.checkSigned ctx.policy s.account proposed s.day ⟨buyingPowerLeft⟩
      ctx.book.instruments
  else PreTradeGuard.check ctx.policy s.account proposed s.day

/-- Only an order that adds exposure uses buying power up. -/
def spendBuyingPower (left : Option Dec) (c : Candidate) (notional fee : Dec) :
    Except MathError (Option Dec) :=
  match left with
  | none => .ok none
  | some bp =>
      if c.reducing then .ok (some bp)
      else do
        let rest ← DecMath.sub bp notional
        let rest ← DecMath.sub rest fee
        .ok (some rest)

def PlanContext.order (ctx : PlanContext) (c : Candidate) (qty notional fee : Dec) :
    PlannedOrder where
  tag := ctx.tag c
  sleeve := c.m.sleeveLabel
  venue := c.m.venue
  assetClass := c.m.assetClass
  symbol := c.m.symbol
  side := c.side
  quantity := qty
  price := c.price.price
  notional := notional
  estFee := fee

/-- Guard one order against the simulation and apply it when it is allowed. -/
def PlanContext.tryOrder (ctx : PlanContext) (st : Placing) (c : Candidate) (qty : Dec) :
    Except PlanError (Placing × Bool) := do
  let notional ← DecMath.mul qty c.price.price
  let fee ← feeFor notional ctx.cfg.feeRate
  let usesMargin ← ctx.usesMargin st.sim.account c qty fee
  let verdict := ctx.verdict st.sim st.buyingPowerLeft (c.proposed qty fee usesMargin)
  let planned := ctx.order c qty notional fee
  if verdict.allow then do
    let sim ← apply st.sim c.m.toInstrument c.side qty c.price.price fee
    let buyingPowerLeft ← spendBuyingPower st.buyingPowerLeft c notional fee
    let marginTags := if usesMargin then st.marginTags ++ [planned.tag] else st.marginTags
    .ok ({ st with sim, buyingPowerLeft, marginTags, placed := st.placed ++ [⟨c, planned⟩] }, true)
  else .ok ({ st with denied := st.denied ++ [⟨planned, verdict.reasons⟩] }, false)

/-- A reduction is tried at its full size; an accepted close leg opens the way
    for the other side. -/
def PlanContext.placeReducer (ctx : PlanContext) (st : Placing) (c : Candidate) :
    Except PlanError Placing := do
  let (st, accepted) ← ctx.tryOrder st c c.qty
  if accepted && decide (c.leg = .close) then
    .ok { st with closed := st.closed.insert c.m.symbol }
  else .ok st

/-- May this increase follow? The open leg needs an accepted close leg. -/
def mayFollow (closed : Std.ExtTreeSet String) (c : Candidate) : Bool :=
  decide (c.leg ≠ .open) || closed.contains c.m.symbol

def PlanContext.buyCost (ctx : PlanContext) (c : Candidate) : Except MathError Dec := do
  let notional ← DecMath.mul c.qty c.price.price
  let fee ← feeFor notional ctx.cfg.feeRate
  DecMath.add notional fee

/-- One unit of the eighth decimal for each order: the slack of the fee rounding. -/
def feeSlack (orders : Nat) : Except MathError Dec :=
  DecMath.mul ⟨⟨1, Dec.fits_one⟩, 8, Dec.scale_eight⟩
    ⟨⟨min orders (2 ^ 63 - 1), by constructor <;> omega⟩, 0, Dec.scale_zero⟩

/-- The size of an increase scaled by the common factor and rounded again. -/
def PlanContext.rescale (ctx : PlanContext) (factor : Dec) (c : Candidate) :
    Except PlanError Dec := do
  let product ← DecMath.mul c.qty factor
  let scaled ← DecMath.roundDp product 18 .floor
  if scaled.isZero then .ok Dec.zero
  else
    match ctx.book.get c.m.venue with
    | none => .ok Dec.zero
    | some rules =>
        match rules.roundQuantity c.m.symbol c.side scaled c.price.price with
        | .error _ => .ok Dec.zero
        | .ok rounded =>
            if rounded ≤ scaled then .ok rounded
            else .error (.venueRoundedUp c.m.symbol scaled rounded)

/-- The common factor: the usable budget over the total cost. -/
def commonFactor (available total : Dec) (orders : Nat) : Except MathError Dec := do
  let slack ← feeSlack orders
  let usable ← DecMath.sub available slack
  if usable.isPositive then DecMath.divFloor usable total 18 else .ok Dec.zero

/-- Quantities of the increases: as wished when they fit, else all scaled. -/
def PlanContext.sizeBuys (ctx : PlanContext) (available : Dec) (buys : List Candidate) :
    Except PlanError (List Dec) :=
  if buys.isEmpty then .ok []
  else do
    let costs ← (buys.mapM ctx.buyCost : Except MathError (List Dec))
    let total ← DecMath.sum costs
    if available < total then do
      let factor ← commonFactor available total buys.length
      buys.mapM (ctx.rescale factor)
    else .ok (buys.map Candidate.qty)

def PlanContext.placeBuy (ctx : PlanContext) (available : Dec) (st : Placing)
    (sized : Candidate × Dec) : Except PlanError Placing :=
  let (c, q) := sized
  if q.isZero then
    let reason := if available.isPositive then SkipReason.cutBelowVenueMinimum else .noCashAvailable
    .ok { st with skipped := st.skipped ++ [skipTrade c.m reason] }
  else do
    let (st, _) ← ctx.tryOrder st c q
    .ok st

/-- The budget of the increases before the reserve is taken off. -/
def PlanContext.budget (ctx : PlanContext) (cash : Dec) (sim : SimState) : Dec :=
  match ctx.cfg.isSigned, ctx.cfg.buyingPower with
  | true, some bp => bp
  | _, _ => if ctx.cfg.creditSellProceeds then sim.account.cash else min sim.account.cash cash

/-- Reductions first, then the increases that may follow. -/
def PlanContext.place (ctx : PlanContext) (capitalBase cash : Dec) (start : Placing)
    (reducers increasers : List Candidate) : Except PlanError Placing := do
  let reduced ← reducers.foldlM ctx.placeReducer start
  let buys := increasers.filter (mayFollow reduced.closed)
  let dropped := increasers.filter fun c => !mayFollow reduced.closed c
  let reduced := { reduced with
    skipped := reduced.skipped ++ dropped.map fun c => skipTrade c.m .flipCloseLegNotPlaced }
  let reserve ← ctx.policy.reserveAmount capitalBase
  let available ← DecMath.sub (ctx.budget cash reduced.sim) reserve
  let quantities ← ctx.sizeBuys available buys
  (buys.zip quantities).foldlM (ctx.placeBuy available) reduced

end Placing

section Plan

variable [UnicodeCase] [InstantText] [Sha256]

def placingOrder (a b : Candidate) : Prop :=
  (compare a.m.venue b.m.venue).then (compare a.m.symbol b.m.symbol) ≠ .gt

instance : DecidableRel placingOrder := fun _ _ => inferInstanceAs (Decidable (_ ≠ _))

/-- The candidates that move toward zero, in placing order. -/
def reducersOf (candidates : List Candidate) : List Candidate :=
  (candidates.filter Candidate.reducing).insertionSort placingOrder

/-- The candidates that add exposure, in placing order. -/
def increasersOf (candidates : List Candidate) : List Candidate :=
  (candidates.filter fun c => !c.reducing).insertionSort placingOrder

def targetGross (lines : List InstrumentLine) : Except MathError Dec := do
  let sizes ← lines.mapM fun (l : InstrumentLine) => DecMath.abs l.targetNotional
  DecMath.sum sizes

/-- The targets and the current value of every position they do not name. -/
def projectedGross (lines : List InstrumentLine) (positions : List Position) (gross : Dec) :
    Except MathError Dec :=
  let named : Std.ExtTreeSet String := .ofList (lines.map fun l => upperName l.symbol)
  let unnamed := positions.filter fun (p : Position) => !named.contains (upperName p.symbol)
  unnamed.foldlM
    (fun projected p => do
      let size ← DecMath.abs p.marketValue
      DecMath.add projected size)
    gross

def checkTargetGross (policy : Policy) (capitalBase gross : Dec) : Except PlanError Unit :=
  match policy.limits with
  | none => .ok ()
  | some limits => do
      let cap ← DecMath.mul limits.maxGross capitalBase
      if cap < gross then .error (.grossAboveCap gross cap) else .ok ()

/-- Margin facts of a signed plan; a long-only plan has none. -/
def marginReport (policy : Policy) (cfg : PlanConfig) (equity capitalBase : Dec)
    (positions : List Position) (lines : List InstrumentLine) : Except PlanError MarginReport :=
  if !cfg.isSigned then .ok .longOnly
  else do
    let gross ← targetGross lines
    let projected ← projectedGross lines positions gross
    checkTargetGross policy capitalBase gross
    let needsMargin := (lines.any fun (l : InstrumentLine) => l.targetNotional.isNegative) ||
      decide (equity < projected)
    if needsMargin && cfg.buyingPower.isNone then .error (.buyingPowerRequired projected)
    else .ok ⟨true, needsMargin, cfg.buyingPower, cfg.buyingPower, gross, projected, []⟩

def duplicateTag (seen : Std.ExtTreeSet String) : List String → Option String
  | [] => none
  | tag :: tags => if seen.contains tag then some tag else duplicateTag (seen.insert tag) tags

def dtxt (d : Dec) : String := d.normal.display

def boolText (b : Bool) : String := if b then "true" else "false"

def envelopeText (envelope : Option MandateEnvelope) : String :=
  match envelope with
  | none => "None"
  | some e =>
      let source := InstantText.rfc3339 e.effectiveFrom
      let review := InstantText.rfc3339 e.reviewBy
      s!"Some(({e.version}, {e.status.debug}, \"{source}\", \"{review}\"))"

def shortText : ShortPolicy → String
  | .forbidden reason => s!"forbidden({reason})"
  | .allowed => "allowed"
  | .needsLocate => "needs_locate"

def optionText (d : Option Dec) : String := (d.map dtxt).getD "-"

def instrumentText (instruments : InstrumentRules) (venue symbol : String) : String :=
  let rule :=
    match instruments.rule venue symbol with
    | none => "absent"
    | some r =>
        s!"short={shortText r.short}|max_leverage={optionText r.maxLeverage}|max_position_units={optionText r.maxPositionUnits}"
  s!"{rule}|locate={boolText (instruments.hasLocate venue symbol)}"

def sortTexts (texts : List String) : List String := texts.insertionSort (· ≤ ·)

def targetText (t : SleeveTarget) : String :=
  let weights := sortTexts (t.weights.map fun w => s!"{upperName w.symbol}={dtxt w.weight}")
  let joined := ",".intercalate weights
  s!"target|{trimmed t.sleeve}|{dtxt t.share}|{lowerName t.venue}|{lowerName t.assetClass}|{joined}"

def positionText (p : Position) : String :=
  s!"pos|{upperName p.symbol}|{toLowercase p.venue}|{toLowercase p.assetClass}|{dtxt p.quantity}|{dtxt p.marketValue}"

/-- Canonical text of every input, one fact a line. -/
def digestLines (targets : List SleeveTarget) (account : AccountView)
    (prices : Std.ExtTreeMap String PricePoint) (book : VenueRuleBook) (policy : Policy)
    (cfg : PlanConfig) (managed : List Managed) : List String :=
  ["rb-plan-digest-v1",
    s!"account|{account.accountId}|{account.ccy}|{dtxt account.equity}|{dtxt account.cash}|{boolText account.halted}|{InstantText.rfc3339 account.now}"] ++
  sortTexts (account.positions.map positionText) ++
  (prices.toList.map fun (symbol, p) =>
    s!"price|{symbol}|{dtxt p.price}|{InstantText.rfc3339 p.asOf}") ++
  sortTexts (targets.map targetText) ++
  [s!"policy|{policy.bodyHash}|{envelopeText policy.envelope}|{policy.maxPriceAgeSecs.val}",
    s!"cfg|{InstantText.rfc3339 cfg.scheduledFor}|{dtxt cfg.riskScale}|{dtxt cfg.minTradeAbs}|{dtxt cfg.minTradePct}|{dtxt cfg.feeRate}|{boolText cfg.creditSellProceeds}|{cfg.day.ordersToday}|{dtxt cfg.day.turnoverToday}"] ++
  -- Only a signed plan carries these lines.
  (if cfg.isSigned then
    (cfg.signedSleeves.toList.map fun (id, max) => s!"signed|{id}|{dtxt max}") ++
    [s!"buying_power|{optionText cfg.buyingPower}"] ++
    managed.map fun m =>
      s!"instrument_rule|{m.venue}|{m.symbol}|{instrumentText book.instruments m.venue m.symbol}"
  else []) ++
  managed.filterMap fun m => (book.get m.venue).map fun r => s!"rules|{r.fingerprint m.symbol}"

def digestInputs (targets : List SleeveTarget) (account : AccountView)
    (prices : Std.ExtTreeMap String PricePoint) (book : VenueRuleBook) (policy : Policy)
    (cfg : PlanConfig) (managed : List Managed) : String :=
  Sha256.hexDigest
    ("\n".intercalate (digestLines targets account prices book policy cfg managed))

def inSymbolOrder (managed : Std.ExtTreeMap String Managed) : List Managed :=
  managed.toList.map Prod.snd

/-- The plan, with the candidates its accepted orders came from. -/
def planTraced (targets : List SleeveTarget) (account : AccountView)
    (prices : Std.ExtTreeMap String PricePoint) (book : VenueRuleBook) (policy : Policy)
    (cfg : PlanConfig) : Except PlanError (OrderPlan × List Placed) := do
  validate targets account cfg
  let managed ← aggregate targets cfg
  let prices := keyPrices prices
  let capitalBase := policy.capitalBase account.equity account.ccy
  let sim ← revalue prices account
  let proposals ← (inSymbolOrder managed).mapM (propose cfg book account prices capitalBase)
  let lines := proposals.filterMap Proposal.line
  let candidates := proposals.flatMap Proposal.candidates
  let margin ← marginReport policy cfg account.equity capitalBase sim.positions lines
  let start : Placing :=
    ⟨⟨sim, cfg.day⟩, [], [], proposals.flatMap Proposal.skipped, margin.buyingPowerLeft, [], ∅⟩
  let ctx : PlanContext := ⟨account.accountId, policy, book, cfg⟩
  let placing ← ctx.place capitalBase account.cash start (reducersOf candidates)
    (increasersOf candidates)
  let orders := placing.placed.map Placed.order
  match duplicateTag ∅ ((orders ++ placing.denied.map DeniedOrder.order).map PlannedOrder.tag) with
  | some tag => .error (.duplicateTag tag)
  | none =>
      .ok
        ({ inputsDigest := digestInputs targets account prices book policy cfg
             (inSymbolOrder managed)
           accountId := account.accountId
           scheduledFor := cfg.scheduledFor
           equity := account.equity
           capitalBase
           riskScale := cfg.riskScale
           orders
           denied := placing.denied
           skipped := placing.skipped
           lines
           margin := { margin with buyingPowerLeft := placing.buyingPowerLeft
                                   marginOrderTags := placing.marginTags } },
          placing.placed)

def plan (targets : List SleeveTarget) (account : AccountView)
    (prices : Std.ExtTreeMap String PricePoint) (book : VenueRuleBook) (policy : Policy)
    (cfg : PlanConfig) : Except PlanError OrderPlan := do
  let traced ← planTraced targets account prices book policy cfg
  .ok traced.1

end Plan

end RebalancerCore
