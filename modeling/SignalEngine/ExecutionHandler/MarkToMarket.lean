import SignalEngine.ExecutionHandler.PositionTracker
import Mathlib.Algebra.BigOperators.Ring.List
import Mathlib.Tactic.FieldSimp
import Mathlib.Tactic.NormNum

/-! # Mark to market

What a position has made so far is its quantity at the market price, less what its
fills cost. The realised part always agrees with that; the unrealised part of a short
position has the wrong sign.
-/

namespace ExecutionHandler

structure Fill where
  quantity : ℚ
  price : ℚ
  fees : ℚ
  timestamp : Nat

def Position.takeFill (pos : Position) (fill : Fill) : Except String Position :=
  pos.updateFill (.finite fill.quantity) (.finite fill.price) (.finite fill.fees) fill.timestamp

def Position.takeFills (pos : Position) (fills : List Fill) : Except String Position := fills.foldlM Position.takeFill pos

/-! ## The open part of a list of fills -/

structure Lot where
  quantity : ℚ
  price : ℚ

def heldBy (lots : List Lot) : ℚ := (lots.map Lot.quantity).sum

def costOf (lots : List Lot) : ℚ := (lots.map fun lot => lot.quantity * lot.price).sum

/-- A fill in the direction that is held is one more lot. One against it closes the
    same share of every lot; what is left of it opens the other direction. -/
def takeLot (lots : List Lot) (fill : Fill) : List Lot :=
  let held := heldBy lots
  if held = 0 ∨ 0 < held * fill.quantity then lots ++ [⟨fill.quantity, fill.price⟩]
  else if |fill.quantity| < |held| then
    lots.map fun lot => { lot with quantity := lot.quantity * ((held + fill.quantity) / held) }
  else [⟨held + fill.quantity, fill.price⟩]

def openLots (fills : List Fill) : List Lot := fills.foldl takeLot []

/-- The average price at which the open part was entered. -/
def entryPrice (fills : List Fill) : ℚ := costOf (openLots fills) / heldBy (openLots fills)

theorem heldBy_append (lots : List Lot) (lot : Lot) : heldBy (lots ++ [lot]) = heldBy lots + lot.quantity := by
  simp [heldBy]

theorem costOf_append (lots : List Lot) (lot : Lot) :
    costOf (lots ++ [lot]) = costOf lots + lot.quantity * lot.price := by
  simp [costOf]

theorem heldBy_scale (lots : List Lot) (share : ℚ) :
    heldBy (lots.map fun lot => { lot with quantity := lot.quantity * share }) = heldBy lots * share := by
  simp only [heldBy, List.map_map, Function.comp_def, List.sum_map_mul_right]

theorem costOf_scale (lots : List Lot) (share : ℚ) :
    costOf (lots.map fun lot => { lot with quantity := lot.quantity * share }) = costOf lots * share := by
  simp only [costOf, List.map_map, Function.comp_def, mul_right_comm _ share, List.sum_map_mul_right]

/-! ## What a fill keeps -/

/-- The position against the lots and against what the fills cost. -/
structure Position.Tallies (pos : Position) (fills : List Fill) : Prop where
  quantity : pos.quantity = (fills.map Fill.quantity).sum
  fees : pos.totalFees = (fills.map Fill.fees).sum
  realized : pos.realizedPnl = pos.quantity * pos.averagePrice - (fills.map fun f => f.quantity * f.price).sum
  held : heldBy (openLots fills) = pos.quantity
  cost : costOf (openLots fills) = pos.quantity * pos.averagePrice

namespace Position

theorem totalFees_fill (pos : Position) (fillQuantity fillPrice : ℚ) (timestamp : Nat) :
    (pos.fill fillQuantity fillPrice timestamp).totalFees = pos.totalFees := by
  unfold fill
  split
  · rfl
  split
  · rfl
  dsimp only
  split
  · rfl
  split
  · rfl
  · rfl

variable {pos pos' : Position} {fills : List Fill}

theorem Tallies.takeFill (tallies : pos.Tallies fills) {fill : Fill} (taken : pos.takeFill fill = .ok pos') :
    pos'.Tallies (fills ++ [fill]) := by
  obtain ⟨q, p, f, ⟨quantity, price, fees, -⟩, rfl⟩ := (updateFill_ok_iff _ _).1 taken
  obtain rfl := FloatArg.finite.inj quantity
  obtain rfl := FloatArg.finite.inj price
  obtain rfl := FloatArg.finite.inj fees
  have lots : openLots (fills ++ [fill]) = takeLot (openLots fills) fill := by simp [openLots]
  obtain ⟨added, change⟩ := pos.fill_cases fill.quantity fill.price fill.timestamp
  have held := tallies.held
  have cost := tallies.cost
  -- the lots move as the position does
  have moved : heldBy (openLots (fills ++ [fill])) = pos.quantity + fill.quantity ∧
      costOf (openLots (fills ++ [fill])) =
        (pos.fill fill.quantity fill.price fill.timestamp).quantity *
          (pos.fill fill.quantity fill.price fill.timestamp).averagePrice ∧
      (pos.fill fill.quantity fill.price fill.timestamp).realizedPnl - pos.realizedPnl =
        (pos.fill fill.quantity fill.price fill.timestamp).quantity *
          (pos.fill fill.quantity fill.price fill.timestamp).averagePrice - pos.quantity * pos.averagePrice -
            fill.quantity * fill.price := by
    rw [lots, takeLot, held]
    rcases change with ⟨along, average, realized⟩ | ⟨against, part, average, realized⟩ |
      ⟨against, whole, average, realized⟩
    · rw [if_pos along, heldBy_append, costOf_append, held, cost, average, realized]
      exact ⟨rfl, rfl, by ring⟩
    · have open_ : pos.quantity ≠ 0 := fun flat => against (.inl flat)
      rw [if_neg against, if_pos part, heldBy_scale, costOf_scale, held, cost, added, average, realized]
      refine ⟨?_, ?_, by ring⟩
      · field_simp
      · field_simp
    · rw [if_neg against, if_neg (not_lt.2 whole), average, realized]
      refine ⟨?_, ?_, by ring⟩
      · simp [heldBy]
      · simp [costOf]
  obtain ⟨heldNow, costNow, realizedNow⟩ := moved
  constructor
  · simp only [List.map_append, List.sum_append, List.map_singleton, List.sum_singleton, added, tallies.quantity]
  · simp only [List.map_append, List.sum_append, List.map_singleton, List.sum_singleton, totalFees_fill, tallies.fees]
  · simp only [List.map_append, List.sum_append, List.map_singleton, List.sum_singleton]
    have before := tallies.realized
    linarith
  · rw [heldNow]
    exact added.symm
  · exact costNow

theorem Tallies.takeFills {later : List Fill} : ∀ {pos : Position} {fills : List Fill}, pos.Tallies fills →
    pos.takeFills later = .ok pos' → pos'.Tallies (fills ++ later) := by
  induction later with
  | nil =>
      intro pos fills tallies taken
      obtain rfl := Except.ok.inj taken
      rwa [List.append_nil]
  | cons fill later ih =>
      intro pos fills tallies taken
      rw [Position.takeFills, List.foldlM_cons, Outcome.bind_eq_ok] at taken
      obtain ⟨next, first, rest⟩ := taken
      have final := ih (tallies.takeFill first) rest
      rwa [List.append_assoc] at final

theorem tallies_new (symbol exchange : String) (timestamp : Nat) : (new symbol exchange timestamp).Tallies [] := by
  constructor <;> simp [new, openLots, heldBy, costOf]

end Position

/-! ## Marked positions -/

structure MarkedToMarket (fills : List Fill) (price : ℚ) (pos : Position) : Prop where
  quantity : pos.quantity = (fills.map Fill.quantity).sum
  fees : pos.totalFees = (fills.map Fill.fees).sum
  pnl : pos.totalPnl = price * pos.quantity - (fills.map fun f => f.quantity * f.price).sum
  average : pos.quantity ≠ 0 → pos.averagePrice = entryPrice fills

namespace Position

theorem updateUnrealizedPnl_ok {pos pos' : Position} {price : ℚ} {timestamp : Nat}
    (marked : pos.updateUnrealizedPnl (.finite price) timestamp = .ok pos') :
    pos' = { pos with
      unrealizedPnl :=
        if pos.quantity = 0 then 0
        else if 0 < pos.quantity then pos.quantity * (price - pos.averagePrice)
        else pos.quantity * (pos.averagePrice - price)
      lastUpdated := timestamp } := by
  simp only [updateUnrealizedPnl, Outcome.bind_eq_ok, Outcome.refuse_eq_ok, Outcome.pure_eq_ok,
    FloatArg.require_ok_iff] at marked
  obtain ⟨_, ⟨same, -⟩, -, rfl⟩ := marked
  obtain rfl := FloatArg.finite.inj same
  rfl

/-- The accounts agree exactly when the position is not short, or is marked at the
    very price it was entered at. -/
theorem marked_to_market_iff {symbol exchange : String} {opened marked : Nat} {fills : List Fill} {price : ℚ}
    {pos pos' : Position} (filled : (new symbol exchange opened).takeFills fills = .ok pos)
    (updated : pos.updateUnrealizedPnl (.finite price) marked = .ok pos') :
    MarkedToMarket fills price pos' ↔ 0 ≤ (fills.map Fill.quantity).sum ∨ price = entryPrice fills := by
  have tallies := (tallies_new symbol exchange opened).takeFills filled
  rw [List.nil_append] at tallies
  have entered (open_ : pos.quantity ≠ 0) : entryPrice fills = pos.averagePrice := by
    rw [entryPrice, tallies.cost, tallies.held, mul_div_cancel_left₀ _ open_]
  have realized := tallies.realized
  rw [updateUnrealizedPnl_ok updated, ← tallies.quantity]
  constructor
  · intro accounts
    by_contra wrong
    obtain ⟨short, different⟩ := not_or.1 wrong
    rw [not_le] at short
    have pnl := accounts.pnl
    simp only [totalPnl, if_neg short.ne, if_neg short.not_gt] at pnl
    rw [entered short.ne] at different
    -- the loss is counted as a gain
    have twice : pos.quantity * (pos.averagePrice - price) = 0 := by linarith
    rcases mul_eq_zero.1 twice with flat | same
    · exact short.ne flat
    · exact different (by linarith)
  · intro fine
    refine ⟨tallies.quantity, tallies.fees, ?_, fun open_ => (entered open_).symm⟩
    simp only [totalPnl]
    split
    next flat =>
      rw [flat] at realized ⊢
      linarith
    next open_ =>
      split
      · linarith
      next short =>
        have level := fine.resolve_left fun long => short (lt_of_le_of_ne long (Ne.symm open_))
        rw [entered open_] at level
        rw [level, sub_self, mul_zero]
        linarith

end Position

/-! ## A short position -/

namespace Shorted

private def sale : List Fill := [⟨-1, 100, 0, 0⟩]

private def held (quantity averagePrice realizedPnl unrealizedPnl totalFees : ℚ) : Position :=
  ⟨"BTC-USD", "kraken", quantity, averagePrice, unrealizedPnl, realizedPnl, 0, 0, totalFees⟩

/-- The price falls by ten, and ten are reported as lost. -/
theorem short_gain_is_loss :
    ¬ ∀ (symbol exchange : String) (opened marked : Nat) (fills : List Fill) (price : ℚ) (pos pos' : Position),
      (Position.new symbol exchange opened).takeFills fills = .ok pos →
        pos.updateUnrealizedPnl (.finite price) marked = .ok pos' → MarkedToMarket fills price pos' := by
  intro all
  have pnl := (all "BTC-USD" "kraken" 0 0 sale 90 (held (-1) 100 0 0 0) (held (-1) 100 0 (-10) 0)
    (by decide +kernel) (by decide +kernel)).pnl
  revert pnl
  decide +kernel

/-- Two units bought, one sold with a gain of ten, the other marked with a gain of five. -/
private def trip : List Fill := [⟨2, 100, 1, 0⟩, ⟨-1, 110, 1, 0⟩]

theorem long_marked :
    MarkedToMarket trip 105 (held 1 100 10 5 2) ↔ 0 ≤ (trip.map Fill.quantity).sum ∨ 105 = entryPrice trip :=
  @Position.marked_to_market_iff "BTC-USD" "kraken" 0 0 trip 105 (held 1 100 10 0 2) _ (by decide +kernel)
    (by decide +kernel)

end Shorted

end ExecutionHandler
