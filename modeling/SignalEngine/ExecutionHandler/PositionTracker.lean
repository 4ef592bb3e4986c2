import SignalEngine.Lib.FloatLike
import SignalEngine.Lib.Outcome
import SignalEngine.Lib.Registry
import SignalEngine.Lib.Runs
import Mathlib.Algebra.Order.Group.Unbundled.Abs
import Mathlib.Tactic.Ring

/-! # Position tracker

One position per symbol and exchange, moved by fills and marked to the market price.
Amounts are exact rationals; the arguments of a call may also be infinite or no
number at all. The answer of a position is not passed on, so a fill it turns away is
acknowledged.
-/

namespace ExecutionHandler

/-! ## Positions -/

structure Position where
  symbol : String
  exchange : String
  /-- Positive when long, negative when short. -/
  quantity : ℚ
  averagePrice : ℚ
  unrealizedPnl : ℚ
  realizedPnl : ℚ
  lastUpdated : Nat
  entryTime : Nat
  totalFees : ℚ
  deriving DecidableEq

namespace Position

def new (symbol exchange : String) (timestamp : Nat) : Position :=
  ⟨symbol, exchange, 0, 0, 0, 0, timestamp, timestamp, 0⟩

def fill (pos : Position) (fillQuantity fillPrice : ℚ) (timestamp : Nat) : Position :=
  if pos.quantity = 0 then
    { pos with quantity := fillQuantity, averagePrice := fillPrice, entryTime := timestamp }
  else if (0 < pos.quantity ∧ 0 < fillQuantity) ∨ (pos.quantity < 0 ∧ fillQuantity < 0) then
    let totalCost := pos.quantity * pos.averagePrice + fillQuantity * fillPrice
    { pos with
      quantity := pos.quantity + fillQuantity
      averagePrice := totalCost / (pos.quantity + fillQuantity) }
  else
    let closingQuantity := min |fillQuantity| |pos.quantity|
    let remainingQuantity := |pos.quantity| - closingQuantity
    let realizedPnlChange :=
      if 0 < pos.quantity then closingQuantity * (fillPrice - pos.averagePrice)
      else closingQuantity * (pos.averagePrice - fillPrice)
    let closed := { pos with realizedPnl := pos.realizedPnl + realizedPnlChange }
    if 0 < remainingQuantity then
      { closed with quantity := if 0 < pos.quantity then remainingQuantity else -remainingQuantity }
    else
      let excessQuantity := |fillQuantity| - closingQuantity
      if 0 < excessQuantity then
        { closed with
          quantity := if 0 < fillQuantity then excessQuantity else -excessQuantity
          averagePrice := fillPrice
          entryTime := timestamp }
      else { closed with quantity := 0, averagePrice := 0 }

def updateFill (pos : Position) (fillQuantity fillPrice fees : FloatArg) (timestamp : Nat) :
    Except String Position := do
  let quantity ← fillQuantity.require (fun _ => true) "Fill quantity must be finite (not NaN or infinite)"
  let price ← fillPrice.require (0 < ·) "Fill price must be finite and positive"
  let fee ← fees.require (0 ≤ ·) "Fees must be finite and non-negative"
  if 1000000 < |quantity| then throw "Fill quantity exceeds maximum allowed (1M units)"
  if 10000000 < price then throw "Fill price exceeds maximum allowed (10M)"
  let filled := pos.fill quantity price timestamp
  return { filled with totalFees := filled.totalFees + fee, lastUpdated := timestamp }

def updateUnrealizedPnl (pos : Position) (currentPrice : FloatArg) (timestamp : Nat) : Except String Position := do
  let price ← currentPrice.require (0 < ·) "Current price must be finite and positive"
  if 10000000 < price then throw "Current price exceeds maximum allowed (10M)"
  let unrealizedPnl :=
    if pos.quantity = 0 then 0
    else if 0 < pos.quantity then pos.quantity * (price - pos.averagePrice)
    else pos.quantity * (pos.averagePrice - price)
  return { pos with unrealizedPnl, lastUpdated := timestamp }

def totalPnl (pos : Position) : ℚ := pos.realizedPnl + pos.unrealizedPnl

end Position

/-- The numbers of a fill that a position accepts. -/
def ValidNumbers (quantity price fee : ℚ) : Prop :=
  |quantity| ≤ 1000000 ∧ 0 < price ∧ price ≤ 10000000 ∧ 0 ≤ fee

def ValidFill (fillQuantity fillPrice fees : FloatArg) : Prop :=
  ∃ quantity price fee, fillQuantity = .finite quantity ∧ fillPrice = .finite price ∧ fees = .finite fee ∧
    ValidNumbers quantity price fee

namespace Position

theorem updateFill_ok_iff (pos : Position) {pos' : Position} {fillQuantity fillPrice fees : FloatArg} (timestamp : Nat) :
    pos.updateFill fillQuantity fillPrice fees timestamp = .ok pos' ↔
      ∃ quantity price fee, (fillQuantity = .finite quantity ∧ fillPrice = .finite price ∧ fees = .finite fee ∧
        ValidNumbers quantity price fee) ∧
          pos' = { pos.fill quantity price timestamp with
            totalFees := (pos.fill quantity price timestamp).totalFees + fee
            lastUpdated := timestamp } := by
  simp only [updateFill, Outcome.bind_eq_ok, FloatArg.require_ok_iff, Outcome.refuse_eq_ok, Outcome.pure_eq_ok,
    decide_eq_true_eq, not_lt, ValidNumbers]
  constructor
  · rintro ⟨q, ⟨rfl, -⟩, p, ⟨rfl, positive⟩, f, ⟨rfl, charged⟩, small, cheap, rfl⟩
    exact ⟨q, p, f, ⟨rfl, rfl, rfl, small, positive, cheap, charged⟩, rfl⟩
  · rintro ⟨q, p, f, ⟨rfl, rfl, rfl, small, positive, cheap, charged⟩, rfl⟩
    exact ⟨q, ⟨rfl, trivial⟩, p, ⟨rfl, positive⟩, f, ⟨rfl, charged⟩, small, cheap, rfl⟩

/-- What a fill does: it adds to the position, it closes a part of it, or it closes
    all of it and opens the rest the other way. -/
theorem fill_cases (pos : Position) (q p : ℚ) (timestamp : Nat) :
    (pos.fill q p timestamp).quantity = pos.quantity + q ∧
      (((pos.quantity = 0 ∨ 0 < pos.quantity * q) ∧
          (pos.fill q p timestamp).quantity * (pos.fill q p timestamp).averagePrice =
            pos.quantity * pos.averagePrice + q * p ∧
          (pos.fill q p timestamp).realizedPnl = pos.realizedPnl) ∨
        (¬ (pos.quantity = 0 ∨ 0 < pos.quantity * q) ∧ |q| < |pos.quantity| ∧
          (pos.fill q p timestamp).averagePrice = pos.averagePrice ∧
          (pos.fill q p timestamp).realizedPnl = pos.realizedPnl - q * (p - pos.averagePrice)) ∨
        (¬ (pos.quantity = 0 ∨ 0 < pos.quantity * q) ∧ |pos.quantity| ≤ |q| ∧
          (pos.fill q p timestamp).quantity * (pos.fill q p timestamp).averagePrice = (pos.quantity + q) * p ∧
          (pos.fill q p timestamp).realizedPnl = pos.realizedPnl + pos.quantity * (p - pos.averagePrice))) := by
  unfold fill
  split
  next flat => simp [flat]
  next held =>
    split
    next along =>
      have same : 0 < pos.quantity * q := by
        rcases along with ⟨long, buying⟩ | ⟨short, selling⟩
        · exact mul_pos long buying
        · exact mul_pos_of_neg_of_neg short selling
      have open_ : pos.quantity + q ≠ 0 := by
        rcases along with ⟨long, buying⟩ | ⟨short, selling⟩
        · exact (add_pos long buying).ne'
        · exact (add_neg short selling).ne
      exact ⟨rfl, .inl ⟨.inr same, mul_div_cancel₀ _ open_, rfl⟩⟩
    next against =>
      have opposite : ¬ (pos.quantity = 0 ∨ 0 < pos.quantity * q) := by
        rintro (flat | same)
        · exact held flat
        · rcases mul_pos_iff.1 same with long | short
          · exact against (.inl long)
          · exact against (.inr short)
      rcases lt_or_gt_of_ne held with short | long
      · have buying : 0 ≤ q := by
          by_contra selling
          exact against (.inr ⟨short, not_le.1 selling⟩)
        simp only [opposite, false_and, not_false_eq_true, true_and, false_or, abs_of_neg short, abs_of_nonneg buying,
          short.not_gt, if_false]
        rcases lt_or_ge q (-pos.quantity) with part | whole
        · have left : 0 < -pos.quantity - q := by linarith
          rw [min_eq_left part.le, if_pos left]
          exact ⟨by ring, .inl ⟨part, rfl, by ring⟩⟩
        · rw [min_eq_right whole, sub_self, if_neg (lt_irrefl 0)]
          split
          next reversed =>
            have bought : 0 < q := by linarith
            simp only [bought, if_true]
            exact ⟨by ring, .inr ⟨whole, by ring, by ring⟩⟩
          next closed =>
            have flat : pos.quantity + q = 0 := by linarith
            exact ⟨flat.symm, .inr ⟨whole, by rw [flat, zero_mul, zero_mul], by ring⟩⟩
      · have selling : q ≤ 0 := by
          by_contra buying
          exact against (.inl ⟨long, not_le.1 buying⟩)
        simp only [opposite, false_and, not_false_eq_true, true_and, false_or, abs_of_pos long, abs_of_nonpos selling,
          long, if_true]
        rcases lt_or_ge (-q) pos.quantity with part | whole
        · have left : 0 < pos.quantity - -q := by linarith
          rw [min_eq_left part.le, if_pos left]
          exact ⟨by ring, .inl ⟨part, rfl, by ring⟩⟩
        · rw [min_eq_right whole, sub_self, if_neg (lt_irrefl 0)]
          split
          next reversed =>
            simp only [selling.not_gt, if_false]
            exact ⟨by ring, .inr ⟨whole, by ring, trivial⟩⟩
          next closed =>
            have flat : pos.quantity + q = 0 := by linarith
            exact ⟨flat.symm, .inr ⟨whole, by rw [flat, zero_mul, zero_mul], by ring⟩⟩

/-- A fill is added to the quantity, whatever it does to the position. -/
theorem fill_quantity (pos : Position) (fillQuantity fillPrice : ℚ) (timestamp : Nat) :
    (pos.fill fillQuantity fillPrice timestamp).quantity = pos.quantity + fillQuantity :=
  (pos.fill_cases fillQuantity fillPrice timestamp).1

theorem updateUnrealizedPnl_quantity {pos pos' : Position} {currentPrice : FloatArg} {timestamp : Nat}
    (marked : pos.updateUnrealizedPnl currentPrice timestamp = .ok pos') : pos'.quantity = pos.quantity := by
  simp only [updateUnrealizedPnl, Outcome.bind_eq_ok, Outcome.refuse_eq_ok, Outcome.pure_eq_ok] at marked
  obtain ⟨_, -, -, rfl⟩ := marked
  rfl

end Position

/-! ## The tracker -/

structure PositionTracker where
  /-- By symbol and exchange. -/
  positions : Registry (String × String) Position
  marketPrices : Registry String FloatArg

namespace PositionTracker

def new : PositionTracker := ⟨.empty, .empty⟩

def updateFill (t : PositionTracker) (symbol exchange : String) (fillQuantity fillPrice fees : FloatArg)
    (timestamp : Nat) : PositionTracker × Except String Unit :=
  let position := (t.positions.get (symbol, exchange)).getD (.new symbol exchange timestamp)
  -- the answer of the position is dropped
  let position := match position.updateFill fillQuantity fillPrice fees timestamp with
    | .ok updated => updated
    | .error _ => position
  ({ t with positions := t.positions.insert (symbol, exchange) position }, .ok ())

def updateMarketPrice (t : PositionTracker) (symbol : String) (price : FloatArg) (timestamp : Nat) :
    PositionTracker × Except String Unit :=
  let mark (key : String × String) (position : Position) : Position :=
    if key.1 = symbol then
      match position.updateUnrealizedPnl price timestamp with
      | .ok marked => marked
      | .error _ => position
    else position
  ({ positions := t.positions.modifyAll mark, marketPrices := t.marketPrices.insert symbol price }, .ok ())

def getPosition (t : PositionTracker) (symbol exchange : String) : Option Position :=
  t.positions.get (symbol, exchange)

def getPositionsForSymbol (t : PositionTracker) (symbol : String) : List Position :=
  (t.positions.keys.filter (·.1 = symbol)).filterMap t.positions.get

def getNetPosition (t : PositionTracker) (symbol : String) : ℚ :=
  ((t.getPositionsForSymbol symbol).map Position.quantity).sum

end PositionTracker

/-! ## Runs -/

inductive TrackerCall where
  | updateFill (symbol exchange : String) (fillQuantity fillPrice fees : FloatArg) (timestamp : Nat)
  | updateMarketPrice (symbol : String) (price : FloatArg) (timestamp : Nat)

namespace PositionTracker

def step (t : PositionTracker) : TrackerCall → PositionTracker × Except String Unit
  | .updateFill symbol exchange fillQuantity fillPrice fees timestamp =>
      t.updateFill symbol exchange fillQuantity fillPrice fees timestamp
  | .updateMarketPrice symbol price timestamp => t.updateMarketPrice symbol price timestamp

def after (t : PositionTracker) (call : TrackerCall) : PositionTracker := (t.step call).1

def run : PositionTracker → List TrackerCall → PositionTracker := Runs.run after

/-- The quantity stored for a position, zero if there is none. -/
def stored (t : PositionTracker) (key : String × String) : ℚ :=
  ((t.getPosition key.1 key.2).map Position.quantity).getD 0

end PositionTracker

/-- The fill a call brings to a position, if it is acknowledged. -/
def TrackerCall.acknowledged (key : String × String) : TrackerCall → Except String Unit → List FloatArg
  | .updateFill symbol exchange fillQuantity _ _ _, .ok () => if (symbol, exchange) = key then [fillQuantity] else []
  | _, _ => []

namespace PositionTracker

/-- The fills of a position that the calls of a run acknowledge. -/
def acknowledged (key : String × String) : PositionTracker → List TrackerCall → List FloatArg
  | _, [] => []
  | t, call :: calls => call.acknowledged key (t.step call).2 ++ acknowledged key (t.after call) calls

end PositionTracker

end ExecutionHandler
