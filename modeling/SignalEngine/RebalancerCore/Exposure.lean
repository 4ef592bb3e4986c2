import SignalEngine.RebalancerCore.GuardVerdict

/-! # Exposure after an order

What `afterState` computes, in units of `10^-18`: sums over the positions of the
account, the traded instrument apart from the others.
-/

open BrokerAdapters Outcome Text

namespace RebalancerCore

/-- The sign an order side gives to an amount. -/
def Side.signed (side : Side) (x : Int) : Int :=
  match side with
  | .buy => x
  | .sell => -x

/-- The sum of a quantity over positions. -/
def total (f : Position → Int) (positions : List Position) : Int := (positions.map f).sum

def Position.value (p : Position) : Int := p.marketValue.atto

def Position.size (p : Position) : Int := |p.marketValue.atto|

/-- Is this the position of the instrument? -/
def Position.isOf (symbol : String) (p : Position) : Bool := eqIgnoreAsciiCase p.symbol symbol

def Position.inClass (assetClass : String) (p : Position) : Bool :=
  eqIgnoreAsciiCase (trimmed p.assetClass) assetClass

def traded (symbol : String) (positions : List Position) : List Position :=
  positions.filter (Position.isOf symbol)

def others (symbol : String) (positions : List Position) : List Position :=
  positions.filter fun (p : Position) => !p.isOf symbol

@[simp] theorem total_nil (f : Position → Int) : total f [] = 0 := rfl

@[simp] theorem total_cons (f : Position → Int) (p : Position) (ps : List Position) :
    total f (p :: ps) = f p + total f ps := by simp [total]

theorem total_append (f : Position → Int) (ps qs : List Position) :
    total f (ps ++ qs) = total f ps + total f qs := by simp [total]

theorem total_filter_cons (f : Position → Int) (keep : Position → Bool) (p : Position)
    (ps : List Position) :
    total f ((p :: ps).filter keep) = total f ([p].filter keep) + total f (ps.filter keep) := by
  rw [← total_append, ← List.filter_append]
  rfl

theorem total_nonneg {f : Position → Int} {ps : List Position} (h : ∀ p ∈ ps, 0 ≤ f p) :
    0 ≤ total f ps := by
  induction ps with
  | nil => simp
  | cons p ps ih =>
      have head := h p (by simp)
      have tail := ih fun q member => h q (by simp [member])
      rw [total_cons]
      omega

theorem Position.size_nonneg (p : Position) : 0 ≤ p.size := abs_nonneg _

namespace Guard

theorem signed_ok {side : Side} {d z : Dec} (h : signed side d = .ok z) :
    z.atto = Side.signed side d.atto := by
  cases side with
  | buy =>
      obtain rfl := Except.ok.inj h
      rfl
  | sell => exact DecMath.neg_ok h

theorem Sums.add_ok {symbol assetClass : String} {s s' : Sums} {p : Position}
    (h : Sums.add symbol assetClass s p = .ok s') :
    s'.positionValue.atto = s.positionValue.atto + total Position.value (traded (trimmed symbol) [p]) ∧
    s'.othersGross.atto = s.othersGross.atto + total Position.size (others (trimmed symbol) [p]) ∧
    s'.othersNet.atto = s.othersNet.atto + total Position.value (others (trimmed symbol) [p]) ∧
    s'.othersClassGross.atto = s.othersClassGross.atto +
      total Position.size ((others (trimmed symbol) [p]).filter (Position.inClass assetClass)) := by
  unfold Sums.add at h
  split at h
  next same =>
      obtain ⟨value, sum, done⟩ := bind_eq_ok.1 h
      obtain rfl := Except.ok.inj done
      simp [traded, others, Position.isOf, same, DecMath.add_ok sum, Position.value]
  next other =>
      obtain ⟨a, size, h⟩ := bind_eq_ok.1 h
      obtain ⟨gross, grossSum, h⟩ := bind_eq_ok.1 h
      obtain ⟨net, netSum, h⟩ := bind_eq_ok.1 h
      obtain ⟨classGross, classSum, done⟩ := bind_eq_ok.1 h
      obtain rfl := Except.ok.inj done
      rw [Bool.not_eq_true] at other
      have grossEq := DecMath.add_ok grossSum
      have netEq := DecMath.add_ok netSum
      rw [DecMath.abs_ok size] at grossEq
      refine ⟨by simp [traded, Position.isOf, other], ?_, ?_, ?_⟩
      · simpa [others, Position.isOf, other, Position.size] using grossEq
      · simpa [others, Position.isOf, other, Position.value] using netEq
      · unfold addClass at classSum
        split at classSum
        next inside =>
            have classEq := DecMath.add_ok classSum
            rw [DecMath.abs_ok size] at classEq
            simpa [others, Position.isOf, other, Position.inClass, inside, Position.size]
              using classEq
        next outside =>
            obtain rfl := Except.ok.inj classSum
            rw [Bool.not_eq_true] at outside
            simp [others, Position.isOf, other, Position.inClass, outside]

theorem Sums.foldlM_ok {symbol assetClass : String} {positions : List Position} {s s' : Sums}
    (h : positions.foldlM (Sums.add symbol assetClass) s = .ok s') :
    s'.positionValue.atto =
      s.positionValue.atto + total Position.value (traded (trimmed symbol) positions) ∧
    s'.othersGross.atto =
      s.othersGross.atto + total Position.size (others (trimmed symbol) positions) ∧
    s'.othersNet.atto =
      s.othersNet.atto + total Position.value (others (trimmed symbol) positions) ∧
    s'.othersClassGross.atto = s.othersClassGross.atto +
      total Position.size
        ((others (trimmed symbol) positions).filter (Position.inClass assetClass)) := by
  induction positions generalizing s with
  | nil =>
      obtain rfl := Except.ok.inj h
      simp [traded, others]
  | cons p ps ih =>
      rw [List.foldlM_cons] at h
      obtain ⟨next, step, rest⟩ := bind_eq_ok.1 h
      obtain ⟨value, gross, net, classGross⟩ := Sums.add_ok step
      obtain ⟨value', gross', net', classGross'⟩ := ih rest
      simp only [traded, others, List.filter_filter] at *
      simp only [fun f keep => total_filter_cons f keep p ps]
      omega

/-- The exposure after the order, as sums over the positions. -/
structure Projects (account : AccountView) (order : ProposedOrder) (notional : Dec)
    (assetClass : String) (after : After) : Prop where
  position : after.positionValue.atto =
    |Side.signed order.side notional.atto +
      total Position.value (traded (trimmed order.symbol) account.positions)|
  gross : after.gross.atto =
    total Position.size (others (trimmed order.symbol) account.positions) +
      after.positionValue.atto
  net : after.net.atto =
    total Position.value (others (trimmed order.symbol) account.positions) +
      (Side.signed order.side notional.atto +
        total Position.value (traded (trimmed order.symbol) account.positions))
  classGross : after.classGross.atto =
    total Position.size ((others (trimmed order.symbol) account.positions).filter
      (Position.inClass assetClass)) + after.positionValue.atto
  cash : after.cash.atto =
    account.cash.atto - Side.signed order.side notional.atto - order.estFee.atto

theorem afterState_ok {account : AccountView} {order : ProposedOrder} {notional : Dec}
    {assetClass : String} {after : After}
    (h : afterState account order notional assetClass = .ok after) :
    Projects account order notional assetClass after := by
  obtain ⟨change, changeEq, h⟩ := bind_eq_ok.1 h
  obtain ⟨sums, fold, h⟩ := bind_eq_ok.1 h
  obtain ⟨positionValue, size, h⟩ := bind_eq_ok.1 h
  obtain ⟨gross, grossSum, h⟩ := bind_eq_ok.1 h
  obtain ⟨net, netSum, h⟩ := bind_eq_ok.1 h
  obtain ⟨classGross, classSum, h⟩ := bind_eq_ok.1 h
  obtain ⟨paid, payment, h⟩ := bind_eq_ok.1 h
  obtain ⟨cash, fee, h⟩ := bind_eq_ok.1 h
  obtain rfl := Except.ok.inj h
  obtain ⟨value, othersGross, othersNet, othersClass⟩ := Sums.foldlM_ok fold
  simp only [signed_ok changeEq, Dec.atto_zero, zero_add] at value othersGross othersNet othersClass
  constructor
  · rw [DecMath.abs_ok size, value]
  · rw [DecMath.add_ok grossSum, othersGross]
  · rw [DecMath.add_ok netSum, othersNet, value]
  · rw [DecMath.add_ok classSum, othersClass]
  · rw [DecMath.sub_ok fee, DecMath.sub_ok payment, signed_ok changeEq]

theorem Projects.gross_nonneg {account : AccountView} {order : ProposedOrder} {notional : Dec}
    {assetClass : String} {after : After}
    (projects : Projects account order notional assetClass after) : 0 ≤ after.gross.atto := by
  rw [projects.gross, projects.position]
  apply add_nonneg
  · apply total_nonneg
    intro p _
    exact p.size_nonneg
  · exact abs_nonneg _

end Guard

end RebalancerCore
