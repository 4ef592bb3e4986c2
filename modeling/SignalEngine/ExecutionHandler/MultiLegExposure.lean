import SignalEngine.ExecutionHandler.MultiLegCancel
import SignalEngine.ExecutionHandler.MultiLegIndexes
import Mathlib.Tactic.Linarith
import Mathlib.Tactic.NormNum

/-! # What the legs of a group may fill together

The exits of a bracket should not fill more than its entry, and the two legs of an
OCO not more than one of them. The other leg is cancelled only when one is filled
completely, and it keeps its size until then, so partial fills of both can exceed
the bound. While the legs of a pair fill one at a time, the cancel keeps it.
Amounts are exact rationals.
-/

namespace ExecutionHandler

attribute [local instance] exactFloats

/-! ## Legs -/

namespace OrderLeg

variable {l l' : OrderLeg ℚ}

def Complete (l : OrderLeg ℚ) : Prop := l.quantity ≤ l.filledQuantity

/-- The leg is not cancelled by the fill of another one, and receives no fill. -/
def Closed (l : OrderLeg ℚ) : Prop := l.status = .cancelled ∨ l.status = .filled

instance : Decidable l.Complete := inferInstanceAs (Decidable (_ ≤ _))

instance : Decidable l.Closed := inferInstanceAs (Decidable (_ ∨ _))

/-- The fills stay within the quantity, which for a leg without fills is any. -/
def Sound (l : OrderLeg ℚ) : Prop := 0 ≤ l.filledQuantity ∧ (l.filledQuantity = 0 ∨ l.filledQuantity ≤ l.quantity)

structure SameLeg (l l' : OrderLeg ℚ) : Prop where
  legId : l'.legId = l.legId
  role : l'.role = l.role
  size : l'.quantity = l.quantity

/-- The same fills of the same leg, which is not opened again. -/
structure Settles (l l' : OrderLeg ℚ) : Prop extends SameLeg l l' where
  filled : l'.filledQuantity = l.filledQuantity
  closed : l.Closed → l'.Closed

theorem Settles.refl (l : OrderLeg ℚ) : Settles l l := ⟨⟨rfl, rfl, rfl⟩, rfl, id⟩

theorem Settles.sound (settles : Settles l l') (sound : l.Sound) : l'.Sound := by
  unfold Sound
  rw [settles.filled, settles.size]
  exact sound

theorem Settles.complete (settles : Settles l l') (complete : l'.Complete) : l.Complete := by
  unfold Complete at *
  rw [← settles.filled, ← settles.size]
  exact complete

theorem settles_link (live : ¬ l.Closed) (exchangeOrderId : String) (now : Nat) :
    Settles l (l.link exchangeOrderId now) :=
  ⟨⟨rfl, rfl, rfl⟩, rfl, fun closed => absurd closed live⟩

theorem settles_cancel (l : OrderLeg ℚ) (now : Nat) : Settles l (l.cancel now) :=
  ⟨⟨rfl, rfl, rfl⟩, rfl, fun _ => .inl rfl⟩

theorem settles_cancelLeg (l : OrderLeg ℚ) (now : Nat) : Settles l (MultiLegOrderManager.cancelLeg l now) := by
  unfold MultiLegOrderManager.cancelLeg
  split
  · exact settles_cancel l now
  · exact .refl l

structure Fits (l : OrderLeg ℚ) (quantity : ℚ) : Prop where
  live : ¬ l.Closed
  positive : 0 ≤ quantity
  within : l.filledQuantity + quantity ≤ l.quantity

structure Fills (l l' : OrderLeg ℚ) (quantity : ℚ) : Prop extends SameLeg l l' where
  filled : l'.filledQuantity = l.filledQuantity + quantity

variable {quantity : ℚ}

theorem fills_fill (l : OrderLeg ℚ) (fill : ExecutionFill ℚ) (exchangeTimestampNs : Option Nat) (now : Nat) :
    l.Fills (l.fill fill exchangeTimestampNs now) fill.quantity :=
  ⟨⟨rfl, rfl, rfl⟩, rfl⟩

theorem Fills.settle {filled : OrderLeg ℚ} (fills : l.Fills filled quantity) (settles : filled.Settles l') :
    l.Fills l' quantity where
  legId := settles.legId.trans fills.legId
  role := settles.role.trans fills.role
  size := settles.size.trans fills.size
  filled := settles.filled.trans fills.filled

theorem Sound.fill (sound : l.Sound) (fits : l.Fits quantity) (fills : l.Fills l' quantity) : l'.Sound := by
  have within := fits.within
  have positive := fits.positive
  obtain ⟨nonneg, -⟩ := sound
  unfold Sound
  rw [fills.filled, fills.size]
  exact ⟨by linarith, .inr within⟩

theorem fill_complete {fill : ExecutionFill ℚ} {exchangeTimestampNs : Option Nat} {now : Nat}
    (complete : (l.fill fill exchangeTimestampNs now).Complete) : (l.fill fill exchangeTimestampNs now).status = .filled :=
  if_pos (decide_eq_true complete)

end OrderLeg

/-! ## Two legs of which one cancels the other -/

/-- Only one of the legs has fills, and when these reach its quantity the other is closed. -/
structure Exclusive (x y : OrderLeg ℚ) : Prop where
  soundLeft : x.Sound
  soundRight : y.Sound
  one : x.filledQuantity = 0 ∨ y.filledQuantity = 0
  closesRight : x.filledQuantity ≠ 0 → x.Complete → y.Closed
  closesLeft : y.filledQuantity ≠ 0 → y.Complete → x.Closed

/-- The leg has no fills, or all of them. -/
def Whole (l : OrderLeg ℚ) : Prop := l.filledQuantity = 0 ∨ l.Complete

instance (l : OrderLeg ℚ) : Decidable (Whole l) := inferInstanceAs (Decidable (_ ∨ _))

namespace Exclusive

variable {x y x' y' : OrderLeg ℚ}

theorem symm (pair : Exclusive x y) : Exclusive y x :=
  ⟨pair.soundRight, pair.soundLeft, pair.one.symm, pair.closesLeft, pair.closesRight⟩

theorem settle (pair : Exclusive x y) (left : x.Settles x') (right : y.Settles y') : Exclusive x' y' where
  soundLeft := left.sound pair.soundLeft
  soundRight := right.sound pair.soundRight
  one := by
    rw [left.filled, right.filled]
    exact pair.one
  closesRight some complete := by
    rw [left.filled] at some
    exact right.closed (pair.closesRight some (left.complete complete))
  closesLeft some complete := by
    rw [right.filled] at some
    exact left.closed (pair.closesLeft some (right.complete complete))

/-- A leg of the pair that is open can fill while the other one is whole: had the other
    all its fills, this one would be closed. -/
theorem untouched (pair : Exclusive x y) (live : ¬ x.Closed) (whole : Whole y) : y.filledQuantity = 0 := by
  by_contra some
  rcases whole with none | complete
  · exact some none
  · exact live (pair.closesLeft some complete)

theorem fill {quantity : ℚ} (pair : Exclusive x y) (fits : x.Fits quantity) (whole : Whole y)
    (left : x.Fills x' quantity) (right : y.Settles y') (closes : x'.Complete → y'.Closed) : Exclusive x' y' := by
  have none : y'.filledQuantity = 0 := by
    rw [right.filled]
    exact pair.untouched fits.live whole
  exact {
    soundLeft := pair.soundLeft.fill fits left
    soundRight := right.sound pair.soundRight
    one := .inr none
    closesRight := fun _ => closes
    closesLeft := fun some => absurd none some }

theorem sum_le (pair : Exclusive x y) {bound : ℚ} (left : x.filledQuantity ≤ bound) (right : y.filledQuantity ≤ bound) :
    x.filledQuantity + y.filledQuantity ≤ bound := by
  rcases pair.one with none | none
  · rw [none, zero_add]
    exact right
  · rw [none, add_zero]
    exact left

end Exclusive

/-- The leg of the group that is cancelled when the one with this role is filled. -/
def MultiLegType.sibling : MultiLegType → LegRole → Option LegRole
  | .oco, .ocoLegA => some .ocoLegB
  | .oco, .ocoLegB => some .ocoLegA
  | .bracket, .stopLoss => some .takeProfit
  | .bracket, .takeProfit => some .stopLoss
  | _, _ => none

def filledOn (role : LegRole) (legs : List (OrderLeg ℚ)) : ℚ :=
  ((legs.filter (·.role = role)).map OrderLeg.filledQuantity).sum

@[simp] theorem filledOn_nil (role : LegRole) : filledOn role [] = 0 := rfl

@[simp] theorem filledOn_cons (role : LegRole) (l : OrderLeg ℚ) (legs : List (OrderLeg ℚ)) :
    filledOn role (l :: legs) = (if l.role = role then l.filledQuantity else 0) + filledOn role legs := by
  by_cases same : l.role = role
  · simp [filledOn, same]
  · simp [filledOn, same]

/-- The exits fill at most what the entry filled; two legs of the same size fill at
    most that size together. -/
def ExposureBounded (orderType : MultiLegType) (legs : List (OrderLeg ℚ)) : Prop :=
  match orderType with
  | .bracket => filledOn .stopLoss legs + filledOn .takeProfit legs ≤ filledOn .entry legs
  | .oco => ∀ size, (∀ l ∈ legs, l.quantity = size) → filledOn .ocoLegA legs + filledOn .ocoLegB legs ≤ size
  | _ => True

/-! ## The legs of a group -/

/-- How the legs of a group are made up. -/
inductive Legs : MultiLegType → List (OrderLeg ℚ) → Prop where
  | oco {a b : OrderLeg ℚ} (roles : a.role = .ocoLegA ∧ b.role = .ocoLegB) (distinct : a.legId ≠ b.legId)
      (sized : a.quantity = b.quantity → 0 ≤ a.quantity) (pair : Exclusive a b) : Legs .oco [a, b]
  | bracket {e s t : OrderLeg ℚ} (roles : e.role = .entry ∧ s.role = .stopLoss ∧ t.role = .takeProfit)
      (distinct : [e.legId, s.legId, t.legId].Nodup) (sizes : s.quantity = e.quantity ∧ t.quantity = e.quantity)
      (pair : Exclusive s t) (stop : s.filledQuantity ≤ e.filledQuantity) (target : t.filledQuantity ≤ e.filledQuantity) :
      Legs .bracket [e, s, t]
  | linkedPair (legs : List (OrderLeg ℚ)) : Legs .linkedPair legs

namespace Legs

variable {orderType : MultiLegType} {legs legs' : List (OrderLeg ℚ)}

theorem bounded (made : Legs orderType legs) : ExposureBounded orderType legs := by
  cases made with
  | @oco a b roles distinct sized pair =>
      obtain ⟨roleA, roleB⟩ := roles
      simp only [ExposureBounded, filledOn_cons, filledOn_nil, roleA, roleB, List.forall_mem_cons, List.not_mem_nil,
        false_imp_iff, implies_true, and_true, reduceCtorEq, if_true, if_false, zero_add, add_zero]
      rintro size ⟨rfl, same⟩
      have nonneg := sized same.symm
      -- a leg without fills is within its size as well
      have within {l : OrderLeg ℚ} (sound : l.Sound) (size : l.quantity = a.quantity) : l.filledQuantity ≤ a.quantity := by
        rcases sound.2 with none | within
        · rw [none]
          exact nonneg
        · exact within.trans_eq size
      exact pair.sum_le (within pair.soundLeft rfl) (within pair.soundRight same)
  | bracket roles distinct sizes pair stop target =>
      obtain ⟨roleE, roleS, roleT⟩ := roles
      simpa [ExposureBounded, roleE, roleS, roleT] using pair.sum_le stop target
  | linkedPair legs => trivial

theorem oco_same {a b a' b' : OrderLeg ℚ} (roles : a.role = .ocoLegA ∧ b.role = .ocoLegB) (distinct : a.legId ≠ b.legId)
    (sized : a.quantity = b.quantity → 0 ≤ a.quantity) (left : a.SameLeg a') (right : b.SameLeg b')
    (pair : Exclusive a' b') : Legs .oco [a', b'] := by
  refine .oco ⟨left.role.trans roles.1, right.role.trans roles.2⟩ ?_ ?_ pair
  · rw [left.legId, right.legId]
    exact distinct
  · rw [left.size, right.size]
    exact sized

theorem bracket_same {e s t e' s' t' : OrderLeg ℚ} (roles : e.role = .entry ∧ s.role = .stopLoss ∧ t.role = .takeProfit)
    (distinct : [e.legId, s.legId, t.legId].Nodup) (sizes : s.quantity = e.quantity ∧ t.quantity = e.quantity)
    (entry : e.SameLeg e') (stop : s.SameLeg s') (target : t.SameLeg t') (pair : Exclusive s' t')
    (stopped : s'.filledQuantity ≤ e'.filledQuantity) (sold : t'.filledQuantity ≤ e'.filledQuantity) :
    Legs .bracket [e', s', t'] := by
  obtain ⟨roleE, roleS, roleT⟩ := roles
  refine .bracket ⟨entry.role.trans roleE, stop.role.trans roleS, target.role.trans roleT⟩ ?_ ?_ pair stopped sold
  · rw [entry.legId, stop.legId, target.legId]
    exact distinct
  · rw [entry.size, stop.size, target.size]
    exact sizes

theorem settle (made : Legs orderType legs) (settles : List.Forall₂ OrderLeg.Settles legs legs') :
    Legs orderType legs' := by
  cases made with
  | oco roles distinct sized pair =>
      rcases settles with _ | ⟨settleA, _ | ⟨settleB, ⟨⟩⟩⟩
      exact oco_same roles distinct sized settleA.toSameLeg settleB.toSameLeg (pair.settle settleA settleB)
  | bracket roles distinct sizes pair stop target =>
      rcases settles with _ | ⟨settleE, _ | ⟨settleS, _ | ⟨settleT, ⟨⟩⟩⟩⟩
      refine bracket_same roles distinct sizes settleE.toSameLeg settleS.toSameLeg settleT.toSameLeg
        (pair.settle settleS settleT) ?_ ?_
      · rw [settleE.filled, settleS.filled]
        exact stop
      · rw [settleE.filled, settleT.filled]
        exact target
  | linkedPair legs => exact .linkedPair _

section Filled

variable {legId : String} {leg filled : OrderLeg ℚ} {quantity : ℚ}

/-- A leg fills while its sibling is whole, an exit once the entry is complete; then
    the other legs settle, the sibling closed when the leg is complete. -/
theorem fill (made : Legs orderType legs) (here : legs.find? (·.legId == legId) = some leg) (fits : leg.Fits quantity)
    (fills : leg.Fills filled quantity) (whole : ∀ l ∈ legs, orderType.sibling leg.role = some l.role → Whole l)
    (entered : leg.role = .stopLoss ∨ leg.role = .takeProfit → ∀ l ∈ legs, l.role = .entry → l.Complete)
    (settles : List.Forall₂ OrderLeg.Settles (updateFirst (·.legId == legId) (fun _ => filled) legs) legs')
    (closes : ∀ other, orderType.sibling leg.role = some other → filled.Complete →
      (legs'.find? (·.role == other)).all (decide ·.Closed) = true) : Legs orderType legs' := by
  cases made with
  | @oco a b roles distinct sized pair =>
      have roleA := roles.1
      have roleB := roles.2
      by_cases first : a.legId = legId
      · obtain rfl : a = leg := by simpa [first] using here
        simp only [updateFirst, first, beq_self_eq_true, if_true] at settles
        rcases settles with _ | ⟨settleA, _ | ⟨settleB, ⟨⟩⟩⟩
        have filledA := fills.settle settleA
        refine oco_same roles distinct sized filledA.toSameLeg settleB.toSameLeg ?_
        refine pair.fill fits (whole b (by simp) (by rw [roleA, roleB]; rfl)) filledA settleB fun complete => ?_
        have closed := closes .ocoLegB (by rw [roleA]; rfl) (settleA.complete complete)
        simpa [filledA.role.trans roleA, settleB.role.trans roleB] using closed
      · have second : b.legId = legId := by
          by_contra neither
          simp [first, neither] at here
        obtain rfl : b = leg := by simpa [first, second] using here
        simp only [updateFirst, first, second, beq_iff_eq, beq_self_eq_true, if_true, if_false] at settles
        rcases settles with _ | ⟨settleA, _ | ⟨settleB, ⟨⟩⟩⟩
        have filledB := fills.settle settleB
        refine oco_same roles distinct sized settleA.toSameLeg filledB.toSameLeg ?_
        refine (pair.symm.fill fits (whole a (by simp) (by rw [roleA, roleB]; rfl)) filledB settleA fun complete => ?_).symm
        have closed := closes .ocoLegA (by rw [roleB]; rfl) (settleB.complete complete)
        simpa [settleA.role.trans roleA] using closed
  | @bracket e s t roles distinct sizes pair stop target =>
      have roleE := roles.1
      have roleS := roles.2.1
      have roleT := roles.2.2
      by_cases entry : e.legId = legId
      · obtain rfl : e = leg := by simpa [entry] using here
        simp only [updateFirst, entry, beq_self_eq_true, if_true] at settles
        rcases settles with _ | ⟨settleE, _ | ⟨settleS, _ | ⟨settleT, ⟨⟩⟩⟩⟩
        have filledE := fills.settle settleE
        have more : e.filledQuantity ≤ e.filledQuantity + quantity := le_add_of_nonneg_right fits.positive
        refine bracket_same roles distinct sizes filledE.toSameLeg settleS.toSameLeg settleT.toSameLeg
          (pair.settle settleS settleT) ?_ ?_
        · rw [filledE.filled, settleS.filled]
          exact stop.trans more
        · rw [filledE.filled, settleT.filled]
          exact target.trans more
      by_cases stopped : s.legId = legId
      · obtain rfl : s = leg := by simpa [entry, stopped] using here
        simp only [updateFirst, entry, stopped, beq_iff_eq, beq_self_eq_true, if_true, if_false] at settles
        rcases settles with _ | ⟨settleE, _ | ⟨settleS, _ | ⟨settleT, ⟨⟩⟩⟩⟩
        have filledS := fills.settle settleS
        have bought : e.quantity ≤ e.filledQuantity := entered (.inl roleS) e (by simp) roleE
        refine bracket_same roles distinct sizes settleE.toSameLeg filledS.toSameLeg settleT.toSameLeg ?_ ?_ ?_
        · refine pair.fill fits (whole t (by simp) (by rw [roleS, roleT]; rfl)) filledS settleT fun complete => ?_
          have closed := closes .takeProfit (by rw [roleS]; rfl) (settleS.complete complete)
          simpa [settleE.role.trans roleE, filledS.role.trans roleS, settleT.role.trans roleT] using closed
        · rw [settleE.filled, filledS.filled]
          exact (fits.within.trans_eq sizes.1).trans bought
        · rw [settleE.filled, settleT.filled]
          exact target
      · have sold : t.legId = legId := by
          by_contra none
          simp [entry, stopped, none] at here
        obtain rfl : t = leg := by simpa [entry, stopped, sold] using here
        simp only [updateFirst, entry, stopped, sold, beq_iff_eq, beq_self_eq_true, if_true, if_false] at settles
        rcases settles with _ | ⟨settleE, _ | ⟨settleS, _ | ⟨settleT, ⟨⟩⟩⟩⟩
        have filledT := fills.settle settleT
        have bought : e.quantity ≤ e.filledQuantity := entered (.inr roleT) e (by simp) roleE
        refine bracket_same roles distinct sizes settleE.toSameLeg settleS.toSameLeg filledT.toSameLeg ?_ ?_ ?_
        · refine (pair.symm.fill fits (whole s (by simp) (by rw [roleS, roleT]; rfl)) filledT settleS fun complete => ?_).symm
          have closed := closes .stopLoss (by rw [roleT]; rfl) (settleT.complete complete)
          simpa [settleE.role.trans roleE, settleS.role.trans roleS] using closed
        · rw [settleE.filled, settleS.filled]
          exact stop
        · rw [settleE.filled, filledT.filled]
          exact (fits.within.trans_eq sizes.2).trans bought
  | linkedPair legs => exact .linkedPair _

end Filled

end Legs

/-! ## The logic of a group -/

namespace MultiLegOrderGroup

open OrderLeg

variable {g : MultiLegOrderGroup ℚ} {legId : String} {leg : OrderLeg ℚ}

theorem settles_same (legs : List (OrderLeg ℚ)) : List.Forall₂ Settles legs legs :=
  List.forall₂_same.2 fun l _ => .refl l

theorem settles_cancelRole (g : MultiLegOrderGroup ℚ) (role : LegRole) (now : Nat) :
    List.Forall₂ Settles g.legs (g.cancelRole role now).1.legs := by
  unfold cancelRole
  split
  · split
    · exact forall₂_updateFirst Settles.refl fun l _ => settles_cancel l now
    · exact settles_same g.legs
  · exact settles_same g.legs

/-- The first leg of the role is cancelled, unless it was already cancelled or filled. -/
theorem cancelRole_closes (g : MultiLegOrderGroup ℚ) (role : LegRole) (now : Nat) :
    ((g.cancelRole role now).1.legs.find? (·.role == role)).all (decide ·.Closed) = true := by
  unfold cancelRole
  cases found : g.legs.find? (·.role == role) with
  | none => simp [found]
  | some l =>
      dsimp only
      split
      · rw [find?_updateFirst (fun l => by simp [OrderLeg.cancel]), found]
        simp [Closed, OrderLeg.cancel]
      next closed =>
        rw [found]
        simp only [Option.all_some, decide_eq_true_eq]
        by_contra live
        exact closed (not_or.1 live)

theorem settles_react (g : MultiLegOrderGroup ℚ) (leg : OrderLeg ℚ) (now : Nat) :
    List.Forall₂ Settles g.legs (g.react leg now).group.legs := by
  unfold react
  split
  · split
    · exact settles_cancelRole g _ now
    · exact settles_same g.legs
  · split
    · simp only [activateWaiting, List.forall₂_map_right_iff]
      refine List.forall₂_same.2 fun l _ => ?_
      split
      next waiting => exact ⟨⟨rfl, rfl, rfl⟩, rfl, fun closed => by simp [Closed, waiting] at closed⟩
      · exact .refl l
    · split
      · exact settles_cancelRole g _ now
      · exact settles_same g.legs
  · split
    · exact settles_same g.legs
    · split
      · exact settles_same g.legs
      · exact settles_same g.legs
  · exact settles_same g.legs

theorem cancelRole_orderType (g : MultiLegOrderGroup ℚ) (role : LegRole) (now : Nat) :
    (g.cancelRole role now).1.orderType = g.orderType := by
  unfold cancelRole
  split
  · split <;> rfl
  · rfl

theorem react_orderType (g : MultiLegOrderGroup ℚ) (leg : OrderLeg ℚ) (now : Nat) :
    (g.react leg now).group.orderType = g.orderType := by
  unfold react
  split
  · split
    · exact cancelRole_orderType g _ now
    · rfl
  · split
    · rfl
    · split
      · exact cancelRole_orderType g _ now
      · rfl
  · split
    · rfl
    · split
      · rfl
      · rfl
  · rfl

theorem react_closes (g : MultiLegOrderGroup ℚ) (leg : OrderLeg ℚ) {other : LegRole}
    (sibling : g.orderType.sibling leg.role = some other) (filled : leg.status = .filled) (now : Nat) :
    ((g.react leg now).group.legs.find? (·.role == other)).all (decide ·.Closed) = true := by
  have closes := cancelRole_closes g other now
  generalize itsType : g.orderType = orderType at sibling
  generalize itsRole : leg.role = role at sibling
  unfold MultiLegType.sibling at sibling
  split at sibling <;> cases sibling
  all_goals simpa [react, itsType, itsRole, filled, finishWith, complete] using closes

theorem legs_fill {fill : ExecutionFill ℚ} (made : Legs g.orderType g.legs)
    (here : g.legs.find? (·.legId == legId) = some leg) (fits : leg.Fits fill.quantity)
    (whole : ∀ l ∈ g.legs, g.orderType.sibling leg.role = some l.role → Whole l)
    (entered : leg.role = .stopLoss ∨ leg.role = .takeProfit → ∀ l ∈ g.legs, l.role = .entry → l.Complete)
    (exchangeTimestampNs : Option Nat) (now : Nat) :
    Legs g.orderType (g.fillLeg legId (leg.fill fill exchangeTimestampNs now) now).group.legs := by
  let filled := leg.fill fill exchangeTimestampNs now
  let before : MultiLegOrderGroup ℚ := { g with legs := updateFirst (·.legId == legId) (fun _ => filled) g.legs }
  exact made.fill here fits (fills_fill leg fill exchangeTimestampNs now) whole entered (settles_react before filled now)
    fun other sibling complete => react_closes before filled sibling (fill_complete complete) now

/-! ## Groups in a run -/

/-- The legs of a group are made up as its type says. -/
def Made (g : MultiLegOrderGroup ℚ) : Prop := Legs g.orderType g.legs

def Bounded (g : MultiLegOrderGroup ℚ) : Prop := ExposureBounded g.orderType g.legs

theorem generateLegId_ne (groupId : String) {m n : Nat} (smallM : m < 10) (smallN : n < 10) (different : m ≠ n) :
    generateLegId groupId m ≠ generateLegId groupId n := fun same =>
  different (generateLegId_injective smallM smallN same).2

theorem exclusive_fresh {x y : OrderLeg ℚ} (left : x.filledQuantity = 0) (right : y.filledQuantity = 0) :
    Exclusive x y :=
  ⟨⟨left.ge, .inl left⟩, ⟨right.ge, .inl right⟩, .inl left, fun some => absurd left some, fun some => absurd right some⟩

theorem oco_made {p : OcoParams ℚ} (sized : p.legAQuantity = p.legBQuantity → 0 ≤ p.legAQuantity) (groupId : String)
    (now : Nat) : (p.group groupId now).Made :=
  .oco ⟨rfl, rfl⟩ (generateLegId_ne groupId (by decide) (by decide) (by decide)) sized (exclusive_fresh rfl rfl)

theorem bracket_made (p : BracketParams ℚ) (groupId : String) (now : Nat) : (p.group groupId now).Made := by
  have distinct : [generateLegId groupId 0, generateLegId groupId 1, generateLegId groupId 2].Nodup := by
    simp [generateLegId_ne]
  exact .bracket ⟨rfl, rfl, rfl⟩ distinct ⟨rfl, rfl⟩ (exclusive_fresh rfl rfl) le_rfl le_rfl

end MultiLegOrderGroup

/-! ## Runs -/

namespace MultiLegOrderManager

open MultiLegOrderGroup

/-- A leg receives fills while it is at the exchange, and never more than its size. -/
def FillAllowed (m : MultiLegOrderManager ℚ) : MultiLegOp ℚ → Prop
  | .processLegFill legId fill _ _ => ∀ g leg, m.holder legId = some (g, leg) →
      (leg.status = .submitted ∨ leg.status = .partiallyFilled) ∧ 0 ≤ fill.quantity ∧
        leg.filledQuantity + fill.quantity ≤ leg.quantity
  | _ => True

/-- The legs of a pair fill one at a time, the exits of a bracket after its entry. A leg
    that was cancelled or filled is not linked to an exchange order again, and no OCO
    of a negative size is created. -/
def InTurn (m : MultiLegOrderManager ℚ) : MultiLegOp ℚ → Prop
  | .processLegFill legId _ _ _ => ∀ g leg, m.holder legId = some (g, leg) →
      (∀ l ∈ g.legs, g.orderType.sibling leg.role = some l.role → Whole l) ∧
        (leg.role = .stopLoss ∨ leg.role = .takeProfit → ∀ l ∈ g.legs, l.role = .entry → l.Complete)
  | .linkExchangeOrder legId _ _ => ∀ g leg, m.holder legId = some (g, leg) → ¬ leg.Closed
  | .createOco p _ _ => m.maxActiveGroups ≤ m.groups.size ∨ (p.legAQuantity = p.legBQuantity → 0 ≤ p.legAQuantity)
  | _ => True

def Made (m : MultiLegOrderManager ℚ) : Prop := ∀ id g, m.groups.get id = some g → g.Made

def WithinBounds (m : MultiLegOrderManager ℚ) : Prop := ∀ id g, m.groups.get id = some g → g.Bounded

variable {m : MultiLegOrderManager ℚ}

theorem apply_made {op : MultiLegOp ℚ} (made : m.Made) (allowed : m.FillAllowed op) (inTurn : m.InTurn op) :
    (m.apply op).Made := by
  intro id g' found
  rcases apply_get found with old | created | ⟨g, old, its, changes⟩
  · exact made id g' old
  · cases created with
    | oco p stamp now groupId =>
        rcases inTurn with full | sized
        · -- the new group was refused
          simp only [apply, createOco, ge_iff_le, full, if_true] at found
          exact made id _ found
        · exact oco_made sized groupId now
    | bracket p stamp now groupId valid => exact bracket_made p groupId now
    | linkedPair p stamp now groupId => exact .linkedPair _
  · cases changes with
    | link legId exchangeOrderId now =>
        refine (made id g old).settle (forall₂_updateFirst .refl fun leg here => ?_)
        exact OrderLeg.settles_link (inTurn g leg (holder_eq its old here)) exchangeOrderId now
    | fill legId fill exchangeTimestampNs now leg here =>
        obtain ⟨working, positive, within⟩ := allowed g leg (holder_eq its old here)
        obtain ⟨whole, entered⟩ := inTurn g leg (holder_eq its old here)
        have live : ¬ leg.Closed := by
          rcases working with submitted | partly
          · simp [OrderLeg.Closed, submitted]
          · simp [OrderLeg.Closed, partly]
        have sameType := react_orderType
          { g with legs := updateFirst (·.legId == legId) (fun _ => leg.fill fill exchangeTimestampNs now) g.legs }
          (leg.fill fill exchangeTimestampNs now) now
        unfold MultiLegOrderGroup.Made
        rw [show (g.fillLeg legId (leg.fill fill exchangeTimestampNs now) now).group.orderType = g.orderType from sameType]
        exact legs_fill (made id g old) here ⟨live, positive, within⟩ whole entered exchangeTimestampNs now
    | cancel groupId now live =>
        refine (made id g old).settle (List.forall₂_map_right_iff.2 (List.forall₂_same.2 fun l _ => ?_))
        exact OrderLeg.settles_cancelLeg l now

/-- In every run of allowed fills in which the legs fill in turn, no group fills more
    than it may. -/
theorem exposure_bounded (maxActiveGroups : Nat) {ops : List (MultiLegOp ℚ)}
    (allowed : Runs.Guarded apply FillAllowed (withConfig maxActiveGroups) ops)
    (inTurn : Runs.Guarded apply InTurn (withConfig maxActiveGroups) ops) :
    Runs.Visits apply WithinBounds (withConfig maxActiveGroups) ops := by
  have start : (withConfig maxActiveGroups : MultiLegOrderManager ℚ).Made := by
    intro id g found
    cases found
  have made := Runs.visits_of_guarded (fun m op made guarded => apply_made made guarded.1 guarded.2) start
    (allowed.and inTurn)
  exact made.mono fun m made id g found => (made id g found).bounded

theorem held_of {legId : String} {P : MultiLegOrderGroup ℚ → OrderLeg ℚ → Prop} [∀ g leg, Decidable (P g leg)]
    (held : (m.holder legId).all fun (g, leg) => P g leg) : ∀ g leg, m.holder legId = some (g, leg) → P g leg := by
  intro g leg found
  rw [found] at held
  simpa using held

end MultiLegOrderManager

/-! ## Two exits that fill -/

namespace TwoExits

open MultiLegOrderManager

private def long : BracketParams ℚ :=
  ⟨"BTC-USD", "kraken", .buy, .limit, 10, some 50000, 48000, none, 55000, none, .goodTillCancelled, false, some "b"⟩

private def lot (quantity price : ℚ) : ExecutionFill ℚ := ⟨"f", quantity, price, 0⟩

/-- Ten units are bought in two parts; both exits are at the exchange. -/
private def entered : List (MultiLegOp ℚ) :=
  [.createBracket long 1 1, .linkExchangeOrder "b-L00" "x0" 2, .processLegFill "b-L00" (lot 4 50000) none 3,
    .processLegFill "b-L00" (lot 6 50000) none 3, .linkExchangeOrder "b-L01" "x1" 4, .linkExchangeOrder "b-L02" "x2" 5]

private def amounts (ops : List (MultiLegOp ℚ)) : Option (MultiLegType × ℚ × ℚ × ℚ) :=
  (((withConfig 10).run ops).groups.get "b").map fun g =>
    (g.orderType, filledOn .stopLoss g.legs, filledOn .takeProfit g.legs, filledOn .entry g.legs)

/-- Four units are sold at the target and ten at the stop. -/
private def oversold : List (MultiLegOp ℚ) :=
  entered ++ [.processLegFill "b-L02" (lot 4 55000) none 6, .processLegFill "b-L01" (lot 10 48000) none 7]

theorem exits_exceed_entry :
    ¬ ∀ (maxActiveGroups : Nat) (ops : List (MultiLegOp ℚ)),
      Runs.Guarded apply FillAllowed (withConfig maxActiveGroups) ops →
        Runs.Visits apply WithinBounds (withConfig maxActiveGroups) ops := by
  intro all
  have visits := all 10 oversold ⟨trivial, trivial, held_of (by decide +kernel), held_of (by decide +kernel), trivial,
    trivial, held_of (by decide +kernel), held_of (by decide +kernel), trivial⟩
  have final := Runs.visits_iff_take.1 visits 8
  have sold : amounts oversold = some (.bracket, 10, 4, 10) := by decide +kernel
  obtain ⟨g, found, amounts⟩ := Option.map_eq_some_iff.1 sold
  obtain ⟨bracket, stop, target, entry⟩ := by simpa only [Prod.mk.injEq] using amounts
  have bounded := final "b" g found
  unfold MultiLegOrderGroup.Bounded at bounded
  rw [bracket] at bounded
  simp only [ExposureBounded, stop, target, entry] at bounded
  norm_num at bounded

private def sold : List (MultiLegOp ℚ) :=
  entered ++ [.processLegFill "b-L02" (lot 4 55000) none 6, .processLegFill "b-L02" (lot 6 55000) none 7]

/-- The bound holds in every state; at the end the stop is cancelled. -/
theorem one_exit_bounded :
    Runs.Visits apply WithinBounds (withConfig 10) sold ∧ amounts sold = some (.bracket, 0, 10, 10) ∧
      (((withConfig 10).run sold).groups.get "b").map (fun g => g.legs.map (·.status)) =
        some [.filled, .cancelled, .filled] := by
  refine ⟨@exposure_bounded 10 sold ?_ ?_, by decide +kernel, by decide +kernel⟩
  · exact ⟨trivial, trivial, held_of (by decide +kernel), held_of (by decide +kernel), trivial, trivial,
      held_of (by decide +kernel), held_of (by decide +kernel), trivial⟩
  · exact ⟨trivial, held_of (by decide +kernel), held_of (by decide +kernel), held_of (by decide +kernel),
      held_of (by decide +kernel), held_of (by decide +kernel), held_of (by decide +kernel), held_of (by decide +kernel),
      trivial⟩

end TwoExits

end ExecutionHandler
