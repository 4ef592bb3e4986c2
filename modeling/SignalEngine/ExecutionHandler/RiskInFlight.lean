import SignalEngine.ExecutionHandler.RiskControls
import SignalEngine.Lib.Runs
import SignalEngine.Lib.UpdateFirst
import Mathlib.Algebra.Order.BigOperators.Group.List
import Mathlib.Data.Finset.Card

/-! # Position limits with orders in flight

The check looks at filled positions only. As long as every order that passes it
also fits beside the orders in flight, and no fill drops a rest that the orders in
flight counted on, the positions stay within the limits. Two orders that are
checked before either is filled can pass them together.
-/

namespace ExecutionHandler

/-! ## What is in flight -/

namespace Flow

def buys (key : PositionKey) : Flow → ℚ
  | .working o left => if o.key = key ∧ o.isBuy = true then left else 0
  | .updating u .position => if u.key = key then max u.fillQuantity 0 else 0
  | _ => 0

def sells (key : PositionKey) : Flow → ℚ
  | .working o left => if o.key = key ∧ o.isBuy = false then left else 0
  | .updating u .position => if u.key = key then max (-u.fillQuantity) 0 else 0
  | _ => 0

/-- The position the flow can still change. -/
def touches : Flow → Option PositionKey
  | .working o left => if 0 < left then some o.key else none
  | .updating u .position => some u.key
  | _ => none

def Sound : Flow → Prop
  | .checking o _ => 0 < o.quantity
  | .working _ left => 0 ≤ left
  | _ => True

theorem buys_nonneg {f : Flow} (sound : f.Sound) (key : PositionKey) : 0 ≤ f.buys key := by
  unfold buys
  split
  · split
    · exact sound
    · exact le_refl 0
  · split
    · exact le_max_right _ _
    · exact le_refl 0
  · exact le_refl 0

theorem sells_nonneg {f : Flow} (sound : f.Sound) (key : PositionKey) : 0 ≤ f.sells key := by
  unfold sells
  split
  · split
    · exact sound
    · exact le_refl 0
  · split
    · exact le_max_right _ _
    · exact le_refl 0
  · exact le_refl 0

theorem untouched {f : Flow} (sound : f.Sound) {key : PositionKey} (away : f.touches ≠ some key) :
    f.buys key = 0 ∧ f.sells key = 0 := by
  cases f with
  | checking o stage => exact ⟨rfl, rfl⟩
  | ended => exact ⟨rfl, rfl⟩
  | working o left =>
      rcases lt_or_eq_of_le (show 0 ≤ left from sound) with some | none
      · have other : o.key ≠ key := by
          rintro rfl
          exact away (if_pos some)
        simp [buys, sells, other]
      · subst none
        simp [buys, sells]
  | updating u stage =>
      cases stage with
      | position =>
          have other : u.key ≠ key := by
            rintro rfl
            exact away rfl
          simp [buys, sells, other]
      | outcome => exact ⟨rfl, rfl⟩
      | equity => exact ⟨rfl, rfl⟩

end Flow

namespace Desk

def quantityOf (d : Desk) (key : PositionKey) : ℚ := d.manager.positionLimits.quantityOf key

def bought (d : Desk) (key : PositionKey) : ℚ := (d.flows.map (Flow.buys key)).sum

def sold (d : Desk) (key : PositionKey) : ℚ := (d.flows.map (Flow.sells key)).sum

def limits (d : Desk) : PositionLimits := d.manager.positionLimits.limits

def openKeys (d : Desk) : Finset PositionKey :=
  (d.manager.positionLimits.positions.keys.filter fun key =>
    (d.manager.positionLimits.positions.get key).any fun p => epsilon < |p.1|).toFinset

/-- The positions that are open or can be opened by what is in flight. -/
def exposed (d : Desk) : Finset PositionKey := d.openKeys ∪ (d.flows.filterMap Flow.touches).toFinset

/-- The position is in the books or something in flight changes it. -/
def Touched (d : Desk) (key : PositionKey) : Prop :=
  (d.manager.positionLimits.positions.get key).isSome = true ∨ ∃ f ∈ d.flows, f.touches = some key

/-- The limits hold however much of what is in flight gets filled. -/
structure Covered (d : Desk) : Prop where
  sound : ∀ f ∈ d.flows, f.Sound
  above : ∀ key, d.Touched key → d.quantityOf key + d.bought key ≤ d.limits.maxPositionSize
  below : ∀ key, d.Touched key → -d.limits.maxPositionSize ≤ d.quantityOf key - d.sold key
  few : d.exposed.card ≤ d.limits.maxOpenPositions

def Within (d : Desk) : Prop :=
  (∀ key qty value, d.manager.positionLimits.positions.get key = some (qty, value) →
    |qty| ≤ d.limits.maxPositionSize) ∧
  d.manager.positionLimits.openCount ≤ d.limits.maxOpenPositions

theorem openCount_eq_card (d : Desk) : d.manager.positionLimits.openCount = d.openKeys.card := by
  have nodup := d.manager.positionLimits.positions.nodup
  rw [openKeys, List.toFinset_card_of_nodup (nodup.filter _), PositionLimitChecker.openCount, Registry.count,
    List.countP_eq_length_filter]

variable {d : Desk}

theorem bought_nonneg (sound : ∀ f ∈ d.flows, f.Sound) (key : PositionKey) : 0 ≤ d.bought key := by
  apply List.sum_nonneg
  intro x member
  obtain ⟨f, inFlows, rfl⟩ := List.mem_map.1 member
  exact Flow.buys_nonneg (sound f inFlows) key

theorem sold_nonneg (sound : ∀ f ∈ d.flows, f.Sound) (key : PositionKey) : 0 ≤ d.sold key := by
  apply List.sum_nonneg
  intro x member
  obtain ⟨f, inFlows, rfl⟩ := List.mem_map.1 member
  exact Flow.sells_nonneg (sound f inFlows) key

theorem Covered.within (covered : d.Covered) : d.Within := by
  constructor
  · intro key qty value found
    have touched : d.Touched key := .inl (by rw [found]; rfl)
    have quantity : d.quantityOf key = qty := by
      simp [quantityOf, PositionLimitChecker.quantityOf, found]
    have above := covered.above key touched
    have below := covered.below key touched
    have bought := bought_nonneg covered.sound key
    have sold := sold_nonneg covered.sound key
    rw [quantity] at above below
    rw [abs_le]
    constructor
    · linarith
    · linarith
  · rw [openCount_eq_card]
    exact (Finset.card_le_card Finset.subset_union_left).trans covered.few

theorem Within.covered (within : d.Within) (idle : d.flows = []) : d.Covered := by
  have touched (key : PositionKey) (touched : d.Touched key) :
      |d.quantityOf key| ≤ d.limits.maxPositionSize := by
    rcases touched with booked | ⟨f, member, -⟩
    · obtain ⟨⟨qty, value⟩, found⟩ := Option.isSome_iff_exists.1 booked
      have quantity : d.quantityOf key = qty := by
        simp [quantityOf, PositionLimitChecker.quantityOf, found]
      rw [quantity]
      exact within.1 key qty value found
    · simp [idle] at member
  refine ⟨by simp [idle], ?_, ?_, ?_⟩
  · intro key here
    simpa [bought, idle] using (abs_le.1 (touched key here)).2
  · intro key here
    simpa [sold, idle] using (abs_le.1 (touched key here)).1
  · have nothing : d.exposed = d.openKeys := by simp [exposed, idle]
    rw [nothing, ← openCount_eq_card]
    exact within.2

/-! ## What a step changes -/

theorem Covered.shrink {d' : Desk} (covered : d.Covered) (limitsSame : d'.limits = d.limits)
    (positions : d'.manager.positionLimits.positions = d.manager.positionLimits.positions)
    (sound : ∀ f ∈ d'.flows, f.Sound)
    (touches : ∀ key, (∃ f ∈ d'.flows, f.touches = some key) → ∃ f ∈ d.flows, f.touches = some key)
    (boughtLess : ∀ key, d'.bought key ≤ d.bought key) (soldLess : ∀ key, d'.sold key ≤ d.sold key) :
    d'.Covered := by
  have touched (key : PositionKey) : d'.Touched key → d.Touched key := by
    rintro (booked | flying)
    · exact .inl (positions ▸ booked)
    · exact .inr (touches key flying)
  have quantity (key : PositionKey) : d'.quantityOf key = d.quantityOf key := by
    simp only [quantityOf, PositionLimitChecker.quantityOf, positions]
  refine ⟨sound, ?_, ?_, ?_⟩
  · intro key here
    rw [quantity, limitsSame]
    linarith [covered.above key (touched key here), boughtLess key]
  · intro key here
    rw [quantity, limitsSame]
    linarith [covered.below key (touched key here), soldLess key]
  · rw [limitsSame]
    refine (Finset.card_le_card ?_).trans covered.few
    have openSame : d'.openKeys = d.openKeys := by simp only [openKeys, positions]
    rw [exposed, exposed, openSame]
    apply Finset.union_subset_union_right
    intro key member
    simp only [List.mem_toFinset, List.mem_filterMap] at member ⊢
    exact touches key member

theorem sound_set {flows : List Flow} {i : Nat} {f : Flow} (sound : ∀ f ∈ flows, f.Sound) (new : f.Sound) :
    ∀ f' ∈ flows.set i f, f'.Sound := by
  intro f' member
  rcases List.mem_or_eq_of_mem_set member with old | rfl
  · exact sound f' old
  · exact new

theorem Covered.set {d' : Desk} (covered : d.Covered) {i : Nat} {f : Flow} (f' : Flow) (here : d.flows[i]? = some f)
    (flows : d'.flows = d.flows.set i f') (limitsSame : d'.limits = d.limits)
    (positions : d'.manager.positionLimits.positions = d.manager.positionLimits.positions) (sound : f'.Sound)
    (idle : f'.touches = none) : d'.Covered := by
  have nothing (key : PositionKey) := @Flow.untouched f' sound key (by rw [idle]; rintro ⟨⟩)
  have before := covered.sound f (List.mem_of_getElem? here)
  refine covered.shrink limitsSame positions (flows ▸ sound_set covered.sound sound) ?_ ?_ ?_
  · rintro key ⟨f'', member, touches⟩
    rw [flows] at member
    rcases List.mem_or_eq_of_mem_set member with old | rfl
    · exact ⟨f'', old, touches⟩
    · rw [idle] at touches
      cases touches
  · intro key
    rw [bought, flows, sum_map_set _ here, (nothing key).1]
    have less := Flow.buys_nonneg before key
    rw [bought]
    linarith
  · intro key
    rw [sold, flows, sum_map_set _ here, (nothing key).2]
    have less := Flow.sells_nonneg before key
    rw [sold]
    linarith

/-! ## The condition -/

/-- An order that fits the filled positions also fits beside the orders in flight. -/
def FitsInFlight (d : Desk) (o : RiskOrder) : Prop :=
  (|d.quantityOf o.key + o.signed o.quantity| ≤ d.limits.maxPositionSize →
    if o.isBuy then d.quantityOf o.key + d.bought o.key + o.quantity ≤ d.limits.maxPositionSize
    else -d.limits.maxPositionSize ≤ d.quantityOf o.key - d.sold o.key - o.quantity) ∧
  ((d.manager.positionLimits.wouldOpenNew o = true → d.openKeys.card < d.limits.maxOpenPositions) →
    (insert o.key d.exposed).card ≤ d.limits.maxOpenPositions)

/-- A rest that is dropped after a fill leaves room for what is still in flight. -/
def DropsInRoom (d : Desk) (u : FillReport) : Prop :=
  |d.quantityOf u.key + u.fillQuantity| < epsilon →
    d.bought u.key - max u.fillQuantity 0 ≤ d.limits.maxPositionSize ∧
      d.sold u.key - max (-u.fillQuantity) 0 ≤ d.limits.maxPositionSize

instance (d : Desk) (o : RiskOrder) : Decidable (d.FitsInFlight o) := by
  unfold FitsInFlight
  infer_instance

instance (d : Desk) (u : FillReport) : Decidable (d.DropsInRoom u) := by
  unfold DropsInRoom
  infer_instance

/-- What a run may do where a flow checks the limits or books a fill. -/
def roomInFlight (d : Desk) : DeskEvent → Bool
  | .resume i _ _ =>
      match d.flows[i]? with
      | some (.checking o .limits) => d.FitsInFlight o
      | some (.updating u .position) => d.DropsInRoom u
      | _ => true
  | _ => true

/-! ## The check -/

theorem checkOrder_ok {c : PositionLimitChecker} {k : KillSwitch} {order : List PositionKey} {o : RiskOrder}
    (passed : c.checkOrder k order o = .ok ()) :
    |c.quantityOf o.key + o.signed o.quantity| ≤ c.limits.maxPositionSize ∧
      (c.wouldOpenNew o = true → c.openCount < c.limits.maxOpenPositions) := by
  unfold PositionLimitChecker.checkOrder at passed
  simp only [bind, Except.bind, throw, throwThe, MonadExceptOf.throw, pure, Except.pure] at passed
  split at passed
  · cases passed
  split at passed
  · cases passed
  split at passed
  · cases passed
  split at passed
  · cases passed
  next size =>
    split at passed
    · cases passed
    split at passed
    · cases passed
    split at passed
    · cases passed
    next few =>
      refine ⟨not_lt.1 size, fun opens => ?_⟩
      simpa [opens] using few

theorem checkStage_positionLimits (stage : CheckStage) (m : RiskManager) (k : KillSwitch) (o : RiskOrder)
    (now : UInt64) (order : List PositionKey) :
    (stage.run m k o now order).1.positionLimits = m.positionLimits := by
  cases stage with
  | killSwitch => rfl
  | breaker => rfl
  | attempt => rfl
  | limits => rfl

theorem Covered.untouched (covered : d.Covered) {key : PositionKey} (away : ¬ d.Touched key) :
    d.quantityOf key = 0 ∧ d.bought key = 0 ∧ d.sold key = 0 := by
  have unbooked : d.manager.positionLimits.positions.get key = none := by
    rw [← Option.not_isSome_iff_eq_none]
    exact fun booked => away (.inl booked)
  have nothing : ∀ f ∈ d.flows, f.buys key = 0 ∧ f.sells key = 0 := fun f member =>
    Flow.untouched (covered.sound f member) fun touches => away (.inr ⟨f, member, touches⟩)
  refine ⟨?_, ?_, ?_⟩
  · simp [quantityOf, PositionLimitChecker.quantityOf, unbooked]
  · apply List.sum_eq_zero
    intro x member
    obtain ⟨f, inFlows, rfl⟩ := List.mem_map.1 member
    exact (nothing f inFlows).1
  · apply List.sum_eq_zero
    intro x member
    obtain ⟨f, inFlows, rfl⟩ := List.mem_map.1 member
    exact (nothing f inFlows).2

theorem Covered.bounds {d : Desk} (covered : d.Covered) (nonneg : 0 ≤ d.limits.maxPositionSize)
    (key : PositionKey) : d.quantityOf key + d.bought key ≤ d.limits.maxPositionSize ∧
      -d.limits.maxPositionSize ≤ d.quantityOf key - d.sold key := by
  by_cases touched : d.Touched key
  · exact ⟨covered.above key touched, covered.below key touched⟩
  · obtain ⟨quantity, bought, sold⟩ := covered.untouched touched
    rw [quantity, bought, sold]
    constructor
    · simpa using nonneg
    · simpa using nonneg

theorem Covered.send (covered : d.Covered) {i : Nat} {o : RiskOrder} {stage : CheckStage}
    (here : d.flows[i]? = some (.checking o stage))
    (size : |d.quantityOf o.key + o.signed o.quantity| ≤ d.limits.maxPositionSize)
    (fits : if o.isBuy then d.quantityOf o.key + d.bought o.key + o.quantity ≤ d.limits.maxPositionSize else -d.limits.maxPositionSize ≤ d.quantityOf o.key - d.sold o.key - o.quantity)
    (few : (insert o.key d.exposed).card ≤ d.limits.maxOpenPositions) :
    { d with flows := d.flows.set i (.working o o.quantity) : Desk }.Covered := by
  have nonneg : 0 ≤ d.limits.maxPositionSize := (abs_nonneg _).trans size
  have positive : 0 < o.quantity := covered.sound _ (List.mem_of_getElem? here)
  have bounds := covered.bounds nonneg
  refine ⟨sound_set covered.sound positive.le, ?_, ?_, ?_⟩
  · intro key _
    change d.quantityOf key + ((d.flows.set i (.working o o.quantity)).map (Flow.buys key)).sum ≤ _
    rw [sum_map_set _ here]
    simp only [Flow.buys]
    split
    next same =>
      obtain ⟨rfl, buy⟩ := same
      rw [if_pos buy] at fits
      rw [bought] at fits
      change _ ≤ d.limits.maxPositionSize
      linarith
    next =>
      have before := (bounds key).1
      rw [bought] at before
      change _ ≤ d.limits.maxPositionSize
      linarith
  · intro key _
    change _ ≤ d.quantityOf key - ((d.flows.set i (.working o o.quantity)).map (Flow.sells key)).sum
    rw [sum_map_set _ here]
    simp only [Flow.sells]
    split
    next same =>
      obtain ⟨rfl, sell⟩ := same
      rw [if_neg (by rw [sell]; exact Bool.false_ne_true)] at fits
      rw [sold] at fits
      change -d.limits.maxPositionSize ≤ _
      linarith
    next =>
      have before := (bounds key).2
      rw [sold] at before
      change -d.limits.maxPositionSize ≤ _
      linarith
  · refine (Finset.card_le_card ?_).trans few
    intro key member
    rw [Finset.mem_insert]
    rcases Finset.mem_union.1 member with isOpen | flying
    · exact .inr (Finset.mem_union_left _ isOpen)
    · simp only [List.mem_toFinset, List.mem_filterMap] at flying
      obtain ⟨f, inFlows, touches⟩ := flying
      rcases List.mem_or_eq_of_mem_set inFlows with old | rfl
      · exact .inr (Finset.mem_union_right _ (by simpa using ⟨f, old, touches⟩))
      · simp only [Flow.touches, if_pos positive, Option.some.injEq] at touches
        exact .inl touches.symm

theorem Covered.resumeCheck (covered : d.Covered) {i : Nat} {o : RiskOrder} {stage : CheckStage} {now : UInt64}
    {order : List PositionKey} (here : d.flows[i]? = some (.checking o stage))
    (room : d.roomInFlight (.resume i now order) = true) : (d.resumeCheck i o stage now order).Covered := by
  have positive : 0 < o.quantity := covered.sound _ (List.mem_of_getElem? here)
  have same := checkStage_positionLimits stage d.manager d.killSwitch o now order
  have limitsSame : (d.resumeCheck i o stage now order).limits = d.limits := congrArg PositionLimitChecker.limits same
  have positions : (d.resumeCheck i o stage now order).manager.positionLimits.positions =
      d.manager.positionLimits.positions := congrArg PositionLimitChecker.positions same
  cases answer : (stage.run d.manager d.killSwitch o now order).2 with
  | error e =>
      refine covered.set .ended here ?_ limitsSame positions trivial rfl
      simp only [Desk.resumeCheck, answer]
  | ok _ =>
      cases next : stage.next with
      | some later =>
          refine covered.set (.checking o later) here ?_ limitsSame positions positive rfl
          simp only [Desk.resumeCheck, answer, next]
      | none =>
          obtain rfl : stage = .limits := by
            cases stage with
            | limits => rfl
            | killSwitch => cases next
            | breaker => cases next
            | attempt => cases next
          have passed : d.manager.positionLimits.checkOrder d.killSwitch order o = .ok () := by
            simp only [CheckStage.run] at answer
            cases checked : d.manager.positionLimits.checkOrder d.killSwitch order o with
            | error e =>
                rw [checked] at answer
                cases answer
            | ok _ => rfl
          obtain ⟨size, few⟩ := checkOrder_ok passed
          simp only [roomInFlight, here, decide_eq_true_eq] at room
          have result : d.resumeCheck i o .limits now order =
              { d with flows := d.flows.set i (.working o o.quantity) } := by
            simp only [Desk.resumeCheck, answer, CheckStage.next]
            rfl
          rw [result]
          refine covered.send here size (room.1 size) (room.2 fun opens => ?_)
          rw [← openCount_eq_card]
          exact few opens

/-! ## Fills -/

theorem quantityOf_updatePosition (c : PositionLimitChecker) (key key' : PositionKey) (quantity price : ℚ) :
    (c.updatePosition key quantity price).quantityOf key' =
      if key' = key then
        if |c.quantityOf key + quantity| < epsilon then 0 else c.quantityOf key + quantity
      else c.quantityOf key' := by
  by_cases dust : |c.quantityOf key + quantity| < epsilon
  · have positions : (c.updatePosition key quantity price).positions = c.positions.erase key := if_pos dust
    rw [PositionLimitChecker.quantityOf, positions, Registry.get_erase, if_pos dust]
    by_cases same : key' = key
    · simp [same]
    · rw [if_neg same, if_neg same]
      rfl
  · have positions : (c.updatePosition key quantity price).positions =
        c.positions.insert key (c.quantityOf key + quantity, |c.quantityOf key + quantity| * price) := if_neg dust
    rw [PositionLimitChecker.quantityOf, positions, Registry.get_insert, if_neg dust]
    by_cases same : key' = key
    · simp [same]
    · rw [if_neg same, if_neg same]
      rfl

theorem get_updatePosition {c : PositionLimitChecker} {key key' : PositionKey} {quantity price : ℚ}
    (other : key' ≠ key) :
    (c.updatePosition key quantity price).positions.get key' = c.positions.get key' := by
  simp only [PositionLimitChecker.updatePosition]
  split
  · rw [Registry.get_erase, if_neg other]
  · rw [Registry.get_insert, if_neg other]

theorem Covered.book (covered : d.Covered) {i : Nat} {u : FillReport}
    (here : d.flows[i]? = some (.updating u .position)) (room : d.DropsInRoom u) (now : UInt64) :
    (d.resumeUpdate i u .position now).Covered := by
  have member := List.mem_of_getElem? here
  have touched : d.Touched u.key := .inr ⟨_, member, rfl⟩
  have above := covered.above u.key touched
  have below := covered.below u.key touched
  have flows : (d.resumeUpdate i u .position now).flows = d.flows.set i (.updating u .outcome) := rfl
  have quantity (key : PositionKey) : (d.resumeUpdate i u .position now).quantityOf key =
      if key = u.key then
        if |d.quantityOf u.key + u.fillQuantity| < epsilon then 0 else d.quantityOf u.key + u.fillQuantity
      else d.quantityOf key := quantityOf_updatePosition _ _ _ _ _
  have bought' (key : PositionKey) : (d.resumeUpdate i u .position now).bought key =
      d.bought key - if u.key = key then max u.fillQuantity 0 else 0 := by
    rw [bought, flows, sum_map_set _ here, bought]
    simp only [Flow.buys, add_zero]
  have sold' (key : PositionKey) : (d.resumeUpdate i u .position now).sold key =
      d.sold key - if u.key = key then max (-u.fillQuantity) 0 else 0 := by
    rw [sold, flows, sum_map_set _ here, sold]
    simp only [Flow.sells, add_zero]
  -- the sign of the fill decides which side it came from
  have split : u.fillQuantity = max u.fillQuantity 0 - max (-u.fillQuantity) 0 := by
    rcases le_total 0 u.fillQuantity with buy | sell
    · rw [max_eq_left buy, max_eq_right (by linarith)]
      ring
    · rw [max_eq_right sell, max_eq_left (by linarith)]
      ring
  have buyNonneg : 0 ≤ max u.fillQuantity 0 := le_max_right _ _
  have sellNonneg : 0 ≤ max (-u.fillQuantity) 0 := le_max_right _ _
  have touchedBefore {key : PositionKey} (other : key ≠ u.key)
      (now' : (d.resumeUpdate i u .position now).Touched key) : d.Touched key := by
    rcases now' with booked | ⟨f, inFlows, touches⟩
    · refine .inl ?_
      rw [← get_updatePosition other]
      exact booked
    · rcases List.mem_or_eq_of_mem_set inFlows with old | rfl
      · exact .inr ⟨f, old, touches⟩
      · cases touches
  refine ⟨sound_set covered.sound trivial, ?_, ?_, ?_⟩
  · intro key touchedNow
    change _ ≤ d.limits.maxPositionSize
    rw [quantity, bought']
    by_cases same : key = u.key
    · subst same
      rw [if_pos rfl, if_pos rfl]
      by_cases dust : |d.quantityOf u.key + u.fillQuantity| < epsilon
      · rw [if_pos dust]
        linarith [(room dust).1]
      · rw [if_neg dust]
        linarith
    · rw [if_neg same, if_neg (Ne.symm same)]
      linarith [covered.above key (touchedBefore same touchedNow)]
  · intro key touchedNow
    change -d.limits.maxPositionSize ≤ _
    rw [quantity, sold']
    by_cases same : key = u.key
    · subst same
      rw [if_pos rfl, if_pos rfl]
      by_cases dust : |d.quantityOf u.key + u.fillQuantity| < epsilon
      · rw [if_pos dust]
        linarith [(room dust).2]
      · rw [if_neg dust]
        linarith
    · rw [if_neg same, if_neg (Ne.symm same)]
      linarith [covered.below key (touchedBefore same touchedNow)]
  · refine (Finset.card_le_card ?_).trans covered.few
    intro key inExposed
    by_cases same : key = u.key
    · subst same
      exact Finset.mem_union_right _ (by simpa using ⟨_, member, rfl⟩)
    · rcases Finset.mem_union.1 inExposed with isOpen | flying
      · apply Finset.mem_union_left
        simp only [openKeys, List.mem_toFinset, List.mem_filter, Registry.mem_keys] at isOpen ⊢
        rwa [show (d.resumeUpdate i u .position now).manager.positionLimits.positions.get key =
          d.manager.positionLimits.positions.get key from get_updatePosition same] at isOpen
      · simp only [List.mem_toFinset, List.mem_filterMap] at flying
        obtain ⟨f, inFlows, touches⟩ := flying
        rcases List.mem_or_eq_of_mem_set inFlows with old | rfl
        · exact Finset.mem_union_right _ (by simpa using ⟨f, old, touches⟩)
        · cases touches

theorem Covered.resumeUpdate (covered : d.Covered) {i : Nat} {u : FillReport} {stage : UpdateStage} {now : UInt64}
    {order : List PositionKey} (here : d.flows[i]? = some (.updating u stage))
    (room : d.roomInFlight (.resume i now order) = true) : (d.resumeUpdate i u stage now).Covered := by
  cases stage with
  | position =>
      simp only [roomInFlight, here, decide_eq_true_eq] at room
      exact covered.book here room now
  | outcome => exact covered.set (.updating u .equity) here rfl rfl rfl trivial rfl
  | equity => exact covered.set .ended here rfl rfl rfl trivial rfl

/-- A fill is passed on: what was left of the order is split. -/
theorem Covered.fill (covered : d.Covered) {i : Nat} {o : RiskOrder} {left quantity newEquity : ℚ} {success : Bool}
    (here : d.flows[i]? = some (.working o left)) (positive : 0 < quantity) (enough : quantity ≤ left) :
    { d with
      flows := d.flows.set i (.working o (left - quantity)) ++
        [.updating ⟨o.key, o.signed quantity, o.price, newEquity, success⟩ .position] : Desk }.Covered := by
  have member := List.mem_of_getElem? here
  refine covered.shrink rfl rfl ?_ ?_ ?_ ?_
  · intro f inFlows
    rcases List.mem_append.1 inFlows with old | new
    · exact sound_set covered.sound (f := .working o (left - quantity)) (by simpa [Flow.Sound] using enough) f old
    · obtain rfl := List.mem_singleton.1 new
      trivial
  · rintro key ⟨f, inFlows, touches⟩
    have already : Flow.touches (.working o left) = some o.key := if_pos (positive.trans_le enough)
    rcases List.mem_append.1 inFlows with old | new
    · rcases List.mem_or_eq_of_mem_set old with older | rfl
      · exact ⟨f, older, touches⟩
      · simp only [Flow.touches] at touches
        split at touches
        · exact ⟨_, member, already.trans touches⟩
        · cases touches
    · obtain rfl := List.mem_singleton.1 new
      exact ⟨_, member, already.trans touches⟩
  · intro key
    simp only [bought, List.map_append, List.sum_append, sum_map_set _ here, Flow.buys, List.map_cons, List.map_nil,
      List.sum_cons, List.sum_nil, RiskOrder.signed]
    by_cases same : o.key = key
    · cases side : o.isBuy with
      | true => simp [same, max_eq_left positive.le]
      | false => simp [same, max_eq_right (neg_nonpos.2 positive.le)]
    · simp [same]
  · intro key
    simp only [sold, List.map_append, List.sum_append, sum_map_set _ here, Flow.sells, List.map_cons, List.map_nil,
      List.sum_cons, List.sum_nil, RiskOrder.signed]
    by_cases same : o.key = key
    · cases side : o.isBuy with
      | true => simp [same, max_eq_right (neg_nonpos.2 positive.le)]
      | false => simp [same, max_eq_left positive.le]
    · simp [same]

/-! ## Runs -/

theorem step_covered (d : Desk) (e : DeskEvent) (covered : d.Covered) (room : d.roomInFlight e = true) :
    (d.step e).Covered := by
  cases e with
  | submit o =>
      simp only [step]
      split
      next positive =>
        refine covered.shrink rfl rfl ?_ ?_ ?_ ?_
        · intro f member
          rcases List.mem_append.1 member with old | new
          · exact covered.sound f old
          · obtain rfl := List.mem_singleton.1 new
            exact positive
        · rintro key ⟨f, member, touches⟩
          rcases List.mem_append.1 member with old | new
          · exact ⟨f, old, touches⟩
          · obtain rfl := List.mem_singleton.1 new
            cases touches
        · intro key
          simp [bought, Flow.buys]
        · intro key
          simp [sold, Flow.sells]
      · exact covered
  | resume i now order =>
      simp only [step]
      split
      next o stage here => exact covered.resumeCheck here room
      next u stage here => exact covered.resumeUpdate here room
      · exact covered
  | fill i quantity newEquity success =>
      simp only [step]
      split
      next o left here =>
        split
        next within => exact covered.fill here within.1 within.2
        · exact covered
      · exact covered
  | finish i =>
      simp only [step]
      split
      next o left here => exact covered.set .ended here rfl rfl rfl trivial rfl
      · exact covered

/-- A run in which every order that passes the check has room beside the orders in
    flight keeps the positions within the limits, whatever the flows do between
    the calls of one another. -/
theorem positions_within_limits (start : d.Within) (idle : d.flows = []) {events : List DeskEvent}
    (room : Runs.Guarded step (fun d e => roomInFlight d e = true) d events) : Runs.Visits step Within d events :=
  (Runs.visits_of_guarded step_covered (start.covered idle) room).mono fun _ covered => covered.within

end Desk

/-! ## Two orders at once -/

namespace Overlap

open Desk

private def limits : PositionLimits := ⟨10, 1000, 1000, 1, 10, 1000⟩

private def breaker : CircuitBreaker where
  config := ⟨1 / 20, 10000, 10, 300, 5, 60⟩
  highWaterMark := 0
  currentEquity := 0
  dailyPnl := 0
  dayStartEquity := 0
  ordersLastSecond := 0
  ordersLastMinute := 0
  secondWindowStart := 0
  minuteWindowStart := 0
  consecutiveFailures := 0
  pausedUntil := 0
  tripped := none

private def desk : Desk := ⟨⟨false, .manual⟩, ⟨⟨limits, .empty, .empty⟩, breaker⟩, []⟩

private def btc : PositionKey := ("BTC-USD", "kraken")

private def eth : PositionKey := ("ETH-USD", "kraken")

private def checked (i : Nat) (order : List PositionKey) : List DeskEvent := List.replicate 4 (.resume i 1 order)

private def overlap (first second : PositionKey) : List DeskEvent :=
  [.submit ⟨first, 6, 1, true⟩, .submit ⟨second, 6, 1, true⟩] ++ checked 0 [first] ++ checked 1 [second] ++
    [.fill 0 6 0 true, .fill 1 6 0 true, .resume 2 1 [], .resume 3 1 []]

/-- Two orders for 6 each pass a limit of 10 together, and two orders in different
    symbols open two positions where one is allowed. -/
theorem overlapping_orders_overshoot :
    desk.Within ∧ desk.flows = [] ∧
      (Runs.run step desk (overlap btc btc)).quantityOf btc = 12 ∧ limits.maxPositionSize = 10 ∧
      (Runs.run step desk (overlap btc eth)).manager.positionLimits.openCount = 2 ∧
      limits.maxOpenPositions = 1 := by
  refine ⟨⟨(fun _ _ _ found => nomatch found), Nat.zero_le _⟩, rfl, ?_⟩
  decide +kernel

/-- One after the other: the second order is for what is left. -/
private def inTurn : List DeskEvent :=
  [.submit ⟨btc, 6, 1, true⟩] ++ checked 0 [btc] ++ [.fill 0 6 0 true, .resume 1 1 []] ++
    [.submit ⟨btc, 4, 1, true⟩] ++ checked 2 [btc] ++ [.fill 2 4 0 true, .resume 3 1 []]

theorem in_turn_within : (Runs.run step desk inTurn).Within ∧ (Runs.run step desk inTurn).quantityOf btc = 10 := by
  have start : desk.Within := ⟨(fun _ _ _ found => nomatch found), Nat.zero_le _⟩
  have room : Runs.Guarded step (fun d e => roomInFlight d e = true) desk inTurn := by
    decide +kernel
  have visits := positions_within_limits start rfl room
  have last := Runs.visits_iff_take.1 visits inTurn.length
  rw [List.take_length] at last
  exact ⟨last, by decide +kernel⟩

end Overlap

end ExecutionHandler
