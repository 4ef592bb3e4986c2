import SignalEngine.RebalancerCore.Planner
import SignalEngine.RebalancerCore.Exposure
import SignalEngine.BrokerAdapters.DecimalRounding

/-! # Sizes of planned trades

A quantity `q` at price `P` is worth `q * P / 10^18`, floored. The lemmas bound
how far a leg of a trade moves that value: never past the target it was sized
for, whatever the venue's rounding and the common factor took off it.
-/

open BrokerAdapters Outcome Text

namespace RebalancerCore

/-- What a quantity is worth at a price, all in units of `10^-18`. -/
def valueAt (q price : Int) : Int := q * price / 10 ^ maxScale

def Between (a b v : Int) : Prop := min a b ≤ v ∧ v ≤ max a b

theorem mul_valueAt {q price v : Dec} (h : DecMath.mul q price = .ok v) :
    v.atto = valueAt q.atto price.atto := DecMath.mul_ok h

theorem valueAt_mono {p q price : Int} (nonneg : 0 ≤ price) (le : p ≤ q) :
    valueAt p price ≤ valueAt q price :=
  Int.ediv_le_ediv (Dec.ten_pow_pos _) (Int.mul_le_mul_of_nonneg_right le nonneg)

@[simp] theorem valueAt_zero (price : Int) : valueAt 0 price = 0 := by simp [valueAt]

theorem valueAt_add_le {q x price n : Int} (worth : x * price ≤ n * 10 ^ maxScale) :
    valueAt (q + x) price ≤ valueAt q price + n := by
  unfold valueAt
  rw [← Int.add_mul_ediv_right _ _ (Dec.ten_pow_pos _).ne']
  apply Int.ediv_le_ediv (Dec.ten_pow_pos _)
  rw [add_mul]
  omega

theorem le_valueAt_sub {q x price n : Int} (worth : x * price ≤ n * 10 ^ maxScale) :
    valueAt q price - n ≤ valueAt (q - x) price := by
  have back := valueAt_add_le (q := q - x) worth
  rw [sub_add_cancel] at back
  omega

theorem divFloor_worth {n price q : Dec} (h : DecMath.divFloor n price 18 = .ok q) :
    q.atto * price.atto ≤ n.atto * 10 ^ maxScale := by
  obtain ⟨positive, -, value⟩ := DecMath.divFloor_ok h
  have digits : maxScale - 18 = 0 := rfl
  rw [value, digits, pow_zero, mul_one]
  exact Int.ediv_mul_le _ positive.ne'

theorem divFloor_nonneg {n price q : Dec} (h : DecMath.divFloor n price 18 = .ok q)
    (nonneg : 0 ≤ n.atto) : 0 ≤ q.atto := by
  obtain ⟨positive, -, value⟩ := DecMath.divFloor_ok h
  rw [value]
  have quotient : 0 ≤ n.atto * 10 ^ 18 / price.atto :=
    Int.ediv_nonneg (mul_nonneg nonneg (Dec.ten_pow_pos _).le) positive.le
  exact mul_nonneg quotient (Dec.ten_pow_pos _).le

theorem worth_of_le {x w price n : Int} (positive : 0 < price) (le : x ≤ w)
    (worth : w * price ≤ n * 10 ^ maxScale) : x * price ≤ n * 10 ^ maxScale :=
  (Int.mul_le_mul_of_nonneg_right le positive.le).trans worth

theorem valueAt_pos {q price : Int} (positive : 0 < price) (h : 0 < valueAt q price) : 0 < q := by
  by_contra nonpos
  have le := valueAt_mono positive.le (not_lt.1 nonpos)
  rw [valueAt_zero] at le
  omega

theorem valueAt_neg {q price : Int} (positive : 0 < price) (h : valueAt q price < 0) : q < 0 := by
  by_contra nonneg
  have le := valueAt_mono positive.le (not_lt.1 nonneg)
  rw [valueAt_zero] at le
  omega

/-- What the legs of one trade may do, from `h` held to the target `T`. -/
def LegsReach (h price C T : Int) (legs : List LegWish) : Prop :=
  (∃ side wished reducing, legs = [⟨.whole, side, wished, reducing⟩] ∧
    ∀ x, 0 ≤ x → x ≤ wished.atto → Between C T (valueAt (h + Side.signed side x) price)) ∨
  ∃ side whole opening, legs = [⟨.close, side, whole, true⟩, ⟨.open, side, opening, false⟩] ∧
    whole.atto = |h| ∧ 0 ≤ opening.atto ∧
    ∀ x y, 0 ≤ x → x ≤ |h| → 0 ≤ y → y ≤ opening.atto + (|h| - x) →
      Between C T (valueAt (h + Side.signed side x + Side.signed side y) price)

/-- From a long past zero: a sell of the whole, then a sell sized to the target. -/
theorem flip_short {h price T x y opening : Int} (positive : 0 < price)
    (worth : opening * price ≤ -T * 10 ^ maxScale) (xNonneg : 0 ≤ x) (yNonneg : 0 ≤ y) (yLe : y ≤ opening + (h - x)) :
    Between (valueAt h price) T (valueAt (h - x - y) price) := by
  have upper : valueAt (h - x - y) price ≤ valueAt h price := valueAt_mono positive.le (by omega)
  have lower : valueAt (0 - opening) price ≤ valueAt (h - x - y) price :=
    valueAt_mono positive.le (by omega)
  have bound := le_valueAt_sub (q := 0) worth
  rw [valueAt_zero] at bound
  unfold Between
  omega

/-- From a short past zero: a buy of the whole, then a buy sized to the target. -/
theorem flip_long {h price T x y opening : Int} (positive : 0 < price)
    (worth : opening * price ≤ T * 10 ^ maxScale) (xNonneg : 0 ≤ x) (yNonneg : 0 ≤ y) (yLe : y ≤ opening + (-h - x)) :
    Between (valueAt h price) T (valueAt (h + x + y) price) := by
  have lower : valueAt h price ≤ valueAt (h + x + y) price := valueAt_mono positive.le (by omega)
  have upper : valueAt (h + x + y) price ≤ valueAt (0 + opening) price :=
    valueAt_mono positive.le (by omega)
  have bound := valueAt_add_le (q := 0) worth
  rw [valueAt_zero] at bound
  unfold Between
  omega

theorem buy_reaches {h price T x : Int} (positive : 0 < price) (up : valueAt h price ≤ T)
    (xNonneg : 0 ≤ x) (worth : x * price ≤ (T - valueAt h price) * 10 ^ maxScale) :
    Between (valueAt h price) T (valueAt (h + x) price) := by
  have lower : valueAt h price ≤ valueAt (h + x) price := valueAt_mono positive.le (by omega)
  have upper := valueAt_add_le (q := h) worth
  unfold Between
  omega

theorem sell_reaches {h price T x : Int} (positive : 0 < price) (down : T ≤ valueAt h price)
    (xNonneg : 0 ≤ x) (worth : x * price ≤ (valueAt h price - T) * 10 ^ maxScale) :
    Between (valueAt h price) T (valueAt (h - x) price) := by
  have upper : valueAt (h - x) price ≤ valueAt h price := valueAt_mono positive.le (by omega)
  have lower := le_valueAt_sub (q := h) worth
  unfold Between
  omega

def Against (held : Int) (side : Side) : Prop :=
  (side = .sell ∧ 0 < held) ∨ (side = .buy ∧ held < 0)

theorem exit_reaches {h price x : Int} {side : Side} (positive : 0 < price) (xNonneg : 0 ≤ x)
    (xLe : x ≤ |h|) (against : Against h side) :
    Between (valueAt h price) 0 (valueAt (h + Side.signed side x) price) := by
  obtain ⟨rfl, long⟩ | ⟨rfl, short⟩ := against
  · rw [abs_of_pos long] at xLe
    have upper : valueAt (h + -x) price ≤ valueAt h price := valueAt_mono positive.le (by omega)
    have lower : valueAt 0 price ≤ valueAt (h + -x) price := valueAt_mono positive.le (by omega)
    rw [valueAt_zero] at lower
    simp only [Between, Side.signed]
    omega
  · rw [abs_of_neg short] at xLe
    have lower : valueAt h price ≤ valueAt (h + x) price := valueAt_mono positive.le (by omega)
    have upper : valueAt (h + x) price ≤ valueAt 0 price := valueAt_mono positive.le (by omega)
    rw [valueAt_zero] at upper
    simp only [Between, Side.signed]
    omega

theorem isPositive_false {d : Dec} : d.isPositive = false ↔ d.atto ≤ 0 := by
  rw [Bool.eq_false_iff, Ne, Dec.isPositive_iff, not_lt]

theorem isNegative_false {d : Dec} : d.isNegative = false ↔ 0 ≤ d.atto := by
  rw [Bool.eq_false_iff, Ne, Dec.isNegative_iff, not_lt]

theorem tradeLegs_ok {held current target delta absDelta price : Dec} {legs : List LegWish}
    (positive : 0 < price.atto) (currentEq : current.atto = valueAt held.atto price.atto)
    (deltaEq : delta.atto = target.atto - current.atto) (sizeEq : absDelta.atto = |delta.atto|)
    (h : tradeLegs held current target delta absDelta price = .ok legs) :
    LegsReach held.atto price.atto current.atto target.atto legs := by
  obtain ⟨heldAbs, heldSize, h⟩ := bind_eq_ok.1 h
  have heldEq := DecMath.abs_ok heldSize
  split at h
  next crossing =>
      right
      obtain ⟨targetAbs, targetSize, h⟩ := bind_eq_ok.1 h
      obtain ⟨opening, quotient, h⟩ := bind_eq_ok.1 h
      obtain rfl := Except.ok.inj h
      have worth := divFloor_worth quotient
      have nonneg : 0 ≤ opening.atto := by
        apply divFloor_nonneg quotient
        rw [DecMath.abs_ok targetSize]
        exact abs_nonneg _
      rw [DecMath.abs_ok targetSize] at worth
      simp only [Bool.or_eq_true, Bool.and_eq_true, Dec.isPositive_iff, Dec.isNegative_iff]
        at crossing
      obtain ⟨long, short⟩ | ⟨short, long⟩ := crossing
      · have heldLong : 0 < held.atto := valueAt_pos positive (currentEq ▸ long)
        rw [abs_of_neg short] at worth
        refine ⟨.sell, heldAbs, opening, ?_, heldEq, nonneg, ?_⟩
        · simp [Dec.isPositive_iff.2 heldLong, isPositive_false.2 short.le]
        · intro x y xNonneg xLe yNonneg yLe
          rw [abs_of_pos heldLong] at yLe
          rw [currentEq]
          exact flip_short positive worth xNonneg yNonneg yLe
      · have heldShort : held.atto < 0 := valueAt_neg positive (currentEq ▸ short)
        rw [abs_of_pos long] at worth
        refine ⟨.buy, heldAbs, opening, ?_, heldEq, nonneg, ?_⟩
        · simp [isPositive_false.2 heldShort.le, Dec.isPositive_iff.2 long]
        · intro x y xNonneg xLe yNonneg yLe
          rw [abs_of_neg heldShort] at yLe
          rw [currentEq]
          exact flip_long positive worth xNonneg yNonneg yLe
  next =>
      left
      -- The side follows the sign of the missing value.
      have reaches : ∀ (wished : Dec) (x : Int), 0 ≤ x → x ≤ wished.atto →
          wished.atto * price.atto ≤ absDelta.atto * 10 ^ maxScale →
          Between current.atto target.atto (valueAt
            (held.atto + Side.signed (if delta.isPositive then Side.buy else Side.sell) x)
            price.atto) := by
        intro wished x xNonneg xLe worth
        have small := worth_of_le positive xLe worth
        rw [sizeEq] at small
        cases up : delta.isPositive with
        | true =>
            rw [Dec.isPositive_iff] at up
            rw [abs_of_pos up, deltaEq] at small
            rw [currentEq] at deltaEq small ⊢
            exact buy_reaches positive (by omega) xNonneg small
        | false =>
            rw [isPositive_false] at up
            rw [abs_of_nonpos up, deltaEq] at small
            rw [currentEq] at deltaEq small ⊢
            have surplus : -(target.atto - valueAt held.atto price.atto) =
                valueAt held.atto price.atto - target.atto := by omega
            rw [surplus] at small
            exact sell_reaches positive (by omega) xNonneg small
      simp only at h
      generalize (if delta.isPositive then Side.buy else Side.sell) = side at h reaches
      split at h
      next =>
          obtain ⟨wished, quotient, h⟩ := bind_eq_ok.1 h
          obtain rfl := Except.ok.inj h
          exact ⟨_, wished, _, rfl, fun x xNonneg xLe =>
            reaches wished x xNonneg xLe (divFloor_worth quotient)⟩
      next reduction =>
          split at h
          next flat =>
              obtain rfl := Except.ok.inj h
              refine ⟨_, heldAbs, _, rfl, ?_⟩
              intro x xNonneg xLe
              rw [heldEq] at xLe
              rw [Dec.isZero_iff.1 flat, currentEq]
              apply exit_reaches positive xNonneg xLe
              simp only [Bool.not_eq_true', Bool.not_eq_false, Bool.or_eq_true, Bool.and_eq_true,
                decide_eq_true_eq, Dec.isPositive_iff, Dec.isNegative_iff] at reduction
              exact reduction
          next =>
              obtain ⟨wished, quotient, h⟩ := bind_eq_ok.1 h
              obtain rfl := Except.ok.inj h
              refine ⟨_, min wished heldAbs, _, rfl, ?_⟩
              intro x xNonneg xLe
              rw [Dec.atto_min] at xLe
              exact reaches wished x xNonneg (by omega) (divFloor_worth quotient)

/-- What the flag of a leg says: a reduction is against the position and at most
    its size, every other leg but the open one is not against it. -/
structure Flagged (held : Int) (leg : Leg) (side : Side) (size : Int) (reducing : Bool) : Prop where
  reduction : reducing = true → leg ≠ .open ∧ Against held side ∧ size ≤ |held|
  increase : reducing = false → leg = .open ∨ ¬ Against held side

theorem tradeLegs_flagged {held current target delta absDelta price : Dec} {legs : List LegWish}
    (positive : 0 < price.atto) (currentEq : current.atto = valueAt held.atto price.atto)
    (h : tradeLegs held current target delta absDelta price = .ok legs) :
    ∀ w ∈ legs, Flagged held.atto w.leg w.side w.wished.atto w.reducing := by
  obtain ⟨heldAbs, heldSize, h⟩ := bind_eq_ok.1 h
  have heldEq := DecMath.abs_ok heldSize
  split at h
  next crossing =>
      obtain ⟨targetAbs, -, h⟩ := bind_eq_ok.1 h
      obtain ⟨opening, -, h⟩ := bind_eq_ok.1 h
      obtain rfl := Except.ok.inj h
      simp only [Bool.or_eq_true, Bool.and_eq_true, Dec.isPositive_iff, Dec.isNegative_iff]
        at crossing
      have against : Against held.atto (if held.isPositive then Side.sell else Side.buy) := by
        obtain ⟨long, -⟩ | ⟨short, -⟩ := crossing
        · have heldLong : 0 < held.atto := valueAt_pos positive (currentEq ▸ long)
          simp [Against, Dec.isPositive_iff.2 heldLong, heldLong]
        · have heldShort : held.atto < 0 := valueAt_neg positive (currentEq ▸ short)
          simp [Against, isPositive_false.2 heldShort.le, heldShort]
      intro w member
      simp only [List.mem_cons, List.not_mem_nil, or_false] at member
      obtain rfl | rfl := member
      · exact ⟨fun _ => ⟨by simp, against, heldEq.le⟩, by simp⟩
      · exact ⟨by simp, fun _ => .inl rfl⟩
  next =>
      simp only at h
      generalize (if delta.isPositive then Side.buy else Side.sell) = side at h
      -- The reduction bit of the code is the side that moves toward zero.
      have bit : ((decide (side = .sell) && held.isPositive) ||
          (decide (side = .buy) && held.isNegative)) = true ↔ Against held.atto side := by
        simp [Against, Dec.isPositive_iff, Dec.isNegative_iff]
      split at h
      next notReduction =>
          obtain ⟨wished, -, h⟩ := bind_eq_ok.1 h
          obtain rfl := Except.ok.inj h
          intro w member
          obtain rfl := List.mem_singleton.1 member
          rw [Bool.not_eq_true'] at notReduction
          refine ⟨fun reducing => ?_, fun _ => .inr fun against => ?_⟩
          · rw [notReduction] at reducing
            cases reducing
          · rw [bit.2 against] at notReduction
            cases notReduction
      next reduction =>
          rw [Bool.not_eq_true', Bool.not_eq_false] at reduction
          have against := bit.1 reduction
          split at h
          next =>
              obtain rfl := Except.ok.inj h
              intro w member
              obtain rfl := List.mem_singleton.1 member
              refine ⟨fun _ => ⟨by simp, against, heldEq.le⟩, fun notReducing => ?_⟩
              rw [reduction] at notReducing
              cases notReducing
          next =>
              obtain ⟨wished, -, h⟩ := bind_eq_ok.1 h
              obtain rfl := Except.ok.inj h
              intro w member
              obtain rfl := List.mem_singleton.1 member
              have size : (min wished heldAbs).atto ≤ |held.atto| := by
                rw [Dec.atto_min, heldEq]
                exact min_le_right ..
              refine ⟨fun _ => ⟨by simp, against, size⟩, fun notReducing => ?_⟩
              rw [reduction] at notReducing
              cases notReducing

/-- What sizing the first leg did, and how the others went on. -/
theorem sizeLegs_cases {m : Managed} {rules : VenueRules} {price : PricePoint} {residual : Dec} {w : LegWish}
    {ws : List LegWish} {skipped skipped' : List SkippedTrade} {pending candidates : List Candidate}
    (sized : sizeLegs m rules price residual skipped pending (w :: ws) = .ok (skipped', candidates)) :
    ∃ wished, wishOf residual w = .ok wished ∧
      ((∃ refusal, rules.roundQuantity m.symbol w.side wished price.price = .error refusal ∧ w.leg = .close ∧
          skipped' = skipped ++ [skipTrade m (.venueRefused refusal)] ∧ candidates = []) ∨
        (∃ refusal, rules.roundQuantity m.symbol w.side wished price.price = .error refusal ∧ w.leg ≠ .close ∧
          sizeLegs m rules price residual (skipped ++ [skipTrade m (.venueRefused refusal)]) pending ws =
            .ok (skipped', candidates)) ∨
        ∃ qty left, rules.roundQuantity m.symbol w.side wished price.price = .ok qty ∧ qty.atto ≤ wished.atto ∧
          residualAfter residual wished qty w = .ok left ∧
          sizeLegs m rules price left skipped (pending ++ [⟨m, w.side, qty, price, w.reducing, w.leg⟩]) ws =
            .ok (skipped', candidates)) := by
  obtain ⟨wished, wishedEq, sized⟩ := bind_eq_ok.1 sized
  rw [lift_eq_ok] at wishedEq
  refine ⟨wished, wishedEq, ?_⟩
  split at sized
  next refusal refused =>
      simp only at sized
      split at sized
      next close =>
          obtain ⟨rfl, rfl⟩ := Prod.mk.inj (Except.ok.inj sized)
          exact .inl ⟨refusal, refused, close, rfl, rfl⟩
      next other => exact .inr (.inl ⟨refusal, refused, other, sized⟩)
  next qty rounded =>
      split at sized
      next => cases sized
      next notUp =>
          obtain ⟨left, leftEq, sized⟩ := bind_eq_ok.1 sized
          rw [lift_eq_ok] at leftEq
          rw [Dec.lt_iff, not_lt] at notUp
          exact .inr (.inr ⟨qty, left, rounded, notUp, leftEq, sized⟩)

theorem sizeLegs_flagged {m : Managed} {rules : VenueRules} {price : PricePoint} {h : Int}
    {residual : Dec} {legs : List LegWish} {skipped skipped' : List SkippedTrade}
    {pending candidates : List Candidate}
    (flagged : ∀ w ∈ legs, Flagged h w.leg w.side w.wished.atto w.reducing)
    (before : ∀ c ∈ pending, Flagged h c.leg c.side c.qty.atto c.reducing)
    (sized : sizeLegs m rules price residual skipped pending legs = .ok (skipped', candidates)) :
    ∀ c ∈ candidates, Flagged h c.leg c.side c.qty.atto c.reducing := by
  induction legs generalizing residual skipped pending with
  | nil =>
      obtain ⟨-, rfl⟩ := Prod.mk.inj (Except.ok.inj sized)
      exact before
  | cons w ws ih =>
      have rest : ∀ w' ∈ ws, Flagged h w'.leg w'.side w'.wished.atto w'.reducing :=
        fun w' member => flagged w' (by simp [member])
      obtain ⟨wished, wishedEq, ⟨_, -, -, -, rfl⟩ | ⟨_, -, -, later⟩ | ⟨qty, left, -, notUp, -, later⟩⟩ :=
        sizeLegs_cases sized
      · simp
      · exact ih rest before later
      · refine ih rest ?_ later
        intro c member
        obtain old | new := List.mem_append.1 member
        · exact before c old
        · obtain rfl := List.mem_singleton.1 new
          have flag := flagged w (by simp)
          refine ⟨fun reducing => ?_, flag.increase⟩
          obtain ⟨notOpen, against, size⟩ := flag.reduction reducing
          simp only [wishOf, notOpen, if_false] at wishedEq
          obtain rfl := Except.ok.inj wishedEq
          exact ⟨notOpen, against, notUp.trans size⟩

/-- What the candidates of one instrument may do, from `h` held to the target. -/
inductive Steps (h price C T : Int) : List Candidate → Prop
  | none : Steps h price C T []
  | whole (c : Candidate) : c.leg = .whole →
      (∀ x, 0 ≤ x → x ≤ c.qty.atto → Between C T (valueAt (h + Side.signed c.side x) price)) →
      Steps h price C T [c]
  /-- The venue refused the open leg. -/
  | close (c : Candidate) : c.leg = .close → c.reducing = true →
      (∀ x, 0 ≤ x → x ≤ c.qty.atto → Between C T (valueAt (h + Side.signed c.side x) price)) →
      Steps h price C T [c]
  | flip (c o : Candidate) : c.leg = .close → c.reducing = true → o.leg = .open →
      o.reducing = false → o.side = c.side →
      (∀ x, 0 ≤ x → x ≤ c.qty.atto → Between C T (valueAt (h + Side.signed c.side x) price)) →
      (∀ y, 0 ≤ c.qty.atto → 0 ≤ y → y ≤ o.qty.atto → Between C T
        (valueAt (h + Side.signed c.side c.qty.atto + Side.signed o.side y) price)) →
      Steps h price C T [c, o]

theorem sizeLegs_ok {m : Managed} {rules : VenueRules} {price : PricePoint} {h C T : Int}
    {legs : List LegWish} {skipped : List SkippedTrade} {candidates : List Candidate}
    (reach : LegsReach h price.price.atto C T legs)
    (sized : sizeLegs m rules price Dec.zero [] [] legs = .ok (skipped, candidates)) :
    Steps h price.price.atto C T candidates ∧ ∀ c ∈ candidates, c.m = m ∧ c.price = price := by
  obtain ⟨side, wished, reducing, rfl, safe⟩ | ⟨side, whole, opening, rfl, size,
    openNonneg, safe⟩ := reach
  · obtain ⟨wish, wishEq, ⟨_, -, close, -⟩ | ⟨_, -, -, rest⟩ | ⟨qty, left, -, notUp, -, rest⟩⟩ := sizeLegs_cases sized
    · cases close
    · obtain ⟨-, rfl⟩ := Prod.mk.inj (Except.ok.inj rest)
      exact ⟨.none, by simp⟩
    · obtain ⟨-, rfl⟩ := Prod.mk.inj (Except.ok.inj rest)
      obtain rfl := Except.ok.inj wishEq
      refine ⟨.whole _ rfl ?_, by simp⟩
      intro x xNonneg xLe
      exact safe x xNonneg (xLe.trans notUp)
  · obtain ⟨wish, wishEq, ⟨_, -, -, -, rfl⟩ | ⟨_, -, other, -⟩ | ⟨closing, residual, -, closeNotUp, residualEq, sized⟩⟩ :=
      sizeLegs_cases sized
    · exact ⟨.none, by simp⟩
    · exact absurd rfl other
    obtain rfl := Except.ok.inj wishEq
    have left := DecMath.sub_ok residualEq
    rw [size] at closeNotUp left
    have closeSafe : ∀ x, 0 ≤ x → x ≤ closing.atto →
        Between C T (valueAt (h + Side.signed side x) price.price.atto) := by
      intro x xNonneg xLe
      have between := safe x 0 xNonneg (xLe.trans closeNotUp) le_rfl (by omega)
      have still : Side.signed side 0 = 0 := by cases side <;> rfl
      rwa [still, add_zero] at between
    obtain ⟨wish, wishEq, ⟨_, -, close, -⟩ | ⟨_, -, -, rest⟩ | ⟨qty, _, -, notUp, -, rest⟩⟩ := sizeLegs_cases sized
    · cases close
    · obtain ⟨-, rfl⟩ := Prod.mk.inj (Except.ok.inj rest)
      exact ⟨.close _ rfl rfl closeSafe, by simp⟩
    · obtain ⟨-, rfl⟩ := Prod.mk.inj (Except.ok.inj rest)
      have wished : wish.atto = opening.atto + residual.atto := DecMath.add_ok wishEq
      refine ⟨.flip _ _ rfl rfl rfl rfl rfl closeSafe ?_, by simp⟩
      intro y closeNonneg yNonneg yLe
      simp only at closeNonneg yLe ⊢
      exact safe closing.atto y closeNonneg closeNotUp yNonneg (by omega)

/-- A trade that does not cross zero is one leg; it sells only what is held. -/
theorem tradeLegs_longOnly {held current target delta absDelta price : Dec} {legs : List LegWish}
    (positive : 0 < price.atto) (currentEq : current.atto = valueAt held.atto price.atto)
    (deltaEq : delta.atto = target.atto - current.atto) (moves : delta.isZero = false)
    (currentNonneg : 0 ≤ current.atto) (targetNonneg : 0 ≤ target.atto)
    (h : tradeLegs held current target delta absDelta price = .ok legs) :
    ∃ w : LegWish, legs = [w] ∧ w.leg = .whole ∧ (w.side = .sell → 0 < held.atto) := by
  obtain ⟨heldAbs, -, h⟩ := bind_eq_ok.1 h
  have sells : (if delta.isPositive then Side.buy else Side.sell) = .sell → 0 < held.atto := by
    intro side
    have down : delta.isPositive = false := by
      cases up : delta.isPositive with
      | true => simp [up] at side
      | false => rfl
    rw [isPositive_false] at down
    rw [Bool.eq_false_iff, Ne, Dec.isZero_iff] at moves
    apply valueAt_pos positive
    omega
  split at h
  next crossing =>
      simp [isNegative_false.2 currentNonneg, isNegative_false.2 targetNonneg] at crossing
  next =>
      simp only at h
      generalize (if delta.isPositive then Side.buy else Side.sell) = side at h sells
      split at h
      next =>
          obtain ⟨wished, -, h⟩ := bind_eq_ok.1 h
          exact ⟨_, (Except.ok.inj h).symm, rfl, sells⟩
      next =>
          split at h
          next => exact ⟨_, (Except.ok.inj h).symm, rfl, sells⟩
          next =>
              obtain ⟨wished, -, h⟩ := bind_eq_ok.1 h
              exact ⟨_, (Except.ok.inj h).symm, rfl, sells⟩

theorem sizeLegs_whole {m : Managed} {rules : VenueRules} {price : PricePoint} {residual : Dec}
    {w : LegWish} {skipped skipped' : List SkippedTrade} {candidates : List Candidate}
    (whole : w.leg = .whole)
    (sized : sizeLegs m rules price residual skipped [] [w] = .ok (skipped', candidates)) :
    candidates = [] ∨ ∃ c, candidates = [c] ∧ c.leg = .whole ∧ c.side = w.side := by
  obtain ⟨wished, -, ⟨_, -, close, -⟩ | ⟨_, -, -, rest⟩ | ⟨qty, left, -, -, -, rest⟩⟩ := sizeLegs_cases sized
  · rw [whole] at close
    cases close
  · obtain ⟨-, rfl⟩ := Prod.mk.inj (Except.ok.inj rest)
    exact .inl rfl
  · obtain ⟨-, rfl⟩ := Prod.mk.inj (Except.ok.inj rest)
    exact .inr ⟨_, rfl, whole, rfl⟩

/-- What is known about the candidates of one instrument. -/
structure Sized (price : PricePoint) (held current target : Dec)
    (candidates : List Candidate) : Prop where
  price_eq : ∀ c ∈ candidates, c.price = price
  flagged : ∀ c ∈ candidates, Flagged held.atto c.leg c.side c.qty.atto c.reducing
  steps : Steps held.atto price.price.atto current.atto target.atto candidates
  longOnly : 0 ≤ current.atto → 0 ≤ target.atto → candidates = [] ∨
    ∃ c, candidates = [c] ∧ c.leg = .whole ∧ (c.side = .sell → 0 < held.atto)

theorem Sized.nil (price : PricePoint) (held current target : Dec) :
    Sized price held current target [] :=
  ⟨by simp, by simp, .none, fun _ _ => .inl rfl⟩

/-- What is known about the proposal of one managed instrument. -/
structure Proposed (cfg : PlanConfig) (account : AccountView)
    (prices : Std.ExtTreeMap String PricePoint) (capitalBase : Dec) (m : Managed) (pr : Proposal) :
    Prop where
  own : ∀ c ∈ pr.candidates, c.m = m
  unlined : pr.line = none → pr.candidates = []
  lined : ∀ line, pr.line = some line → line.symbol = m.symbol ∧
    line.held = account.heldQuantity m.symbol ∧
    targetNotional cfg capitalBase m = .ok line.targetNotional ∧
    ∃ px, prices[m.symbol]? = some px ∧ 0 < px.price.atto ∧
      DecMath.mul line.held px.price = .ok line.currentNotional ∧
      Sized px line.held line.currentNotional line.targetNotional pr.candidates

/-- A trade is none, or noted and left out, or it is cut into legs that are sized. -/
theorem proposeTrade_legs {cfg : PlanConfig} {m : Managed} {rules : VenueRules} {price : PricePoint}
    {held current target : Dec} {skipped : List SkippedTrade} {candidates : List Candidate}
    (h : proposeTrade cfg m rules price held current target = .ok (skipped, candidates)) :
    ∃ delta, DecMath.sub target current = .ok delta ∧
      ((candidates = [] ∧ (delta.isZero = true ∨ ∃ absDelta, DecMath.abs delta = .ok absDelta ∧ skipped ≠ [] ∧
          (absDelta < cfg.minTradeAbs ∨
            ∃ reference pctMin, DecMath.mul cfg.minTradePct reference = .ok pctMin ∧ absDelta < pctMin))) ∨
        ∃ absDelta legs, delta.isZero = false ∧ DecMath.abs delta = .ok absDelta ∧
          tradeLegs held current target delta absDelta price.price = .ok legs ∧
          sizeLegs m rules price Dec.zero [] [] legs = .ok (skipped, candidates)) := by
  obtain ⟨delta, difference, h⟩ := bind_eq_ok.1 h
  rw [lift_eq_ok] at difference
  refine ⟨delta, difference, ?_⟩
  split at h
  next none =>
      obtain ⟨-, rfl⟩ := Prod.mk.inj (Except.ok.inj h)
      exact .inl ⟨rfl, .inl none⟩
  next moves =>
      obtain ⟨absDelta, size, h⟩ := bind_eq_ok.1 h
      rw [lift_eq_ok] at size
      split at h
      next small =>
          obtain ⟨rfl, rfl⟩ := Prod.mk.inj (Except.ok.inj h)
          exact .inl ⟨rfl, .inr ⟨absDelta, size, by simp, .inl small⟩⟩
      next =>
          obtain ⟨reference, -, h⟩ := bind_eq_ok.1 h
          obtain ⟨pctMin, product, h⟩ := bind_eq_ok.1 h
          rw [lift_eq_ok] at product
          split at h
          next small =>
              obtain ⟨rfl, rfl⟩ := Prod.mk.inj (Except.ok.inj h)
              exact .inl ⟨rfl, .inr ⟨absDelta, size, by simp, .inr ⟨reference, pctMin, product, small⟩⟩⟩
          next =>
              obtain ⟨legs, legsEq, h⟩ := bind_eq_ok.1 h
              rw [lift_eq_ok] at legsEq
              exact .inr ⟨absDelta, legs, Bool.not_eq_true _ ▸ moves, size, legsEq, h⟩

theorem proposeTrade_ok {cfg : PlanConfig} {m : Managed} {rules : VenueRules} {price : PricePoint}
    {held current target : Dec} {skipped : List SkippedTrade} {candidates : List Candidate}
    (positive : 0 < price.price.atto) (currentEq : DecMath.mul held price.price = .ok current)
    (h : proposeTrade cfg m rules price held current target = .ok (skipped, candidates)) :
    Sized price held current target candidates ∧ ∀ c ∈ candidates, c.m = m := by
  obtain ⟨delta, difference, ⟨rfl, -⟩ | ⟨absDelta, legs, moves, size, legsEq, h⟩⟩ := proposeTrade_legs h
  · exact ⟨.nil .., by simp⟩
  · have worth := mul_valueAt currentEq
    have change := DecMath.sub_ok difference
    obtain ⟨steps, own⟩ := sizeLegs_ok (tradeLegs_ok positive worth change (DecMath.abs_ok size) legsEq) h
    have flagged := sizeLegs_flagged (tradeLegs_flagged positive worth legsEq) (by simp) h
    refine ⟨⟨fun c member => (own c member).2, flagged, steps, ?_⟩, fun c member => (own c member).1⟩
    intro currentNonneg targetNonneg
    obtain ⟨w, rfl, whole, sells⟩ := tradeLegs_longOnly positive worth change moves currentNonneg targetNonneg legsEq
    obtain none | ⟨c, one, leg, side⟩ := sizeLegs_whole whole h
    · exact .inl none
    · exact .inr ⟨c, one, leg, side ▸ sells⟩

/-- An instrument is noted and left out, or its trade is proposed. -/
theorem propose_trades [UnicodeCase] {cfg : PlanConfig} {book : VenueRuleBook} {account : AccountView}
    {prices : Std.ExtTreeMap String PricePoint} {capitalBase : Dec} {m : Managed} {pr : Proposal}
    (h : propose cfg book account prices capitalBase m = .ok pr) :
    (pr.candidates = [] ∧ pr.skipped ≠ [] ∧ pr.line = none) ∨
      ∃ price rules current target skipped candidates, prices[m.symbol]? = some price ∧ 0 < price.price.atto ∧
        book.get m.venue = some rules ∧ DecMath.mul (account.heldQuantity m.symbol) price.price = .ok current ∧
        targetNotional cfg capitalBase m = .ok target ∧
        proposeTrade cfg m rules price (account.heldQuantity m.symbol) current target = .ok (skipped, candidates) ∧
        pr = ⟨some ⟨m.symbol, m.sleeveLabel, account.heldQuantity m.symbol, current, target⟩, skipped, candidates⟩ := by
  unfold propose at h
  split at h
  next =>
      obtain rfl := Except.ok.inj h
      exact .inl ⟨rfl, by simp, rfl⟩
  next price quoted =>
      obtain ⟨known, positive⟩ := Option.filter_eq_some_iff.1 quoted
      rw [Dec.isPositive_iff] at positive
      split at h
      next =>
          obtain rfl := Except.ok.inj h
          exact .inl ⟨rfl, by simp, rfl⟩
      next rules venue =>
          simp only at h
          split at h
          next =>
              obtain rfl := Except.ok.inj h
              exact .inl ⟨rfl, by simp, rfl⟩
          next =>
              obtain ⟨current, currentEq, h⟩ := bind_eq_ok.1 h
              obtain ⟨target, targetEq, h⟩ := bind_eq_ok.1 h
              obtain ⟨⟨skipped, candidates⟩, trade, h⟩ := bind_eq_ok.1 h
              rw [lift_eq_ok] at currentEq targetEq
              exact .inr ⟨price, rules, current, target, skipped, candidates, known, positive, venue, currentEq,
                targetEq, trade, (Except.ok.inj h).symm⟩

theorem propose_ok [UnicodeCase] {cfg : PlanConfig} {book : VenueRuleBook} {account : AccountView}
    {prices : Std.ExtTreeMap String PricePoint} {capitalBase : Dec} {m : Managed} {pr : Proposal}
    (h : propose cfg book account prices capitalBase m = .ok pr) :
    Proposed cfg account prices capitalBase m pr := by
  obtain ⟨none, -, unlined⟩ |
    ⟨price, rules, current, target, skipped, candidates, known, positive, -, currentEq, targetEq, trade, rfl⟩ :=
    propose_trades h
  · exact ⟨by simp [none], fun _ => none, by simp [unlined]⟩
  · obtain ⟨sized, own⟩ := proposeTrade_ok positive currentEq trade
    refine ⟨own, by simp, ?_⟩
    intro line lineEq
    obtain rfl := Option.some.inj lineEq
    exact ⟨rfl, rfl, targetEq, price, known, positive, currentEq, sized⟩

theorem roundDp_cap {d r : Dec} {mode : Rounding} (h : DecMath.roundDp d 18 mode = .ok r)
    (calm : d.scale = maxScale ∨ d.units.val = 0) : r.atto = d.atto := by
  have fits : d.LiftFits 18 := by
    intro _ _
    obtain cap | zero := calm
    · rw [cap]
      simpa [maxScale] using d.units.fits
    · rw [zero, zero_mul]
      decide
  obtain ⟨exact', rounded, -, value⟩ := Dec.roundDpCalc_exact d mode (by decide : 18 ≤ maxScale) fits
  have result : d.roundDp 18 mode = .ok exact' := by
    rw [Dec.roundDp, rounded]
    rfl
  have same : r = exact' := by
    simp only [DecMath.roundDp, result, Except.ok.injEq] at h
    exact h.symm
  have lifted := Dec.toRat_mul_pow d (show d.scale ≤ 18 from d.scale_le)
  rw [lifted, mode.toInt_intCast, ← lifted, mul_div_assoc, div_self (by norm_num), mul_one,
    Dec.toRat_eq_atto, Dec.toRat_eq_atto, div_left_inj' (by positivity)] at value
  rw [same]
  exact_mod_cast value

theorem divFloor_scale {n d q : Dec} {dp : Nat} (h : DecMath.divFloor n d dp = .ok q) :
    q.scale = dp := by
  unfold DecMath.divFloor at h
  split at h
  · cases h
  · obtain ⟨⟨num, den⟩, -, h⟩ := bind_eq_ok.1 h
    simp only [Dec.new] at h
    split at h
    next made =>
        obtain rfl := Except.ok.inj h
        split at made
        · obtain rfl := Except.ok.inj made
          rfl
        · cases made
    next => cases h

theorem mul_scale {a b z : Dec} (h : DecMath.mul a b = .ok z) (cap : b.scale = maxScale) :
    z.scale = maxScale := by
  have product := DecMath.orOverflow_eq_ok.1 h
  simp only [Dec.checkedMul, Option.bind_eq_bind, Option.bind_eq_some_iff] at product
  obtain ⟨units, -, product⟩ := product
  split at product
  next within =>
      obtain rfl := Option.some.inj product
      have whole : a.scale + b.scale = maxScale := by omega
      exact whole
  next =>
      split at product
      · cases product
      · obtain rfl := Option.some.inj product
        rfl

theorem mul_zero_units {a z : Dec} (h : DecMath.mul a Dec.zero = .ok z) : z.units.val = 0 := by
  have value := DecMath.mul_ok h
  rw [Dec.atto_zero, mul_zero, Int.zero_ediv] at value
  have zero := Dec.isZero_iff.2 value
  simpa [Dec.isZero] using zero

theorem commonFactor_ok {available total factor : Dec} {orders : Nat} (short : available < total)
    (h : commonFactor available total orders = .ok factor) :
    factor = Dec.zero ∨
      (factor.scale = maxScale ∧ 0 ≤ factor.atto ∧ factor.atto ≤ 10 ^ maxScale) := by
  obtain ⟨slack, slackEq, h⟩ := bind_eq_ok.1 h
  obtain ⟨usable, usableEq, h⟩ := bind_eq_ok.1 h
  split at h
  next positive =>
      right
      rw [Dec.isPositive_iff] at positive
      have scale := divFloor_scale h
      have worth := divFloor_worth h
      obtain ⟨totalPos, -, -⟩ := DecMath.divFloor_ok h
      have slackNonneg : 0 ≤ slack.atto := by
        rw [DecMath.mul_ok slackEq]
        apply Int.ediv_nonneg _ (Dec.ten_pow_pos _).le
        apply mul_nonneg
        · decide
        · simp only [Dec.atto]
          exact mul_nonneg (by omega) (Dec.ten_pow_pos _).le
      have budget := DecMath.sub_ok usableEq
      rw [Dec.lt_iff] at short
      refine ⟨scale, divFloor_nonneg h positive.le, ?_⟩
      by_contra above
      have large : 10 ^ maxScale * total.atto < factor.atto * total.atto :=
        Int.mul_lt_mul_of_pos_right (not_le.1 above) totalPos
      have small : usable.atto * 10 ^ maxScale ≤ total.atto * 10 ^ maxScale :=
        Int.mul_le_mul_of_nonneg_right (by omega) (Dec.ten_pow_pos _).le
      rw [mul_comm (10 ^ maxScale) total.atto] at large
      omega
  next =>
      left
      exact (Except.ok.inj h).symm

variable [UnicodeCase] [InstantText] [Sha256] {ctx : PlanContext}

omit [InstantText] [Sha256] in
theorem rescale_le {factor q : Dec} {c : Candidate}
    (unit : factor = Dec.zero ∨
      (factor.scale = maxScale ∧ 0 ≤ factor.atto ∧ factor.atto ≤ 10 ^ maxScale))
    (h : ctx.rescale factor c = .ok q) (positive : 0 < q.atto) : q.atto ≤ c.qty.atto := by
  obtain ⟨product, productEq, h⟩ := bind_eq_ok.1 h
  obtain ⟨scaled, scaledEq, h⟩ := bind_eq_ok.1 h
  rw [lift_eq_ok] at productEq scaledEq
  split at h
  next =>
      obtain rfl := Except.ok.inj h
      simp at positive
  next nonzero =>
      have calm : product.scale = maxScale ∨ product.units.val = 0 := by
        obtain rfl | ⟨cap, -, -⟩ := unit
        · exact .inr (mul_zero_units productEq)
        · exact .inl (mul_scale productEq cap)
      have scaledValue := roundDp_cap scaledEq calm
      rw [DecMath.mul_ok productEq] at scaledValue
      have below : q.atto ≤ scaled.atto := by
        split at h
        next =>
            obtain rfl := Except.ok.inj h
            simp at positive
        next =>
            split at h
            next =>
                obtain rfl := Except.ok.inj h
                simp at positive
            next =>
                split at h
                next le =>
                    obtain rfl := Except.ok.inj h
                    exact Dec.le_iff.1 le
                next => cases h
      obtain rfl | ⟨-, nonneg, le⟩ := unit
      · simp at scaledValue
        omega
      · rcases le_or_gt 0 c.qty.atto with wish | negative
        · have cap : c.qty.atto * factor.atto / 10 ^ maxScale ≤ c.qty.atto := by
            apply Int.ediv_le_of_le_mul (Dec.ten_pow_pos _)
            exact Int.mul_le_mul_of_nonneg_left le wish
          omega
        · have down : c.qty.atto * factor.atto / 10 ^ maxScale ≤ 0 := by
            apply Int.ediv_nonpos_of_nonpos_of_neg _ (Dec.ten_pow_pos _)
            exact mul_nonpos_of_nonpos_of_nonneg negative.le nonneg
          omega

omit [InstantText] [Sha256] in
theorem sizeBuys_le {available : Dec} {buys : List Candidate} {quantities : List Dec}
    (h : ctx.sizeBuys available buys = .ok quantities) :
    ∀ e ∈ buys.zip quantities, 0 < e.2.atto → e.2.atto ≤ e.1.qty.atto := by
  unfold PlanContext.sizeBuys at h
  split at h
  next =>
      obtain rfl := Except.ok.inj h
      simp
  next =>
      obtain ⟨costs, -, h⟩ := bind_eq_ok.1 h
      obtain ⟨total, -, h⟩ := bind_eq_ok.1 h
      split at h
      next short =>
          obtain ⟨factor, factorEq, h⟩ := bind_eq_ok.1 h
          rw [lift_eq_ok] at factorEq
          have unit := commonFactor_ok short factorEq
          intro e member positive
          have rescaled := List.forall₂_iff_zip.1 (mapM_eq_ok.1 h)
          exact rescale_le unit (rescaled.2 member) positive
      next =>
          obtain rfl := Except.ok.inj h
          intro e member _
          have pairs : buys.zip (buys.map Candidate.qty) = buys.map fun c => (c, c.qty) := by
            rw [← List.zip_map', List.map_id']
          rw [pairs, List.mem_map] at member
          obtain ⟨c, -, rfl⟩ := member
          exact le_rfl

end RebalancerCore
