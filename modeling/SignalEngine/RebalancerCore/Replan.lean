import SignalEngine.RebalancerCore.BudgetFit

/-! # Planning again after the orders were filled

A venue that trades in lots leaves less than one lot of what a trade wished. Planned
again from there, the trade wishes that rest, and the two floors at 18 digits (the value
of the position and the wished quantity) may raise it to a whole lot.
-/

open MachineInt BrokerAdapters Outcome Text TowardZero

namespace RebalancerCore

/-! ## One position

Quantities, prices and values are in units of `10^-18`. -/

/-- The quantity that a value buys, rounded down. -/
def quantityFor (n price : Int) : Int := n * 10 ^ maxScale / price

/-- What a value keeps beyond that quantity, in units of `10^-36`. -/
def droppedWish (n price : Int) : Int := n * 10 ^ maxScale % price

/-- What a quantity is worth beyond its value, in units of `10^-36`. -/
def droppedValue (q price : Int) : Int := q * price % 10 ^ maxScale

theorem quantityFor_worth (n price : Int) : quantityFor n price * price + droppedWish n price = n * 10 ^ maxScale :=
  Int.ediv_mul_add_emod _ _

theorem valueAt_worth (q price : Int) : valueAt q price * 10 ^ maxScale + droppedValue q price = q * price :=
  Int.ediv_mul_add_emod _ _

variable {n q h price : Int}

theorem quantityFor_le_worth (positive : 0 < price) : quantityFor n price * price ≤ n * 10 ^ maxScale :=
  Int.ediv_mul_le _ positive.ne'

theorem quantityFor_nonneg (positive : 0 < price) (nonneg : 0 ≤ n) : 0 ≤ quantityFor n price :=
  Int.ediv_nonneg (mul_nonneg nonneg (Dec.ten_pow_pos _).le) positive.le

theorem quantityFor_lt_iff {a : Int} (positive : 0 < price) :
    quantityFor n price < a ↔ n * 10 ^ maxScale < a * price :=
  Int.ediv_lt_iff_lt_mul positive

theorem droppedValue_nonneg (q price : Int) : 0 ≤ droppedValue q price :=
  Int.emod_nonneg _ (Dec.ten_pow_pos _).ne'

theorem droppedValue_lt (q price : Int) : droppedValue q price < 10 ^ maxScale :=
  Int.emod_lt_of_pos _ (Dec.ten_pow_pos _)

def Crosses (C T : Int) : Prop := (0 < C ∧ T < 0) ∨ (C < 0 ∧ 0 < T)

instance (C T : Int) : Decidable (Crosses C T) := inferInstanceAs (Decidable (_ ∨ _))

/-- A long position of no value under a short target: the code sees no crossing, and the
    sell is cut to the position. -/
def Dust (h price T : Int) : Prop := valueAt h price = 0 ∧ 0 < h ∧ T < 0

instance (h price T : Int) : Decidable (Dust h price T) := inferInstanceAs (Decidable (_ ∧ _))

theorem Dust.le_wish {T : Int} (positive : 0 < price) (dust : Dust h price T) :
    h ≤ quantityFor |T - valueAt h price| price := by
  obtain ⟨none, long, short⟩ := dust
  have worth := valueAt_worth h price
  have less := droppedValue_lt h price
  rw [none, zero_mul, zero_add] at worth
  rw [none, sub_zero, abs_of_neg short]
  apply Int.le_ediv_of_mul_le positive
  have one : 1 * 10 ^ maxScale ≤ -T * 10 ^ maxScale := Int.mul_le_mul_of_nonneg_right (by omega) (Dec.ten_pow_pos _).le
  omega

def tradeSide (h price T : Int) : Side := if valueAt h price < T then .buy else .sell

theorem wish_le_held {T : Int} (positive : 0 < price) (wanted : T ≠ 0) (straight : ¬ Crosses (valueAt h price) T)
    (real : ¬ Dust h price T) (against : Against h (tradeSide h price T)) :
    quantityFor |T - valueAt h price| price ≤ |h| := by
  have worth := valueAt_worth h price
  have some := droppedValue_nonneg h price
  have less := droppedValue_lt h price
  unfold Crosses at straight
  unfold Dust at real
  have most : |T - valueAt h price| * 10 ^ maxScale ≤ |h| * price := by
    obtain ⟨sells, long⟩ | ⟨buys, short⟩ := against
    · have down : ¬ valueAt h price < T := by
        intro up
        rw [tradeSide, if_pos up] at sells
        cases sells
      have above : 0 ≤ valueAt h price := by
        have le := valueAt_mono positive.le long.le
        rwa [valueAt_zero] at le
      have target : 0 < T := by omega
      rw [abs_of_nonpos (by omega), abs_of_pos long, ← worth, neg_sub, sub_mul]
      have reach := mul_pos target (Dec.ten_pow_pos maxScale)
      omega
    · have up : valueAt h price < T := by
        by_contra notUp
        rw [tradeSide, if_neg notUp] at buys
        cases buys
      have below : valueAt h price < 0 := by
        by_contra notBelow
        have product := mul_neg_of_neg_of_pos short positive
        have value := mul_nonneg (not_lt.1 notBelow) (Dec.ten_pow_pos maxScale).le
        omega
      have target : T + 1 ≤ 0 := by omega
      rw [abs_of_pos (by omega), abs_of_neg short, sub_mul, neg_mul, ← worth]
      have reach := mul_nonpos_of_nonpos_of_nonneg target (Dec.ten_pow_pos maxScale).le
      rw [add_mul, one_mul] at reach
      omega
  exact le_of_mul_le_mul_right ((quantityFor_le_worth positive).trans most) positive

/-- What the legs of the trade from `h` wish before the venue rounds them. -/
def legWishes (h price T : Int) : List Int :=
  if T = valueAt h price then []
  else if Crosses (valueAt h price) T then [|h|, quantityFor |T| price]
  else if T = 0 then [|h|]
  else if Dust h price T then [h]
  else [quantityFor |T - valueAt h price| price]

def lotsOf (w step : Int) : Int := w - w % step

theorem lotsOf_bounds {w step : Int} (stepPos : 0 < step) (nonneg : 0 ≤ w) :
    0 ≤ lotsOf w step ∧ lotsOf w step ≤ w ∧ w - lotsOf w step < step := by
  have below := Int.emod_lt_of_pos w stepPos
  have above := Int.emod_nonneg w stepPos.ne'
  have small : w % step ≤ w := by
    have split := Int.mul_ediv_add_emod w step
    have quotient : 0 ≤ step * (w / step) := mul_nonneg stepPos.le (Int.ediv_nonneg nonneg stepPos.le)
    omega
  unfold lotsOf
  omega

theorem le_lotsOf {w step : Int} (stepPos : 0 < step) (some : 0 < lotsOf w step) : step ≤ lotsOf w step := by
  have lots : lotsOf w step = w / step * step := by
    have split := Int.mul_ediv_add_emod w step
    rw [mul_comm] at split
    unfold lotsOf
    omega
  rw [lots] at some ⊢
  have one : 1 ≤ w / step := by
    by_contra none
    have nonpos : w / step * step ≤ 0 := mul_nonpos_of_nonpos_of_nonneg (by omega) stepPos.le
    omega
  have grown := Int.mul_le_mul_of_nonneg_right one stepPos.le
  omega

/-! ### The trade in whole lots -/

/-- Where the trade starts once a close leg went to zero. -/
def openFrom (h price T : Int) : Int := if Crosses (valueAt h price) T then 0 else h

def openWish (h price T : Int) : Int := quantityFor |T - valueAt (openFrom h price T) price| price

/-- What the close leg left of the position, which the open leg covers too. -/
def carried (h price T step : Int) : Int := if Crosses (valueAt h price) T then |h| % step else 0

def offLot (h price T step : Int) : Int := (openWish h price T + carried h price T step) % step

def restsAt (h price T step : Int) : Int :=
  openFrom h price T + Side.signed (tradeSide h price T) (openWish h price T - offLot h price T step)

/-- The rest of the trade is worth less than a lot: what the venue took off the wish, and
    what the two floors dropped. A trade to zero always leaves less than a lot, and dust
    does unless it is a number of whole lots. -/
def Settles (h price T step : Int) : Prop :=
  T = valueAt h price ∨ T = 0 ∨
    if Dust h price T then h % step ≠ 0
    else offLot h price T step * price + droppedWish |T - valueAt (openFrom h price T) price| price +
      Side.signed (tradeSide h price T)
        (droppedValue (restsAt h price T step) price - droppedValue (openFrom h price T) price) < step * price

inductive Fills (h price T step : Int) : Int → Prop
  | still : T = valueAt h price → Fills h price T step h
  | exit (side : Side) : T = 0 → Against h side → Fills h price T step (h + Side.signed side (lotsOf |h| step))
  | dust : Dust h price T → 0 < lotsOf h step → Fills h price T step (h + Side.signed .sell (lotsOf h step))
  | moved : T ≠ 0 → T ≠ valueAt h price → ¬ Dust h price T → offLot h price T step ≤ openWish h price T →
      Fills h price T step (restsAt h price T step)

theorem missing_after {T step : Int}
    (left : |T - valueAt (restsAt h price T step) price| = Side.signed (tradeSide h price T) (T - valueAt (restsAt h price T step) price))
    (wished : |T - valueAt (openFrom h price T) price| = Side.signed (tradeSide h price T) (T - valueAt (openFrom h price T) price)) :
    |T - valueAt (restsAt h price T step) price| * 10 ^ maxScale =
      offLot h price T step * price + droppedWish |T - valueAt (openFrom h price T) price| price +
        Side.signed (tradeSide h price T)
          (droppedValue (restsAt h price T step) price - droppedValue (openFrom h price T) price) := by
  have wish := quantityFor_worth |T - valueAt (openFrom h price T) price| price
  have before := valueAt_worth (openFrom h price T) price
  have after := valueAt_worth (restsAt h price T step) price
  rw [← openWish] at wish
  have moved : restsAt h price T step * price = openFrom h price T * price +
      Side.signed (tradeSide h price T) (openWish h price T * price - offLot h price T step * price) := by
    rw [restsAt, add_mul]
    cases tradeSide h price T
    · simp only [Side.signed, sub_mul]
    · simp only [Side.signed, neg_mul, sub_mul]
  rw [moved] at after
  rw [left]
  rw [wished] at wish ⊢
  cases sideEq : tradeSide h price T
  · simp only [sideEq, Side.signed, sub_mul] at wish after ⊢
    omega
  · simp only [sideEq, Side.signed, neg_sub, sub_mul] at wish after ⊢
    omega

theorem offLot_nonneg {T step : Int} (stepPos : 0 < step) : 0 ≤ offLot h price T step :=
  Int.emod_nonneg _ stepPos.ne'

theorem restsAt_between {T step : Int} (positive : 0 < price) (stepPos : 0 < step) (moves : T ≠ valueAt h price)
    (covered : offLot h price T step ≤ openWish h price T) :
    (tradeSide h price T = .buy ∧ valueAt h price < T ∧ valueAt (openFrom h price T) price ≤ valueAt (restsAt h price T step) price ∧
        valueAt (restsAt h price T step) price ≤ T) ∨
      (tradeSide h price T = .sell ∧ T < valueAt h price ∧ T ≤ valueAt (restsAt h price T step) price ∧
        valueAt (restsAt h price T step) price ≤ valueAt (openFrom h price T) price ∧
        restsAt h price T step ≤ openFrom h price T) := by
  have off : 0 ≤ offLot h price T step := offLot_nonneg stepPos
  have worth : ∀ n, |T - valueAt (openFrom h price T) price| = n →
      (openWish h price T - offLot h price T step) * price ≤ n * 10 ^ maxScale := by
    intro n size
    have wish : openWish h price T = quantityFor n price := by rw [← size, openWish]
    refine worth_of_le positive ?_ (quantityFor_le_worth positive)
    omega
  rcases lt_or_ge (valueAt h price) T with up | down
  · have side : tradeSide h price T = .buy := if_pos up
    have start : valueAt (openFrom h price T) price ≤ T := by
      unfold openFrom
      split
      next crosses =>
        rw [valueAt_zero]
        unfold Crosses at crosses
        omega
      next => exact up.le
    have reach := buy_reaches positive start (by omega) (worth _ (abs_of_nonneg (by omega)))
    have place : restsAt h price T step = openFrom h price T + (openWish h price T - offLot h price T step) := by
      rw [restsAt, side]
      rfl
    unfold Between at reach
    rw [← place] at reach
    exact .inl ⟨side, up, by omega, by omega⟩
  · have side : tradeSide h price T = .sell := if_neg (by omega)
    have start : T ≤ valueAt (openFrom h price T) price := by
      unfold openFrom
      split
      next crosses =>
        rw [valueAt_zero]
        unfold Crosses at crosses
        omega
      next => exact down
    have size : |T - valueAt (openFrom h price T) price| = valueAt (openFrom h price T) price - T := by
      rw [abs_of_nonpos (by omega), neg_sub]
    have reach := sell_reaches positive start (by omega) (worth _ size)
    have place : restsAt h price T step = openFrom h price T - (openWish h price T - offLot h price T step) := by
      rw [restsAt, side]
      rfl
    unfold Between at reach
    rw [← place] at reach
    exact .inr ⟨side, by omega, by omega, by omega, by omega⟩

theorem legWishes_restsAt {T step : Int} (positive : 0 < price) (stepPos : 0 < step) (wanted : T ≠ 0)
    (moves : T ≠ valueAt h price) (real : ¬ Dust h price T) (covered : offLot h price T step ≤ openWish h price T) :
    legWishes (restsAt h price T step) price T = if T = valueAt (restsAt h price T step) price then []
      else [quantityFor |T - valueAt (restsAt h price T step) price| price] := by
  have between := restsAt_between positive stepPos moves covered
  have straight : ¬ Crosses (valueAt (restsAt h price T step) price) T := by
    unfold openFrom at between
    split at between
    next crosses =>
      rw [valueAt_zero] at between
      unfold Crosses at crosses ⊢
      omega
    next uncrossed =>
      unfold Crosses at uncrossed ⊢
      omega
  have real' : ¬ Dust (restsAt h price T step) price T := by
    rintro ⟨none, long, short⟩
    obtain ⟨-, up, -, reach⟩ | ⟨-, down, -, reach, shrunk⟩ := between
    · omega
    · apply real
      unfold openFrom at reach shrunk
      split at reach
      next crosses =>
        rw [if_pos crosses] at shrunk
        omega
      next uncrossed =>
        rw [if_neg uncrossed] at shrunk
        unfold Crosses at uncrossed
        exact ⟨by omega, by omega, short⟩
  rw [legWishes, if_neg straight, if_neg wanted, if_neg real']

/-- After the orders of a trade, every further wish is below a lot exactly when the trade
    settles. -/
theorem Fills.settles_iff {T step h' : Int} (positive : 0 < price) (stepPos : 0 < step)
    (fills : Fills h price T step h') : (∀ w ∈ legWishes h' price T, w < step) ↔ Settles h price T step := by
  cases fills with
  | still there =>
      have none : legWishes h price T = [] := if_pos there
      rw [none]
      exact ⟨fun _ => .inl there, fun _ w member => by cases member⟩
  | exit side flat against =>
      obtain ⟨-, xLe, left⟩ := lotsOf_bounds stepPos (abs_nonneg h)
      have small : |h + Side.signed side (lotsOf |h| step)| < step := by
        obtain ⟨rfl, long⟩ | ⟨rfl, short⟩ := against
        · rw [abs_of_pos long] at xLe left ⊢
          simp only [Side.signed]
          rw [abs_lt]
          omega
        · rw [abs_of_neg short] at xLe left ⊢
          simp only [Side.signed]
          rw [abs_lt]
          omega
      have settles : Settles h price T step := .inr (.inl flat)
      refine ⟨fun _ => settles, fun _ w member => ?_⟩
      have uncrossed : ¬ Crosses (valueAt (h + Side.signed side (lotsOf |h| step)) price) T := by
        unfold Crosses
        omega
      rw [legWishes, if_neg uncrossed, if_pos flat] at member
      split at member
      · cases member
      · rw [List.mem_singleton.1 member]
        exact small
  | dust dust some =>
      obtain ⟨none, long, short⟩ := id dust
      have lot := le_lotsOf stepPos some
      have rest := Int.emod_nonneg h stepPos.ne'
      have restLt := Int.emod_lt_of_pos h stepPos
      have place : h + Side.signed .sell (lotsOf h step) = h % step := by
        simp only [Side.signed]
        unfold lotsOf
        omega
      rw [place]
      -- what is left is worth nothing either
      have none' : valueAt (h % step) price = 0 := by
        have least := valueAt_mono positive.le rest
        have most := valueAt_mono (p := h % step) (q := h) positive.le (by unfold lotsOf at lot; omega)
        rw [valueAt_zero] at least
        omega
      have settles : Settles h price T step ↔ h % step ≠ 0 := by
        rw [Settles, if_pos dust]
        constructor
        · rintro (there | flat | left)
          · omega
          · omega
          · exact left
        · exact fun left => .inr (.inr left)
      have uncrossed : ¬ Crosses (valueAt (h % step) price) T := by
        unfold Crosses
        omega
      rw [settles, legWishes, if_neg (by omega), if_neg uncrossed, if_neg (by omega)]
      by_cases gone : h % step = 0
      · have whole := dust.le_wish positive
        have noDust : ¬ Dust (h % step) price T := by
          unfold Dust
          omega
        rw [none, ← none'] at whole
        have large : step ≤ h := by
          unfold lotsOf at lot
          omega
        rw [if_neg noDust, List.forall_mem_singleton]
        exact ⟨fun below => by omega, fun left => absurd gone left⟩
      · have still : Dust (h % step) price T := ⟨none', by omega, short⟩
        rw [if_pos still, List.forall_mem_singleton]
        exact ⟨fun _ => gone, fun _ => restLt⟩
  | moved wanted moves real covered =>
      have between := restsAt_between positive stepPos moves covered
      have signs : |T - valueAt (restsAt h price T step) price| =
            Side.signed (tradeSide h price T) (T - valueAt (restsAt h price T step) price) ∧
          |T - valueAt (openFrom h price T) price| =
            Side.signed (tradeSide h price T) (T - valueAt (openFrom h price T) price) := by
        obtain ⟨side, -, low, high⟩ | ⟨side, -, low, high, -⟩ := between
        · rw [side]
          exact ⟨abs_of_nonneg (by omega), abs_of_nonneg (by omega)⟩
        · rw [side]
          exact ⟨abs_of_nonpos (by omega), abs_of_nonpos (by omega)⟩
      have missing := missing_after signs.1 signs.2
      have settles : Settles h price T step ↔
          |T - valueAt (restsAt h price T step) price| * 10 ^ maxScale < step * price := by
        rw [Settles, if_neg real, missing]
        constructor
        · rintro (there | flat | less)
          · exact absurd there moves
          · exact absurd flat wanted
          · exact less
        · exact fun less => .inr (.inr less)
      rw [settles, legWishes_restsAt positive stepPos wanted moves real covered]
      split
      next there =>
        have zero : |T - valueAt (restsAt h price T step) price| = 0 := by
          rw [abs_eq_zero]
          omega
        rw [zero, zero_mul]
        simpa using mul_pos stepPos positive
      next => rw [List.forall_mem_singleton, quantityFor_lt_iff positive]

/-- A quantity whose value has no more than 18 digits. -/
def ExactAt (q price : Int) : Prop := (10 ^ maxScale : Int) ∣ q * price

instance (q price : Int) : Decidable (ExactAt q price) := inferInstanceAs (Decidable (_ ∣ _))

theorem ExactAt.dropped (exact : ExactAt q price) : droppedValue q price = 0 :=
  Int.emod_eq_zero_of_dvd exact

theorem ExactAt.add {r price : Int} (left : ExactAt q price) (right : ExactAt r price) : ExactAt (q + r) price := by
  unfold ExactAt
  rw [add_mul]
  exact dvd_add left right

theorem ExactAt.neg (exact : ExactAt q price) : ExactAt (-q) price := by
  unfold ExactAt
  rw [neg_mul]
  exact exact.neg_right

theorem ExactAt.signed (exact : ExactAt q price) (side : Side) : ExactAt (Side.signed side q) price := by
  cases side
  · exact exact
  · exact exact.neg

theorem ExactAt.abs (exact : ExactAt q price) : ExactAt |q| price := by
  rcases abs_choice q with same | turned
  · rwa [same]
  · rw [turned]
    exact exact.neg

theorem ExactAt.lots {step price : Int} (exact : ExactAt step price) (w : Int) : ExactAt (lotsOf w step) price := by
  have whole : lotsOf w step = w / step * step := by
    have split := Int.mul_ediv_add_emod w step
    rw [mul_comm] at split
    unfold lotsOf
    omega
  unfold ExactAt
  rw [whole, mul_assoc]
  exact Dvd.dvd.mul_left exact _

theorem settles_of_exact {T step : Int} (positive : 0 < price) (stepPos : 0 < step) (held : ExactAt h price)
    (lot : ExactAt step price) : Settles h price T step := by
  have real : ¬ Dust h price T := by
    rintro ⟨none, long, -⟩
    have worth := valueAt_worth h price
    rw [none, held.dropped, zero_mul, zero_add] at worth
    exact absurd worth.symm (mul_pos long positive).ne'
  have start : ExactAt (openFrom h price T) price := by
    unfold openFrom
    split
    · simp [ExactAt]
    · exact held
  have kept : ExactAt (carried h price T step) price := by
    unfold carried
    split
    · have part : |h| % step = |h| + -lotsOf |h| step := by
        unfold lotsOf
        omega
      rw [part]
      exact held.abs.add (lot.lots _).neg
    · simp [ExactAt]
  have finish : ExactAt (restsAt h price T step) price := by
    have traded : openWish h price T - offLot h price T step =
        lotsOf (openWish h price T + carried h price T step) step + -carried h price T step := by
      unfold offLot lotsOf
      omega
    rw [restsAt, traded]
    exact start.add (((lot.lots _).add kept.neg).signed _)
  refine .inr (.inr ?_)
  rw [if_neg real, start.dropped, finish.dropped]
  have none : Side.signed (tradeSide h price T) (0 - 0) = 0 := by cases tradeSide h price T <;> rfl
  have less : offLot h price T step + 1 ≤ step := Int.emod_lt_of_pos _ stepPos
  have whole := Int.mul_le_mul_of_nonneg_right less positive.le
  have rest : droppedWish |T - valueAt (openFrom h price T) price| price < price := Int.emod_lt_of_pos _ positive
  rw [add_mul, one_mul] at whole
  omega

/-! ## The legs of a trade -/

theorem divFloor_quantityFor {n price q : Dec} (h : DecMath.divFloor n price 18 = .ok q) :
    q.atto = quantityFor n.atto price.atto := by
  obtain ⟨-, -, value⟩ := DecMath.divFloor_ok h
  rw [value]
  simp [quantityFor, maxScale]

/-- The legs of the trade from `held` to `target`. -/
inductive LegsWish (held price target : Dec) : List LegWish → Prop
  | flip (whole opening : Dec) : Crosses (valueAt held.atto price.atto) target.atto →
      Against held.atto (tradeSide held.atto price.atto target.atto) → DecMath.abs held = .ok whole →
      opening.atto = quantityFor |target.atto| price.atto → opening.scale = 18 →
      LegsWish held price target [⟨.close, tradeSide held.atto price.atto target.atto, whole, true⟩,
        ⟨.open, tradeSide held.atto price.atto target.atto, opening, false⟩]
  | exit (whole : Dec) (reducing : Bool) : target.atto = 0 → Against held.atto (tradeSide held.atto price.atto target.atto) →
      whole.atto = |held.atto| →
      LegsWish held price target [⟨.whole, tradeSide held.atto price.atto target.atto, whole, reducing⟩]
  | trade (wished : Dec) (reducing : Bool) : target.atto ≠ 0 → ¬ Crosses (valueAt held.atto price.atto) target.atto →
      wished.atto = (if Dust held.atto price.atto target.atto then held.atto
        else quantityFor |target.atto - valueAt held.atto price.atto| price.atto) →
      (¬ Against held.atto (tradeSide held.atto price.atto target.atto) → reducing = false ∧ wished.scale = 18) →
      LegsWish held price target [⟨.whole, tradeSide held.atto price.atto target.atto, wished, reducing⟩]

theorem LegsWish.wishes {held price target : Dec} {legs : List LegWish} (wishes : LegsWish held price target legs)
    (moves : target.atto ≠ valueAt held.atto price.atto) :
    legs.map (fun w => w.wished.atto) = legWishes held.atto price.atto target.atto := by
  cases wishes with
  | flip whole opening crosses against size openingEq scale =>
      rw [legWishes, if_neg moves, if_pos crosses, ← DecMath.abs_ok size, ← openingEq]
      rfl
  | exit whole reducing flat against wholeEq =>
      have uncrossed : ¬ Crosses (valueAt held.atto price.atto) target.atto := by
        unfold Crosses
        omega
      rw [legWishes, if_neg moves, if_neg uncrossed, if_pos flat, ← wholeEq]
      rfl
  | trade wished reducing wanted straight wish grows =>
      rw [legWishes, if_neg moves, if_neg straight, if_neg wanted]
      split at wish
      next dust =>
        rw [if_pos dust, ← wish]
        rfl
      next real =>
        rw [if_neg real, ← wish]
        rfl

theorem LegsWish.nonneg {held price target : Dec} {legs : List LegWish} (positive : 0 < price.atto)
    (wishes : LegsWish held price target legs) : ∀ w ∈ legs, 0 ≤ w.wished.atto := by
  cases wishes with
  | flip whole opening crosses against size openingEq scale =>
      rw [List.forall_mem_cons, List.forall_mem_singleton, DecMath.abs_ok size, openingEq]
      exact ⟨abs_nonneg _, quantityFor_nonneg positive (abs_nonneg _)⟩
  | exit whole reducing flat against wholeEq =>
      rw [List.forall_mem_singleton, wholeEq]
      exact abs_nonneg _
  | trade wished reducing wanted straight wish grows =>
      rw [List.forall_mem_singleton, wish]
      split
      next dust => exact dust.2.1.le
      next => exact quantityFor_nonneg positive (abs_nonneg _)

structure Splits (held current target price : Dec) (legs : List LegWish) : Prop where
  moves : target.atto ≠ current.atto
  split : ∃ delta absDelta : Dec, delta.atto = target.atto - current.atto ∧ absDelta.atto = |delta.atto| ∧
    tradeLegs held current target delta absDelta price = .ok legs

theorem Splits.wishes {held current target price : Dec} {legs : List LegWish} (positive : 0 < price.atto)
    (currentEq : current.atto = valueAt held.atto price.atto) (splits : Splits held current target price legs) :
    LegsWish held price target legs := by
  have moves := splits.moves
  obtain ⟨delta, absDelta, deltaEq, sizeEq, h⟩ := splits.split
  obtain ⟨heldAbs, heldSize, h⟩ := bind_eq_ok.1 h
  have heldEq := DecMath.abs_ok heldSize
  rw [deltaEq, currentEq] at sizeEq
  split at h
  next crossing =>
    obtain ⟨targetAbs, targetSize, h⟩ := bind_eq_ok.1 h
    obtain ⟨opening, quotient, h⟩ := bind_eq_ok.1 h
    obtain rfl := Except.ok.inj h
    have wish := divFloor_quantityFor quotient
    rw [DecMath.abs_ok targetSize] at wish
    simp only [Bool.or_eq_true, Bool.and_eq_true, Dec.isPositive_iff, Dec.isNegative_iff] at crossing
    rw [currentEq] at crossing
    -- both legs are on the side that moves toward the target
    have sides : Against held.atto (tradeSide held.atto price.atto target.atto) ∧
        (if held.isPositive then Side.sell else Side.buy) = tradeSide held.atto price.atto target.atto ∧
        (if target.isPositive then Side.buy else Side.sell) = tradeSide held.atto price.atto target.atto := by
      obtain ⟨long, below⟩ | ⟨short, above⟩ := crossing
      · have heldLong : 0 < held.atto := valueAt_pos positive long
        have side : tradeSide held.atto price.atto target.atto = .sell := if_neg (by omega)
        rw [side]
        exact ⟨.inl ⟨rfl, heldLong⟩, by simp [Dec.isPositive_iff.2 heldLong], by simp [isPositive_false.2 below.le]⟩
      · have heldShort : held.atto < 0 := valueAt_neg positive short
        have side : tradeSide held.atto price.atto target.atto = .buy := if_pos (by omega)
        rw [side]
        exact ⟨.inr ⟨rfl, heldShort⟩, by simp [isPositive_false.2 heldShort.le], by simp [Dec.isPositive_iff.2 above]⟩
    rw [sides.2.1, sides.2.2]
    exact .flip heldAbs opening crossing sides.1 heldSize wish (DecMath.divFloor_scale quotient)
  next straight =>
    have notCrosses : ¬ Crosses (valueAt held.atto price.atto) target.atto := by
      rw [← currentEq]
      simpa only [Crosses, Bool.or_eq_true, Bool.and_eq_true, Dec.isPositive_iff, Dec.isNegative_iff] using straight
    have sideEq : (if delta.isPositive then Side.buy else Side.sell) = tradeSide held.atto price.atto target.atto := by
      simp only [tradeSide, Dec.isPositive_iff, deltaEq, sub_pos, currentEq]
    simp only at h
    rw [sideEq] at h
    -- the reduction bit of the code is the side that moves toward zero
    have bit : ∀ side : Side, ((decide (side = .sell) && held.isPositive) ||
        (decide (side = .buy) && held.isNegative)) = true ↔ Against held.atto side := by
      simp [Against, Dec.isPositive_iff, Dec.isNegative_iff]
    -- a trade to zero is always one, and so is one of dust
    have exits : target.atto = 0 → Against held.atto (tradeSide held.atto price.atto target.atto) := by
      intro flat
      rcases lt_or_gt_of_ne (show valueAt held.atto price.atto ≠ 0 by omega) with short | long
      · rw [tradeSide, if_pos (by omega)]
        exact .inr ⟨rfl, valueAt_neg positive short⟩
      · rw [tradeSide, if_neg (by omega)]
        exact .inl ⟨rfl, valueAt_pos positive long⟩
    have sells : Dust held.atto price.atto target.atto →
        Against held.atto (tradeSide held.atto price.atto target.atto) := by
      rintro ⟨none, long, short⟩
      rw [tradeSide, if_neg (by omega)]
      exact .inl ⟨rfl, long⟩
    split at h
    next notReduction =>
      obtain ⟨wished, quotient, h⟩ := bind_eq_ok.1 h
      obtain rfl := Except.ok.inj h
      rw [Bool.not_eq_true', Bool.eq_false_iff, Ne, bit] at notReduction
      have wish := divFloor_quantityFor quotient
      rw [sizeEq] at wish
      refine .trade wished _ (fun flat => notReduction (exits flat)) notCrosses ?_ fun _ => ?_
      · rw [if_neg fun dust => notReduction (sells dust)]
        exact wish
      · rw [Bool.eq_false_iff, Ne, bit]
        exact ⟨notReduction, DecMath.divFloor_scale quotient⟩
    next reduction =>
      rw [Bool.not_eq_true', Bool.not_eq_false, bit] at reduction
      split at h
      next flat =>
        obtain rfl := Except.ok.inj h
        exact .exit heldAbs _ (Dec.isZero_iff.1 flat) reduction heldEq
      next wanted =>
        obtain ⟨wished, quotient, h⟩ := bind_eq_ok.1 h
        obtain rfl := Except.ok.inj h
        have wish := divFloor_quantityFor quotient
        rw [sizeEq] at wish
        rw [Dec.isZero_iff] at wanted
        refine .trade (min wished heldAbs) _ wanted notCrosses ?_ fun against => absurd reduction against
        rw [Dec.atto_min, wish, heldEq]
        split
        next dust =>
          have less := dust.le_wish positive
          rw [abs_of_pos dust.2.1]
          exact min_eq_right less
        next real => exact min_eq_left (wish_le_held positive wanted notCrosses real reduction)

/-! ## Venues that trade in lots -/

/-- The venue takes the whole lots of a wish or refuses it, and never takes nothing. -/
structure VenueRules.LotStep (rules : VenueRules) (symbol : String) (step : Int) : Prop where
  positive : 0 < step
  rounds : ∀ side wished price q, 0 ≤ wished.atto → rules.roundQuantity symbol side wished price = .ok q →
    q.atto = lotsOf wished.atto step ∧ 0 < q.atto

theorem VenueRules.LotStep.refuses {rules : VenueRules} {symbol : String} {step : Int} {side : Side} {wished price : Dec}
    (lots : rules.LotStep symbol step) (nonneg : 0 ≤ wished.atto) (small : wished.atto < step) :
    ∃ refusal, rules.roundQuantity symbol side wished price = .error refusal := by
  cases answer : rules.roundQuantity symbol side wished price with
  | error refusal => exact ⟨refusal, rfl⟩
  | ok q =>
      obtain ⟨value, positive⟩ := lots.rounds _ _ _ _ nonneg answer
      rw [lotsOf, Int.emod_eq_of_lt nonneg small, sub_self] at value
      omega

def netOf (cs : List Candidate) : Int := (cs.map fun c => Side.signed c.side c.qty.atto).sum

section Lots

variable {m : Managed} {rules : VenueRules} {price : PricePoint} {step : Int}

theorem sizeLegs_whole_lots {residual : Dec} {side : Side} {wished : Dec} {reducing : Bool} {cs : List Candidate}
    (lots : rules.LotStep m.symbol step) (nonneg : 0 ≤ wished.atto)
    (h : sizeLegs m rules price residual [] [] [⟨.whole, side, wished, reducing⟩] = .ok ([], cs)) :
    0 < lotsOf wished.atto step ∧ netOf cs = Side.signed side (lotsOf wished.atto step) := by
  obtain ⟨wish, wishEq, ⟨_, -, close, -⟩ | ⟨_, -, -, rest⟩ | ⟨qty, left, answer, -, -, rest⟩⟩ := sizeLegs_cases h
  · cases close
  · obtain ⟨impossible, -⟩ := Prod.mk.inj (Except.ok.inj rest)
    simp at impossible
  · obtain rfl : wished = wish := Except.ok.inj wishEq
    obtain ⟨-, rfl⟩ := Prod.mk.inj (Except.ok.inj rest)
    obtain ⟨value, positive⟩ := lots.rounds _ _ _ _ nonneg answer
    rw [value] at positive
    exact ⟨positive, by simp [netOf, value]⟩

theorem sizeLegs_flip_lots {side : Side} {whole opening : Dec} {cs : List Candidate} (lots : rules.LotStep m.symbol step)
    (wholeNonneg : 0 ≤ whole.atto) (openingNonneg : 0 ≤ opening.atto)
    (h : sizeLegs m rules price Dec.zero [] [] [⟨.close, side, whole, true⟩, ⟨.open, side, opening, false⟩] = .ok ([], cs)) :
    0 < lotsOf (opening.atto + whole.atto % step) step ∧
      netOf cs = Side.signed side (lotsOf whole.atto step) +
        Side.signed side (lotsOf (opening.atto + whole.atto % step) step) := by
  obtain ⟨wish, wishEq, ⟨_, -, -, impossible, -⟩ | ⟨_, -, other, -⟩ | ⟨closing, residual, answer, -, left, h⟩⟩ :=
    sizeLegs_cases h
  · simp at impossible
  · exact absurd rfl other
  obtain rfl : whole = wish := Except.ok.inj wishEq
  have leftEq := DecMath.sub_ok left
  obtain ⟨closed, -⟩ := lots.rounds _ _ _ _ wholeNonneg answer
  have part : residual.atto = whole.atto % step := by
    rw [leftEq, closed]
    unfold lotsOf
    omega
  obtain ⟨wish', wishEq', ⟨_, -, close, -⟩ | ⟨_, -, -, rest⟩ | ⟨qty, _, answer', -, -, rest⟩⟩ := sizeLegs_cases h
  · cases close
  · obtain ⟨impossible, -⟩ := Prod.mk.inj (Except.ok.inj rest)
    simp at impossible
  · obtain ⟨-, rfl⟩ := Prod.mk.inj (Except.ok.inj rest)
    have covers : wish'.atto = opening.atto + residual.atto := DecMath.add_ok wishEq'
    rw [part] at covers
    have nonneg : 0 ≤ wish'.atto := by
      rw [covers]
      exact add_nonneg openingNonneg (Int.emod_nonneg _ lots.positive.ne')
    obtain ⟨value, positive⟩ := lots.rounds _ _ _ _ nonneg answer'
    rw [covers] at value
    rw [value] at positive
    exact ⟨positive, by simp [netOf, closed, value]⟩

theorem sizeLegs_fills {held target : Dec} {legs : List LegWish} {cs : List Candidate} (positive : 0 < price.price.atto)
    (lots : rules.LotStep m.symbol step) (moves : target.atto ≠ valueAt held.atto price.price.atto)
    (wishes : LegsWish held price.price target legs)
    (sized : sizeLegs m rules price Dec.zero [] [] legs = .ok ([], cs)) :
    Fills held.atto price.price.atto target.atto step (held.atto + netOf cs) := by
  generalize hEq : held.atto = h at moves
  generalize tEq : target.atto = T at moves
  have stepPos := lots.positive
  have nonneg := wishes.nonneg positive
  cases wishes with
  | flip whole opening crosses against size openingEq scale =>
      have wholeEq := DecMath.abs_ok size
      rw [hEq, tEq] at crosses against
      rw [hEq] at wholeEq
      rw [tEq] at openingEq
      rw [List.forall_mem_cons, List.forall_mem_singleton] at nonneg
      obtain ⟨opened, net⟩ := sizeLegs_flip_lots lots nonneg.1 nonneg.2 sized
      rw [wholeEq, openingEq] at opened net
      rw [hEq, tEq] at net
      have start : openFrom h price.price.atto T = 0 := if_pos crosses
      have wish : openWish h price.price.atto T = quantityFor |T| price.price.atto := by
        rw [openWish, start, valueAt_zero, sub_zero]
      have kept : carried h price.price.atto T step = |h| % step := if_pos crosses
      have real : ¬ Dust h price.price.atto T := by
        unfold Crosses at crosses
        unfold Dust
        omega
      have wanted : T ≠ 0 := by
        unfold Crosses at crosses
        omega
      have lot := le_lotsOf stepPos opened
      have restLt := Int.emod_lt_of_pos |h| stepPos
      have off : offLot h price.price.atto T step = (quantityFor |T| price.price.atto + |h| % step) % step := by
        rw [offLot, wish, kept]
      have place : h + netOf cs = restsAt h price.price.atto T step := by
        rw [net, restsAt, start, wish, off]
        unfold lotsOf
        obtain ⟨side, long⟩ | ⟨side, short⟩ := against
        · rw [side, abs_of_pos long]
          simp only [Side.signed]
          omega
        · rw [side, abs_of_neg short]
          simp only [Side.signed]
          omega
      rw [place]
      refine .moved wanted moves real ?_
      rw [wish, off]
      unfold lotsOf at lot
      omega
  | exit whole reducing flat against wholeEq =>
      rw [hEq, tEq] at against
      rw [hEq] at wholeEq
      rw [tEq] at flat
      have nonneg : 0 ≤ whole.atto := nonneg _ List.mem_cons_self
      obtain ⟨-, net⟩ := sizeLegs_whole_lots lots nonneg sized
      rw [hEq, tEq] at net
      rw [net, wholeEq]
      exact .exit _ flat against
  | trade wished reducing wanted straight wish grows =>
      rw [hEq, tEq] at straight wish
      rw [tEq] at wanted
      have nonneg : 0 ≤ wished.atto := nonneg _ List.mem_cons_self
      obtain ⟨traded, net⟩ := sizeLegs_whole_lots lots nonneg sized
      rw [hEq, tEq] at net
      rw [net]
      split at wish
      next dust =>
        have side : tradeSide h price.price.atto T = .sell := by
          obtain ⟨none, -, short⟩ := dust
          exact if_neg (by omega)
        rw [wish] at traded ⊢
        rw [side]
        exact .dust dust traded
      next real =>
        have start : openFrom h price.price.atto T = h := if_neg straight
        have wish' : openWish h price.price.atto T = wished.atto := by rw [openWish, start, wish]
        have none : carried h price.price.atto T step = 0 := if_neg straight
        have off : offLot h price.price.atto T step = wished.atto % step := by rw [offLot, wish', none, add_zero]
        obtain ⟨xNonneg, -, -⟩ := lotsOf_bounds stepPos nonneg
        have place : h + Side.signed (tradeSide h price.price.atto T) (lotsOf wished.atto step) =
            restsAt h price.price.atto T step := by rw [restsAt, start, wish', off, lotsOf]
        rw [place]
        refine .moved wanted moves real ?_
        rw [off, wish']
        unfold lotsOf at xNonneg
        omega

theorem sizeLegs_refused {w : LegWish} {ws : List LegWish} {skipped : List SkippedTrade} {cs : List Candidate}
    {refusal : SizeRefusal} (first : w.leg ≠ .open)
    (refused : rules.roundQuantity m.symbol w.side w.wished price.price = .error refusal) (last : w.leg ≠ .close → ws = [])
    (sized : sizeLegs m rules price Dec.zero [] [] (w :: ws) = .ok (skipped, cs)) : cs = [] := by
  obtain ⟨wish, wishEq, ⟨_, -, -, -, rfl⟩ | ⟨_, -, notClose, rest⟩ | ⟨qty, left, answer, -⟩⟩ := sizeLegs_cases sized
  · rfl
  · rw [last notClose] at rest
    obtain ⟨-, rfl⟩ := Prod.mk.inj (Except.ok.inj rest)
    rfl
  · rw [wishOf, if_neg first] at wishEq
    obtain rfl : w.wished = wish := Except.ok.inj wishEq
    rw [refused] at answer
    cases answer

theorem sizeLegs_none {held target p : Dec} {legs : List LegWish} {skipped : List SkippedTrade} {cs : List Candidate}
    (positive : 0 < p.atto) (lots : rules.LotStep m.symbol step) (small : ∀ w ∈ legs, w.wished.atto < step)
    (wishes : LegsWish held p target legs) (sized : sizeLegs m rules price Dec.zero [] [] legs = .ok (skipped, cs)) : cs = [] := by
  have refuses : ∀ w ∈ legs, ∃ refusal, rules.roundQuantity m.symbol w.side w.wished price.price = .error refusal :=
    fun w member => lots.refuses (wishes.nonneg positive w member) (small w member)
  cases wishes with
  | flip whole opening crosses against size openingEq scale =>
      obtain ⟨refusal, refused⟩ := refuses _ List.mem_cons_self
      exact sizeLegs_refused (by simp) refused (by simp) sized
  | exit whole reducing flat against wholeEq =>
      obtain ⟨refusal, refused⟩ := refuses _ List.mem_cons_self
      exact sizeLegs_refused (by simp) refused (fun _ => rfl) sized
  | trade wished reducing wanted straight wish grows =>
      obtain ⟨refusal, refused⟩ := refuses _ List.mem_cons_self
      exact sizeLegs_refused (by simp) refused (fun _ => rfl) sized

end Lots

/-! ## The trade of an instrument -/

section Trade

variable [UnicodeCase] {cfg : PlanConfig} {book : VenueRuleBook} {account : AccountView}
  {prices : Std.ExtTreeMap String PricePoint} {base : Dec} {m : Managed} {pr : Proposal}

def PlanConfig.Unfiltered (cfg : PlanConfig) : Prop := cfg.minTradeAbs.atto = 0 ∧ cfg.minTradePct.atto = 0

/-- An instrument with a line: its price, its venue, and the legs that are sized, unless
    the trade is none or is filtered. -/
structure Trades (cfg : PlanConfig) (book : VenueRuleBook) (account : AccountView)
    (prices : Std.ExtTreeMap String PricePoint) (base : Dec) (m : Managed) (pr : Proposal) (price : PricePoint)
    (rules : VenueRules) (l : InstrumentLine) : Prop where
  quoted : prices[m.symbol]? = some price
  positive : 0 < price.price.atto
  venue : book.get m.venue = some rules
  lined : pr.line = some l
  symbol : l.symbol = m.symbol
  held : l.held = account.heldQuantity m.symbol
  current : l.currentNotional.atto = valueAt l.held.atto price.price.atto
  target : targetNotional cfg base m = .ok l.targetNotional
  sized : (pr.candidates = [] ∧ (pr.skipped = [] ∨ cfg.Unfiltered → l.targetNotional.atto = l.currentNotional.atto)) ∨
    ∃ legs, Splits l.held l.currentNotional l.targetNotional price.price legs ∧
      sizeLegs m rules price Dec.zero [] [] legs = .ok (pr.skipped, pr.candidates)

omit [UnicodeCase] in
theorem proposeTrade_cases {rules : VenueRules} {price : PricePoint} {held current target : Dec}
    {skipped : List SkippedTrade} {candidates : List Candidate}
    (h : proposeTrade cfg m rules price held current target = .ok (skipped, candidates)) :
    (candidates = [] ∧ (skipped = [] ∨ cfg.Unfiltered → target.atto = current.atto)) ∨
      ∃ legs, Splits held current target price.price legs ∧
        sizeLegs m rules price Dec.zero [] [] legs = .ok (skipped, candidates) := by
  obtain ⟨delta, difference, ⟨rfl, left⟩ | ⟨absDelta, legs, moves, size, split, h⟩⟩ := proposeTrade_legs h
  · have deltaEq := DecMath.sub_ok difference
    refine .inl ⟨rfl, fun held => ?_⟩
    obtain none | ⟨absDelta, size, noted, filtered⟩ := left
    · rw [Dec.isZero_iff] at none
      omega
    · obtain ⟨minAbs, minPct⟩ := held.resolve_left noted
      have sizeEq := DecMath.abs_ok size
      have nonneg := abs_nonneg delta.atto
      obtain small | ⟨reference, pctMin, product, small⟩ := filtered
      · rw [Dec.lt_iff] at small
        omega
      · have pctEq := DecMath.mul_ok product
        rw [Dec.lt_iff] at small
        rw [minPct, zero_mul, Int.zero_ediv] at pctEq
        omega
  · have deltaEq := DecMath.sub_ok difference
    rw [Bool.eq_false_iff, Ne, Dec.isZero_iff] at moves
    exact .inr ⟨legs, ⟨by omega, delta, absDelta, deltaEq, DecMath.abs_ok size, split⟩, h⟩

/-- A proposal has no line and no candidate, or it trades. -/
theorem propose_cases (h : propose cfg book account prices base m = .ok pr) :
    (pr.candidates = [] ∧ pr.skipped ≠ [] ∧ pr.line = none) ∨
      ∃ price rules l, Trades cfg book account prices base m pr price rules l := by
  refine (propose_trades h).imp_right ?_
  rintro ⟨price, rules, current, target, skipped, candidates, known, positive, venue, currentEq, targetEq, trade, rfl⟩
  exact ⟨price, rules, _, known, positive, venue, rfl, rfl, rfl, mul_valueAt currentEq, targetEq,
    proposeTrade_cases trade⟩

theorem Trades.fills {price : PricePoint} {rules : VenueRules} {l : InstrumentLine} {step : Int}
    (trades : Trades cfg book account prices base m pr price rules l) (unskipped : pr.skipped = [])
    (lots : rules.LotStep m.symbol step) :
    Fills l.held.atto price.price.atto l.targetNotional.atto step (l.held.atto + netOf pr.candidates) := by
  obtain ⟨none, still⟩ | ⟨legs, splits, sized⟩ := trades.sized
  · have there := still (.inl unskipped)
    rw [trades.current] at there
    have place : l.held.atto + netOf pr.candidates = l.held.atto := by simp [none, netOf]
    rw [place]
    exact .still there
  · have moves := splits.moves
    rw [unskipped] at sized
    rw [trades.current] at moves
    exact sizeLegs_fills trades.positive lots moves (splits.wishes trades.positive trades.current) sized

theorem Trades.none {price : PricePoint} {rules : VenueRules} {l : InstrumentLine} {step : Int}
    (trades : Trades cfg book account prices base m pr price rules l) (lots : rules.LotStep m.symbol step)
    (small : ∀ w ∈ legWishes l.held.atto price.price.atto l.targetNotional.atto, w < step) : pr.candidates = [] := by
  obtain ⟨none, -⟩ | ⟨legs, splits, sized⟩ := trades.sized
  · exact none
  · have moves := splits.moves
    have wishes := splits.wishes trades.positive trades.current
    rw [trades.current] at moves
    rw [← wishes.wishes moves, List.forall_mem_map] at small
    exact sizeLegs_none trades.positive lots small wishes sized

end Trade

/-! ## A plan whose every candidate is placed -/

section Full

variable [UnicodeCase] [InstantText] [Sha256] {ctx : PlanContext}

def Candidate.full (c : Candidate) : Candidate × Dec := (c, c.qty)

/-- The candidate of an accepted order, with the size it was placed at. -/
def Placed.drawn (pl : Placed) : Candidate × Dec := (pl.candidate, pl.order.quantity)

theorem tryOrder_denied {st st' : Placing} {c : Candidate} {qty : Dec} {accepted : Bool}
    (h : ctx.tryOrder st c qty = .ok (st', accepted)) :
    st'.skipped = st.skipped ∧ ((st'.denied = st.denied ∧ ∃ pl : Placed, pl.drawn = (c, qty) ∧
      st'.placed = st.placed ++ [pl]) ∨ st'.denied ≠ []) := by
  obtain ⟨cost, -, skipped, ⟨placed, denied⟩ | ⟨reasons, placed, denied⟩⟩ := tryOrder_adds h
  · exact ⟨skipped, .inl ⟨denied, _, rfl, placed⟩⟩
  · exact ⟨skipped, .inr (by simp [denied])⟩

/-- Without a denial, the accepted orders are the candidates at the sizes given. -/
structure Filled (st st' : Placing) (sized : List (Candidate × Dec)) : Prop where
  denied : st.denied = []
  skipped : st.skipped = st'.skipped
  placed : ∃ ps : List Placed, st'.placed = st.placed ++ ps ∧ ps.map Placed.drawn = sized

omit [UnicodeCase] [InstantText] [Sha256] in
theorem Filled.nil {st : Placing} (denied : st.denied = []) : Filled st st [] :=
  ⟨denied, rfl, [], by simp, rfl⟩

omit [UnicodeCase] [InstantText] [Sha256] in
theorem Filled.cons {st next st' : Placing} {pl : Placed} {sized : List (Candidate × Dec)} (denied : next.denied = st.denied)
    (skipped : next.skipped = st.skipped) (placed : next.placed = st.placed ++ [pl]) (later : Filled next st' sized) :
    Filled st st' (pl.drawn :: sized) := by
  obtain ⟨ps, grown, drawn⟩ := later.placed
  refine ⟨denied ▸ later.denied, skipped ▸ later.skipped, pl :: ps, ?_, by rw [List.map_cons, drawn]⟩
  rw [grown, placed, List.append_assoc]
  rfl

theorem placeReducers_filled {reducers : List Candidate} {st st' : Placing} (none : st'.denied = [])
    (h : reducers.foldlM ctx.placeReducer st = .ok st') : Filled st st' (reducers.map Candidate.full) := by
  induction reducers generalizing st with
  | nil =>
      obtain rfl := Except.ok.inj h
      exact .nil none
  | cons c reducers ih =>
      rw [List.foldlM_cons] at h
      obtain ⟨next, step, rest⟩ := bind_eq_ok.1 h
      have later := ih rest
      obtain ⟨⟨tried, accepted⟩, attempt, step⟩ := bind_eq_ok.1 step
      have frame : next.denied = tried.denied ∧ next.skipped = tried.skipped ∧ next.placed = tried.placed := by
        simp only at step
        split at step
        · obtain rfl := Except.ok.inj step
          exact ⟨rfl, rfl, rfl⟩
        · obtain rfl := Except.ok.inj step
          exact ⟨rfl, rfl, rfl⟩
      obtain ⟨denied, skipped, placed⟩ := frame
      obtain ⟨same, ⟨still, pl, drawn, grown⟩ | refused⟩ := tryOrder_denied attempt
      · have own : c.full = pl.drawn := drawn.symm
        rw [List.map_cons, own]
        exact .cons (denied.trans still) (skipped.trans same) (placed.trans grown) later
      · exact absurd (denied.symm.trans later.denied) refused

theorem placeBuys_filled {available : Dec} {sized : List (Candidate × Dec)} {st st' : Placing} (none : st'.denied = [])
    (unskipped : st'.skipped = []) (h : sized.foldlM (ctx.placeBuy available) st = .ok st') : Filled st st' sized := by
  induction sized generalizing st with
  | nil =>
      obtain rfl := Except.ok.inj h
      exact .nil none
  | cons e sized ih =>
      rw [List.foldlM_cons] at h
      obtain ⟨next, step, rest⟩ := bind_eq_ok.1 h
      have later := ih rest
      obtain ⟨c, q⟩ := e
      unfold PlanContext.placeBuy at step
      simp only at step
      split at step
      next =>
        obtain rfl := Except.ok.inj step
        have gone := later.skipped.trans unskipped
        simp at gone
      next =>
        obtain ⟨⟨tried, accepted⟩, attempt, step⟩ := bind_eq_ok.1 step
        obtain rfl := Except.ok.inj step
        obtain ⟨same, ⟨still, pl, drawn, grown⟩ | refused⟩ := tryOrder_denied attempt
        · rw [← drawn]
          exact .cons still same grown later
        · exact absurd later.denied refused

omit [UnicodeCase] [InstantText] [Sha256] in
theorem zip_map_qty (buys : List Candidate) : buys.zip (buys.map Candidate.qty) = buys.map Candidate.full := by
  induction buys with
  | nil => rfl
  | cons c buys ih =>
      rw [List.map_cons, List.zip_cons_cons, ih]
      rfl

end Full

section Plans

variable [UnicodeCase] [InstantText] [Sha256] {targets : List SleeveTarget} {account : AccountView}
  {prices : Std.ExtTreeMap String PricePoint} {book : VenueRuleBook} {policy : Policy} {cfg : PlanConfig}

def FromCandidates (cs : List Candidate) (st : Placing) : Prop := ∀ o ∈ st.tried, ∃ c ∈ cs, o.symbol = c.m.symbol

theorem tryOrder_from {ctx : PlanContext} {cs : List Candidate} {st st' : Placing} {c : Candidate} {qty : Dec}
    {accepted : Bool} (known : c ∈ cs) (old : FromCandidates cs st) (h : ctx.tryOrder st c qty = .ok (st', accepted)) :
    FromCandidates cs st' := by
  intro o member
  obtain ⟨cost, -, tried⟩ := tryOrder_tried h
  rcases List.mem_cons.1 (tried.mem_iff.1 member) with rfl | before
  · exact ⟨c, known, rfl⟩
  · exact old o before

variable {p : OrderPlan} {placed : List Placed} {managed : Std.ExtTreeMap String Managed} {prs : List Proposal}
  {start reduced finish : Placing} {b : Budgeted} {ctx : PlanContext}

section

variable (stages : Stages targets account prices book policy cfg ctx p placed managed prs start reduced finish b)

include stages

theorem Stages.origin :
    ∀ o ∈ p.orders ++ p.denied.map DeniedOrder.order, ∃ c ∈ candidatesOf prs, o.symbol = c.m.symbol := by
  have none : FromCandidates (candidatesOf prs) start := by
    intro o member
    rw [Placing.tried, stages.starts.1, stages.starts.2.1] at member
    cases member
  have half : FromCandidates (candidatesOf prs) reduced := by
    refine foldlM_invariant (P := FromCandidates (candidatesOf prs)) none ?_ stages.reductions
    intro c member st st' old step
    rw [reducersOf, List.mem_insertionSort, List.mem_filter] at member
    obtain ⟨⟨tried, accepted⟩, attempt, step⟩ := bind_eq_ok.1 step
    have new := tryOrder_from member.1 old attempt
    simp only at step
    split at step
    · obtain rfl := Except.ok.inj step
      exact new
    · obtain rfl := Except.ok.inj step
      exact new
  rw [stages.orders, stages.denied]
  refine foldlM_invariant (P := FromCandidates (candidatesOf prs)) ?_ ?_ stages.increases
  · exact half
  · intro e member st st' old step
    have inside := (List.of_mem_zip member).1
    rw [stages.buys] at inside
    have known := (List.mem_filter.1 inside).1
    rw [increasersOf, List.mem_insertionSort, List.mem_filter] at known
    unfold PlanContext.placeBuy at step
    simp only at step
    split at step
    · obtain rfl := Except.ok.inj step
      exact old
    · obtain ⟨⟨tried, accepted⟩, attempt, step⟩ := bind_eq_ok.1 step
      obtain rfl := Except.ok.inj step
      exact tryOrder_from known.1 old attempt

theorem Stages.filled (allowed : p.denied = []) (unskipped : p.skipped = [])
    (unscaled : b.quantities = b.buys.map Candidate.qty) :
    (∀ pr ∈ prs, pr.skipped = []) ∧ placed.map Placed.drawn =
      (reducersOf (candidatesOf prs) ++ increasersOf (candidatesOf prs)).map Candidate.full := by
  rw [stages.denied] at allowed
  rw [stages.skipped] at unskipped
  have later := placeBuys_filled allowed unskipped stages.increases
  have clean := later.skipped.trans unskipped
  simp only [List.append_eq_nil_iff, List.map_eq_nil_iff, List.filter_eq_nil_iff, Bool.not_eq_true', Bool.not_eq_false] at clean
  obtain ⟨reducedClean, follows⟩ := clean
  have allowedReduced : reduced.denied = [] := later.denied
  have earlier := placeReducers_filled allowedReduced stages.reductions
  have untouched := earlier.skipped.trans reducedClean
  rw [stages.starts.2.2, List.flatMap_eq_nil_iff] at untouched
  refine ⟨untouched, ?_⟩
  have buys : b.buys = increasersOf (candidatesOf prs) := by
    rw [stages.buys, List.filter_eq_self]
    exact follows
  obtain ⟨ps, grown, drawn⟩ := earlier.placed
  obtain ⟨qs, grown', drawn'⟩ := later.placed
  rw [unscaled, zip_map_qty, buys] at drawn'
  have all : finish.placed = ps ++ qs := by
    rw [grown', grown, stages.starts.1, List.nil_append]
  rw [stages.placed_eq, all, List.map_append, List.map_append, drawn, drawn']

theorem Stages.net (allowed : p.denied = []) (unskipped : p.skipped = [])
    (unscaled : b.quantities = b.buys.map Candidate.qty) (cuts : ∀ pl ∈ placed, Cut pl) {m : Managed} {pr : Proposal}
    (known : (m, pr) ∈ (inSymbolOrder managed).zip prs) :
    netQty (ordersOf m.symbol placed) = netOf pr.candidates := by
  have distinct := inSymbolOrder_nodup fun k m found => (aggregate_named stages.named k m found).symbol_eq
  have mine := candidates_of_symbol stages.each (fun _ _ proposed => (propose_ok proposed).own) distinct _ known
  obtain ⟨-, drawn⟩ := stages.filled allowed unskipped unscaled
  -- orders and candidates correspond one by one
  have pairs : netQty (ordersOf m.symbol placed) = netOf
      ((reducersOf (candidatesOf prs) ++ increasersOf (candidatesOf prs)).filter fun c => c.m.symbol = m.symbol) := by
    generalize reducersOf (candidatesOf prs) ++ increasersOf (candidatesOf prs) = cs at drawn
    clear allowed unskipped unscaled stages
    induction placed generalizing cs with
    | nil =>
        rw [List.map_nil, eq_comm, List.map_eq_nil_iff] at drawn
        subst drawn
        rfl
    | cons pl placed ih =>
        cases cs with
        | nil => cases drawn
        | cons c cs =>
            rw [List.map_cons, List.map_cons, List.cons.injEq] at drawn
            obtain ⟨head, tail⟩ := drawn
            have rest := ih (fun pl' member => cuts pl' (by simp [member])) cs tail
            have cut := cuts pl (by simp)
            obtain ⟨origin, size⟩ := Prod.mk.inj head
            subst origin
            simp only [ordersOf, netQty, netOf, List.filter_cons, cut.symbol] at rest ⊢
            split
            · rw [List.map_cons, List.sum_cons, List.map_cons, List.sum_cons, rest, cut.side, size]
            · exact rest
  have perm : (reducersOf (candidatesOf prs) ++ increasersOf (candidatesOf prs)).Perm (candidatesOf prs) := by
    refine List.Perm.trans ((List.perm_insertionSort ..).append (List.perm_insertionSort ..)) ?_
    exact List.filter_append_perm _ _
  rw [pairs]
  have same := (perm.filter fun c => decide (c.m.symbol = m.symbol)).map fun c => Side.signed c.side c.qty.atto
  simp only [candidatesOf] at same mine
  rw [mine] at same
  exact same.sum_eq

end

omit [UnicodeCase] [InstantText] [Sha256] in
theorem proposal_of {ms : List Managed} {R : Managed → Proposal → Prop} {m : Managed} (each : List.Forall₂ R ms prs)
    (known : m ∈ ms) : ∃ pr, (m, pr) ∈ ms.zip prs ∧ R m pr := by
  have firsts : (ms.zip prs).map Prod.fst = ms := List.map_fst_zip each.length_eq.le
  rw [← firsts, List.mem_map] at known
  obtain ⟨⟨m', pr⟩, paired, rfl⟩ := known
  exact ⟨pr, paired, List.forall₂_zip each paired⟩

/-- An unhindered plan fills the trade of every instrument, seen from any account that
    holds what its orders leave. -/
theorem Stages.fills {sim after : AccountView} {s : SimState} {m : Managed} {rules : VenueRules} {price : PricePoint}
    {target : Dec} {step : Int}
    (stages : Stages targets account prices book policy cfg ctx p placed managed prs start reduced finish b)
    (traced : planTraced targets account prices book policy cfg = .ok (p, placed))
    (allowed : p.denied = []) (unskipped : p.skipped = []) (unscaled : b.quantities = b.buys.map Candidate.qty)
    (valued : revalue (keyPrices prices) account = .ok sim) (filled : replay ⟨sim, cfg.day⟩ p.orders = .ok s)
    (left : ∀ symbol, (after.heldQuantity symbol).atto = (s.account.heldQuantity symbol).atto)
    (known : m ∈ inSymbolOrder managed) (venue : book.get m.venue = some rules) (lots : rules.LotStep m.symbol step)
    (quoted : (keyPrices prices)[m.symbol]? = some price)
    (wanted : targetNotional cfg (policy.capitalBase account.equity account.ccy) m = .ok target) :
    0 < price.price.atto ∧ Fills (account.heldQuantity m.symbol).atto price.price.atto target.atto step
      (after.heldQuantity m.symbol).atto := by
  obtain ⟨pr, paired, proposed⟩ := proposal_of stages.each known
  obtain ⟨clean, -⟩ := stages.filled allowed unskipped unscaled
  have own := clean pr (List.of_mem_zip paired).2
  obtain ⟨-, noted, -⟩ | ⟨price', rules', l, trades⟩ := propose_cases proposed
  · exact absurd own noted
  obtain rfl : price = price' := Option.some.inj (quoted.symm.trans trades.quoted)
  obtain rfl : rules = rules' := Option.some.inj (venue.symm.trans trades.venue)
  obtain rfl : target = l.targetNotional := Except.ok.inj (wanted.symm.trans trades.target)
  refine ⟨trades.positive, ?_⟩
  -- the orders of the instrument are its candidates
  obtain ⟨managed', sim', proposals, ps, qs, mid, last, parts⟩ := planTraced_ok traced
  obtain rfl : sim = sim' := Except.ok.inj (valued.symm.trans parts.sim_eq)
  obtain rfl : managed = managed' := Except.ok.inj (stages.named.symm.trans parts.managed_eq)
  have net := stages.net allowed unskipped unscaled (fun pl member => parts.cut member) paired
  obtain ⟨s', replayed, held⟩ := parts.held_after p.orders.length
  rw [List.take_length] at replayed
  obtain rfl : s = s' := Except.ok.inj (filled.symm.trans replayed)
  have all : placed.take p.orders.length = placed := by
    rw [parts.orders_eq, List.length_map, List.take_length]
  rw [all] at held
  obtain ⟨-, -, ⟨w, -, spelled⟩, -⟩ := (parts.named known).named
  have position := held m.symbol ⟨_, spelled⟩
  rw [left, position, net, ← trades.held]
  exact trades.fills own lots

theorem Stages.no_order {m : Managed} {rules : VenueRules} {price : PricePoint} {target : Dec} {step : Int}
    (stages : Stages targets account prices book policy cfg ctx p placed managed prs start reduced finish b)
    (known : m ∈ inSymbolOrder managed) (venue : book.get m.venue = some rules) (lots : rules.LotStep m.symbol step)
    (quoted : (keyPrices prices)[m.symbol]? = some price)
    (wanted : targetNotional cfg (policy.capitalBase account.equity account.ccy) m = .ok target)
    (small : ∀ w ∈ legWishes (account.heldQuantity m.symbol).atto price.price.atto target.atto, w < step) :
    ∀ o ∈ p.orders ++ p.denied.map DeniedOrder.order, o.symbol ≠ m.symbol := by
  obtain ⟨pr, paired, proposed⟩ := proposal_of stages.each known
  have nothing : pr.candidates = [] := by
    obtain ⟨none, -⟩ | ⟨price', rules', l, trades⟩ := propose_cases proposed
    · exact none
    · obtain rfl : price = price' := Option.some.inj (quoted.symm.trans trades.quoted)
      obtain rfl : rules = rules' := Option.some.inj (venue.symm.trans trades.venue)
      obtain rfl : target = l.targetNotional := Except.ok.inj (wanted.symm.trans trades.target)
      rw [← trades.held] at small
      exact trades.none lots small
  have distinct := inSymbolOrder_nodup fun k m found => (aggregate_named stages.named k m found).symbol_eq
  have mine := candidates_of_symbol stages.each (fun _ _ proposed => (propose_ok proposed).own) distinct _ paired
  rw [nothing, List.filter_eq_nil_iff] at mine
  intro o member same
  obtain ⟨c, inside, symbol⟩ := stages.origin o member
  exact mine c inside (by simp [← symbol, same])

end Plans

namespace OrderPlanner

section Settled

variable [UnicodeCase] [InstantText] [Sha256] {targets : List SleeveTarget} {account after sim : AccountView}
  {prices : Std.ExtTreeMap String PricePoint} {book : VenueRuleBook} {policy : Policy} {cfg : PlanConfig}
  {p : OrderPlan} {b : Budgeted} {s : SimState} {managed : Std.ExtTreeMap String Managed}

/-- From an account that holds what the orders of an unhindered plan leave, every further
    wish of an instrument is below a lot exactly when its trade settles; then the same
    plan orders nothing more for it. -/
theorem replan_settles (planned : plan targets account prices book policy cfg = .ok p) (allowed : p.denied = [])
    (unskipped : p.skipped = []) (budget : planBudget targets account prices book policy cfg = .ok b)
    (unscaled : b.quantities = b.buys.map Candidate.qty) (valued : revalue (keyPrices prices) account = .ok sim)
    (filled : replay ⟨sim, cfg.day⟩ p.orders = .ok s)
    (left : ∀ symbol, (after.heldQuantity symbol).atto = (s.account.heldQuantity symbol).atto)
    (base : policy.capitalBase after.equity after.ccy = policy.capitalBase account.equity account.ccy)
    (named : aggregate targets cfg = .ok managed) :
    ∀ m ∈ inSymbolOrder managed, ∀ rules price target step, book.get m.venue = some rules →
      rules.LotStep m.symbol step → (keyPrices prices)[m.symbol]? = some price →
      targetNotional cfg (policy.capitalBase account.equity account.ccy) m = .ok target →
      ((∀ w ∈ legWishes (after.heldQuantity m.symbol).atto price.price.atto target.atto, w < step) ↔
        Settles (account.heldQuantity m.symbol).atto price.price.atto target.atto step) ∧
      (Settles (account.heldQuantity m.symbol).atto price.price.atto target.atto step →
        ∀ again, plan targets after prices book policy cfg = .ok again →
          ∀ o ∈ again.orders ++ again.denied.map DeniedOrder.order, o.symbol ≠ m.symbol) := by
  intro m known rules price target step venue lots quoted wanted
  obtain ⟨placed, traced⟩ := plan_ok planned
  obtain ⟨managed', prs, start, reduced, finish, b', stages⟩ := planTraced_stages traced
  obtain rfl : managed = managed' := Except.ok.inj (named.symm.trans stages.named)
  obtain rfl : b = b' := Except.ok.inj (budget.symm.trans stages.budget)
  obtain ⟨positive, fills⟩ := stages.fills traced allowed unskipped unscaled valued filled left known venue lots quoted wanted
  have settles := fills.settles_iff positive lots.positive
  refine ⟨settles, fun rests again planned' => ?_⟩
  obtain ⟨placed', traced'⟩ := plan_ok planned'
  obtain ⟨managed', prs', start', reduced', finish', b', stages'⟩ := planTraced_stages traced'
  obtain rfl : managed = managed' := Except.ok.inj (named.symm.trans stages'.named)
  rw [← base] at wanted
  exact stages'.no_order known venue lots quoted wanted (settles.2 rests)

end Settled

namespace SmallLots

open TightCash
open Amount (cents)

attribute [local instance] asciiCase epochText ShortBook.flatHash

def hundredMillionths : VenueRules where
  roundQuantity _ _ quantity _ :=
    let lots := quantity.atto / 10 ^ 10
    if fits : MachineInt.Fits 128 lots then
      if 0 < lots then .ok ⟨⟨lots, fits⟩, 8, Dec.scale_eight⟩ else .error .roundsToZero
    else .error .roundsToZero
  fingerprint symbol := symbol

theorem hundredMillionths_lots (symbol : String) : hundredMillionths.LotStep symbol (10 ^ 10) := by
  refine ⟨by decide, ?_⟩
  intro side wished price q nonneg answer
  simp only [hundredMillionths] at answer
  split at answer
  next fits =>
    split at answer
    next positive =>
      obtain rfl := Except.ok.inj answer
      have split := Int.mul_ediv_add_emod wished.atto (10 ^ 10)
      rw [mul_comm] at split
      have value : (⟨⟨wished.atto / 10 ^ 10, fits⟩, 8, by decide⟩ : Dec).atto = wished.atto / 10 ^ 10 * 10 ^ 10 := rfl
      rw [value]
      unfold lotsOf
      omega
    next => cases answer
  next => cases answer

def exchange : VenueRuleBook := ⟨.ofList [("kraken", hundredMillionths)], InstrumentRules.empty⟩

/-- A hundredth of one unit of capital goes into one instrument: the plan, its budget, the
    account it leaves, and the plan from there. -/
structure Reruns (price : Dec) (p : OrderPlan) (b : Budgeted) (sim : AccountView) (s : SimState) (again : OrderPlan) :
    Prop where
  planned : plan (hundredths ["ADA"]) (cashOf (cents 100)) (quotes price) exchange openMandate (feeRun Dec.zero) = .ok p
  budget : planBudget (hundredths ["ADA"]) (cashOf (cents 100)) (quotes price) exchange openMandate (feeRun Dec.zero) = .ok b
  valued : revalue (keyPrices (quotes price)) (cashOf (cents 100)) = .ok sim
  filled : replay ⟨sim, (feeRun Dec.zero).day⟩ p.orders = .ok s
  replanned : plan (hundredths ["ADA"]) s.account (quotes price) exchange openMandate (feeRun Dec.zero) = .ok again

def rerun (price : Dec) : Except PlanError (OrderPlan × Budgeted × AccountView × SimState × OrderPlan) := do
  let p ← plan (hundredths ["ADA"]) (cashOf (cents 100)) (quotes price) exchange openMandate (feeRun Dec.zero)
  let b ← planBudget (hundredths ["ADA"]) (cashOf (cents 100)) (quotes price) exchange openMandate (feeRun Dec.zero)
  let sim ← revalue (keyPrices (quotes price)) (cashOf (cents 100))
  let s ← replay ⟨sim, (feeRun Dec.zero).day⟩ p.orders
  let again ← plan (hundredths ["ADA"]) s.account (quotes price) exchange openMandate (feeRun Dec.zero)
  .ok (p, b, sim, s, again)

theorem rerun_ok {price : Dec} {p : OrderPlan} {b : Budgeted} {sim : AccountView} {s : SimState} {again : OrderPlan}
    (h : rerun price = .ok (p, b, sim, s, again)) : Reruns price p b sim s again := by
  obtain ⟨p', planned, h⟩ := bind_eq_ok.1 h
  obtain ⟨b', budget, h⟩ := bind_eq_ok.1 h
  obtain ⟨sim', valued, h⟩ := bind_eq_ok.1 h
  obtain ⟨s', filled, h⟩ := bind_eq_ok.1 h
  obtain ⟨again', replanned, h⟩ := bind_eq_ok.1 h
  rw [lift_eq_ok] at valued filled
  cases h
  exact ⟨planned, budget, valued, filled, replanned⟩

structure Shown where
  denied : Nat
  skipped : Nat
  unscaled : Bool
  orders : List (String × Int)
  held : Int
  base : Dec
  more : List (String × Int)
  deriving DecidableEq

def shown (price : Dec) : Except PlanError Shown := do
  let (p, b, _, s, again) ← rerun price
  .ok { denied := p.denied.length
        skipped := p.skipped.length
        unscaled := decide (b.quantities = b.buys.map Candidate.qty)
        orders := p.orders.map fun o => (o.symbol, o.quantity.atto)
        held := (s.account.heldQuantity "ADA").atto
        base := openMandate.capitalBase s.account.equity s.account.ccy
        more := again.orders.map fun o => (o.symbol, o.quantity.atto) }

theorem shown_ok {price : Dec} {orders more : List (String × Int)} {held : Int}
    (h : shown price = .ok ⟨0, 0, true, orders, held, cents 100, more⟩) :
    ∃ p b sim s again, Reruns price p b sim s again ∧ (p.denied = [] ∧ p.skipped = []) ∧
      b.quantities = b.buys.map Candidate.qty ∧ p.orders.map (fun o => (o.symbol, o.quantity.atto)) = orders ∧
      (s.account.heldQuantity "ADA").atto = held ∧ openMandate.capitalBase s.account.equity s.account.ccy = cents 100 ∧
      again.orders.map (fun o => (o.symbol, o.quantity.atto)) = more := by
  obtain ⟨⟨p, b, sim, s, again⟩, run, h⟩ := bind_eq_ok.1 h
  have values := Except.ok.inj h
  simp only [Shown.mk.injEq, List.length_eq_zero_iff, decide_eq_true_eq] at values
  obtain ⟨denied, skipped, unscaled, traded, left, base, later⟩ := values
  exact ⟨p, b, sim, s, again, rerun_ok run, ⟨denied, skipped⟩, unscaled, traded, left, base, later⟩

def tinyPrice : Dec := ⟨⟨299481, by decide +kernel⟩, 13, by decide⟩

/-- Of a hundredth at 0.0000000299481 the venue takes 333910.99936222, and the rest is
    one more lot. -/
theorem rest_is_traded_again :
    ∃ p b sim s again, Reruns tinyPrice p b sim s again ∧ (p.denied = [] ∧ p.skipped = []) ∧
      b.quantities = b.buys.map Candidate.qty ∧ p.orders.map (fun o => (o.symbol, o.quantity.atto)) = [("ADA", 333910999362220000000000)] ∧
      (∀ symbol, hundredMillionths.LotStep symbol (10 ^ 10)) ∧
      openMandate.capitalBase s.account.equity s.account.ccy = openMandate.capitalBase (cents 100) "USD" ∧
      again.orders.map (fun o => (o.symbol, o.quantity.atto)) = [("ADA", 10 ^ 10)] ∧
      ¬ ∀ w ∈ legWishes (s.account.heldQuantity "ADA").atto tinyPrice.atto (10 ^ 16), w < 10 ^ 10 := by
  have twice : shown tinyPrice = .ok ⟨0, 0, true, [("ADA", 333910999362220000000000)], 333910999362220000000000, cents 100,
      [("ADA", 10 ^ 10)]⟩ := by decide +kernel
  have first : openMandate.capitalBase (cents 100) "USD" = cents 100 := by decide +kernel
  have wishes : legWishes 333910999362220000000000 tinyPrice.atto (10 ^ 16) = [10017329980] := by decide +kernel
  obtain ⟨p, b, sim, s, again, runs, clean, unscaled, traded, left, base, later⟩ := shown_ok twice
  refine ⟨p, b, sim, s, again, runs, clean, unscaled, traded, hundredMillionths_lots, base.trans first.symm, later, ?_⟩
  rw [left, wishes, List.forall_mem_singleton]
  omega

def oneHundredth : Dec := ⟨⟨1000000, by decide +kernel⟩, 8, Dec.scale_eight⟩

/-- Of a hundredth at 0.3 the venue takes 0.03333333, and nothing more is ordered. -/
theorem thirty_cents_settle :
    ∃ p b sim s again, Reruns thirtyCents p b sim s again ∧
      p.orders.map (fun o => (o.symbol, o.quantity.atto)) = [("ADA", 33333330000000000)] ∧
      ∀ o ∈ again.orders ++ again.denied.map DeniedOrder.order, o.symbol ≠ "ADA" := by
  have once : shown thirtyCents = .ok ⟨0, 0, true, [("ADA", 33333330000000000)], 33333330000000000, cents 100, []⟩ := by
    decide +kernel
  have first : openMandate.capitalBase (cents 100) "USD" = cents 100 := by decide +kernel
  have instruments : (aggregate (hundredths ["ADA"]) (feeRun Dec.zero)).map (fun managed =>
      (inSymbolOrder managed).map fun m => (m.symbol, m.venue, targetNotional (feeRun Dec.zero) (cents 100) m |>.toOption)) =
      .ok [("ADA", "kraken", some oneHundredth)] := by decide +kernel
  obtain ⟨p, b, sim, s, again, runs, ⟨denied, skipped⟩, unscaled, traded, left, base, later⟩ := shown_ok once
  refine ⟨p, b, sim, s, again, runs, traded, ?_⟩
  cases named : aggregate (hundredths ["ADA"]) (feeRun Dec.zero) with
  | error e =>
      rw [named] at instruments
      cases instruments
  | ok managed =>
      rw [named] at instruments
      obtain ⟨m, only, facts⟩ := List.map_eq_singleton_iff.1 (Except.ok.inj instruments)
      obtain ⟨symbol, rest⟩ := Prod.mk.inj facts
      obtain ⟨venue, wanted⟩ := Prod.mk.inj rest
      have target := toOption_eq_some.1 wanted
      have rules : exchange.get m.venue = some hundredMillionths := by
        have lower : lowerName "kraken" = "kraken" := by decide +kernel
        simp [VenueRuleBook.get, exchange, venue, lower]
      have quoted : (keyPrices (quotes thirtyCents))[m.symbol]? = some ⟨thirtyCents, 0⟩ := by
        rw [symbol]
        decide +kernel
      have settles : Settles ((cashOf (cents 100)).heldQuantity m.symbol).atto thirtyCents.atto oneHundredth.atto
          (10 ^ 10) := by
        rw [symbol]
        refine settles_of_exact (by decide +kernel) (by decide) ?_ ?_
        · decide +kernel
        · decide +kernel
      have same : openMandate.capitalBase s.account.equity s.account.ccy =
          openMandate.capitalBase (cashOf (cents 100)).equity (cashOf (cents 100)).ccy := base.trans first.symm
      have target' : targetNotional (feeRun Dec.zero)
          (openMandate.capitalBase (cashOf (cents 100)).equity (cashOf (cents 100)).ccy) m = .ok oneHundredth := by
        rw [← same, base]
        exact target
      have further := (replan_settles runs.planned denied skipped runs.budget unscaled runs.valued runs.filled
        (fun _ => rfl) same named m (by simp [only]) hundredMillionths _ _ _ rules (hundredMillionths_lots _) quoted target').2
      rw [symbol] at settles further
      exact further settles again runs.replanned

end SmallLots

end OrderPlanner

end RebalancerCore
