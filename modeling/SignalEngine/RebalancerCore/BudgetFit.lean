import SignalEngine.BrokerAdapters.DecimalCanonical
import SignalEngine.RebalancerCore.ScaleMonotone

/-! # Increases against their budget

Increases that cost more than the budget are scaled by one factor, taken against a
budget with `10^-8` less for every order. The slack covers the fees, which are rounded
up by less than that, and one unit of the last digit for every order of what the
18-digit floors of the unscaled costs hide. More than that does not always fit.
-/

open MachineInt BrokerAdapters Outcome Text TowardZero

namespace RebalancerCore

/-! ## Costs -/

/-- Rounded up to 8 digits. -/
def ceil8 (x : ℚ) : ℚ := ⌈x * 10 ^ 8⌉ / 10 ^ 8

@[simp] theorem ceil8_zero : ceil8 0 = 0 := by simp [ceil8]

theorem ceil8_floor18_le (x : ℚ) : ceil8 (floor18 x) ≤ floor18 x + (10 ^ 10 - 1) / 10 ^ 18 := by
  have value : floor18 x * 10 ^ 8 = (⌊x * 10 ^ maxScale⌋ : ℚ) / 10 ^ 10 := by
    rw [floor18, maxScale]
    ring
  have top : ⌈floor18 x * 10 ^ 8⌉ * 10 ^ 10 ≤ ⌊x * 10 ^ maxScale⌋ + (10 ^ 10 - 1) := by
    have below := Int.ceil_lt_add_one (floor18 x * 10 ^ 8)
    rw [value, ← sub_lt_iff_lt_add, lt_div_iff₀ (by positivity)] at below
    rw [value]
    have strict : (⌈(⌊x * 10 ^ maxScale⌋ : ℚ) / 10 ^ 10⌉ - 1) * 10 ^ 10 < ⌊x * 10 ^ maxScale⌋ := by exact_mod_cast below
    omega
  have wide : (⌈floor18 x * 10 ^ 8⌉ : ℚ) * 10 ^ 10 ≤ ⌊x * 10 ^ maxScale⌋ + (10 ^ 10 - 1) := by exact_mod_cast top
  rw [ceil8, div_le_iff₀ (by positivity)]
  calc
    (⌈floor18 x * 10 ^ 8⌉ : ℚ) ≤ (⌊x * 10 ^ maxScale⌋ + (10 ^ 10 - 1)) / 10 ^ 10 := by
      rw [le_div_iff₀ (by positivity)]
      exact wide
    _ = (floor18 x + (10 ^ 10 - 1) / 10 ^ 18) * 10 ^ 8 := by
      rw [floor18, maxScale]
      ring

def roundedCost (rate q price : ℚ) : ℚ := floor18 (q * price) + ceil8 (floor18 (floor18 (q * price) * rate))

def exactCost (rate q price : ℚ) : ℚ := q * price * (1 + rate)

@[simp] theorem roundedCost_zero (rate price : ℚ) : roundedCost rate 0 price = 0 := by simp [roundedCost]

/-- An order of at most the scaled size costs at most the scaled exact cost, and less
    than `10^-8` more for the rounded fee. -/
theorem roundedCost_scaled_le {rate q q' price factor : ℚ} (rateNonneg : 0 ≤ rate) (priceNonneg : 0 ≤ price)
    (scaled : q' ≤ q * factor) :
    roundedCost rate q' price ≤ factor * exactCost rate q price + (10 ^ 10 - 1) / 10 ^ 18 := by
  have notional : floor18 (q' * price) ≤ q * factor * price :=
    (floor18_le _).trans (mul_le_mul_of_nonneg_right scaled priceNonneg)
  have fee : floor18 (floor18 (q' * price) * rate) ≤ q * factor * price * rate :=
    (floor18_le _).trans (mul_le_mul_of_nonneg_right notional rateNonneg)
  have rounded := ceil8_floor18_le (floor18 (q' * price) * rate)
  unfold roundedCost exactCost
  linarith

theorem feeFor_toRat {notional rate fee : Dec} (inRange : InRange8 (floor18 (notional.toRat * rate.toRat)))
    (h : feeFor notional rate = .ok fee) : fee.toRat = ceil8 (floor18 (notional.toRat * rate.toRat)) := by
  obtain ⟨product, mulEq, h⟩ := bind_eq_ok.1 h
  have value := mul_toRat mulEq
  rw [← value, inRange8_iff] at inRange
  obtain ⟨r, rounded, -, up⟩ := Dec.roundDpCalc_exact product .ceil (by decide) (liftFits_of_small inRange)
  have result : product.roundDp 8 .ceil = .ok r := by
    rw [Dec.roundDp, rounded]
    rfl
  simp only [DecMath.roundDp, result, Except.ok.injEq] at h
  rw [← h, up, ← value]
  rfl

def orderCost (rate : Dec) (e : Candidate × Dec) : Except MathError (Dec × Dec) := do
  let notional ← DecMath.mul e.2 e.1.price.price
  let fee ← feeFor notional rate
  .ok (notional, fee)

def FeeInRange (rate : Dec) (e : Candidate × Dec) : Prop :=
  InRange8 (floor18 (floor18 (e.2.toRat * e.1.price.price.toRat) * rate.toRat))

theorem orderCost_toRat {rate : Dec} {e : Candidate × Dec} {cost : Dec × Dec} (inRange : FeeInRange rate e)
    (h : orderCost rate e = .ok cost) :
    cost.1.toRat + cost.2.toRat = roundedCost rate.toRat e.2.toRat e.1.price.price.toRat := by
  obtain ⟨notional, mulEq, h⟩ := bind_eq_ok.1 h
  obtain ⟨fee, feeEq, h⟩ := bind_eq_ok.1 h
  obtain rfl := Except.ok.inj h
  have value := mul_toRat mulEq
  unfold FeeInRange at inRange
  rw [← value] at inRange
  rw [roundedCost, ← value, feeFor_toRat inRange feeEq]

theorem toRat_zero_of_isZero {d : Dec} (zero : d.isZero = true) : d.toRat = 0 := by
  rw [Dec.toRat_eq_atto, Dec.isZero_iff.1 zero]
  simp

theorem orderCost_of_zero {rate : Dec} {e : Candidate × Dec} {cost : Dec × Dec} (zero : e.2.isZero = true)
    (h : orderCost rate e = .ok cost) : cost.1.toRat + cost.2.toRat = 0 := by
  have inRange : FeeInRange rate e := by
    simp [FeeInRange, toRat_zero_of_isZero zero, InRange8]
  rw [orderCost_toRat inRange h, toRat_zero_of_isZero zero, roundedCost_zero]

/-! ## The common factor -/

theorem sub_toRat {a b z : Dec} (h : DecMath.sub a b = .ok z) : z.toRat = a.toRat - b.toRat := by
  rw [Dec.toRat_eq_atto, Dec.toRat_eq_atto, Dec.toRat_eq_atto, DecMath.sub_ok h]
  push_cast
  ring

theorem sum_toRat {items : List Dec} {z : Dec} (h : DecMath.sum items = .ok z) : z.toRat = (items.map Dec.toRat).sum := by
  rw [Dec.toRat_eq_atto, DecMath.sum_ok h]
  clear h
  induction items with
  | nil => simp
  | cons item items ih =>
      rw [List.map_cons, List.sum_cons, List.map_cons, List.sum_cons, ← ih, Dec.toRat_eq_atto]
      push_cast
      ring

theorem feeSlack_toRat {orders : Nat} {slack : Dec} (few : orders < 2 ^ 63) (h : feeSlack orders = .ok slack) :
    slack.toRat = orders / 10 ^ 8 := by
  have value : slack.atto = 10 ^ 10 * (min (orders : Int) (2 ^ 63 - 1) * 10 ^ 18) / 10 ^ 18 := DecMath.mul_ok h
  have count : min (orders : Int) (2 ^ 63 - 1) = orders := by omega
  rw [count, ← mul_assoc, Int.mul_ediv_cancel _ (by decide)] at value
  rw [Dec.toRat_eq_atto, value, maxScale]
  push_cast
  ring

theorem commonFactor_toRat {available total factor : Dec} {orders : Nat} (few : orders < 2 ^ 63)
    (short : available < total) (h : commonFactor available total orders = .ok factor) :
    factor = Dec.zero ∨ factor.scale = maxScale ∧ 0 ≤ factor.toRat ∧ factor.toRat < 1 ∧
      factor.toRat * total.toRat ≤ available.toRat - orders / 10 ^ 8 := by
  obtain ⟨slack, slackEq, h⟩ := bind_eq_ok.1 h
  obtain ⟨usable, usableEq, h⟩ := bind_eq_ok.1 h
  split at h
  next positive =>
    right
    rw [Dec.isPositive_iff] at positive
    obtain ⟨totalPos, -, -⟩ := DecMath.divFloor_ok h
    have totalRat : 0 < total.toRat := by
      rw [Dec.toRat_eq_atto]
      exact div_pos (by exact_mod_cast totalPos) (by positivity)
    have product : factor.toRat * total.toRat ≤ usable.toRat := by
      have worth := divFloor_worth h
      have wide : (factor.atto : ℚ) * total.atto ≤ usable.atto * 10 ^ maxScale := by exact_mod_cast worth
      rw [Dec.toRat_eq_atto, Dec.toRat_eq_atto, Dec.toRat_eq_atto, div_mul_div_comm, div_le_div_iff₀ (by positivity) (by positivity)]
      calc
        (factor.atto : ℚ) * total.atto * 10 ^ maxScale ≤ usable.atto * 10 ^ maxScale * 10 ^ maxScale :=
          mul_le_mul_of_nonneg_right wide (by positivity)
        _ = usable.atto * (10 ^ maxScale * 10 ^ maxScale) := by ring
    rw [sub_toRat usableEq, feeSlack_toRat few slackEq] at product
    refine ⟨divFloor_scale h, toRat_nonneg (divFloor_nonneg h positive.le), ?_, product⟩
    rw [Dec.lt_iff, Dec.lt_iff_toRat] at short
    have slackNonneg : (0 : ℚ) ≤ orders / 10 ^ 8 := by positivity
    by_contra large
    have grown : total.toRat ≤ factor.toRat * total.toRat := le_mul_of_one_le_left totalRat.le (not_lt.1 large)
    linarith
  next =>
    left
    exact (Except.ok.inj h).symm

section Rescale

variable [UnicodeCase] {ctx : PlanContext}

/-- The size after the factor and the venue: at most the product, and nothing for the
    factor zero. -/
theorem rescale_toRat {factor q : Dec} {c : Candidate} (wish : 0 ≤ c.qty.atto)
    (unit : factor = Dec.zero ∨ factor.scale = maxScale ∧ 0 ≤ factor.toRat) (h : ctx.rescale factor c = .ok q) :
    q.toRat ≤ c.qty.toRat * factor.toRat ∧ (factor = Dec.zero → q.isZero = true) := by
  have wishRat := toRat_nonneg wish
  have none : (Dec.zero : Dec).toRat ≤ c.qty.toRat * factor.toRat := by
    have zero : (Dec.zero : Dec).toRat = 0 := toRat_zero_of_isZero rfl
    rw [zero]
    obtain rfl | ⟨-, nonneg⟩ := unit
    · rw [zero, mul_zero]
    · exact mul_nonneg wishRat nonneg
  obtain ⟨product, productEq, h⟩ := bind_eq_ok.1 h
  obtain ⟨scaled, scaledEq, h⟩ := bind_eq_ok.1 h
  rw [lift_eq_ok] at productEq scaledEq
  have calm : product.scale = maxScale ∨ product.units.val = 0 := by
    obtain rfl | ⟨cap, -⟩ := unit
    · exact .inr (mul_zero_units productEq)
    · exact .inl (mul_scale productEq cap)
  have same := roundDp_cap scaledEq calm
  split at h
  next =>
    obtain rfl := Except.ok.inj h
    exact ⟨none, fun _ => rfl⟩
  next nonzero =>
    have moved : factor ≠ Dec.zero := by
      rintro rfl
      apply nonzero
      rw [Dec.isZero_iff, same, DecMath.mul_ok productEq]
      simp
    have scaledLe : scaled.toRat ≤ c.qty.toRat * factor.toRat := by
      have equal : scaled.toRat = product.toRat := by rw [Dec.toRat_eq_atto, Dec.toRat_eq_atto, same]
      rw [equal, mul_toRat productEq]
      exact floor18_le _
    refine ⟨?_, fun zero => absurd zero moved⟩
    split at h
    next =>
      obtain rfl := Except.ok.inj h
      exact none
    next =>
      split at h
      next =>
        obtain rfl := Except.ok.inj h
        exact none
      next rounded _ =>
        split at h
        next le =>
          obtain rfl := Except.ok.inj h
          exact (toRat_le_toRat (Dec.le_iff.1 le)).trans scaledLe
        next => cases h

/-- A venue answers with the size of an order, which is not negative. -/
def VenueRuleBook.Magnitudes (book : VenueRuleBook) : Prop :=
  ∀ venue rules, book.get venue = some rules → ∀ symbol side wished price q,
    rules.roundQuantity symbol side wished price = .ok q → 0 ≤ q.atto

theorem rescale_nonneg {factor q : Dec} {c : Candidate} (magnitudes : ctx.book.Magnitudes)
    (h : ctx.rescale factor c = .ok q) : 0 ≤ q.atto := by
  obtain ⟨product, -, h⟩ := bind_eq_ok.1 h
  obtain ⟨scaled, -, h⟩ := bind_eq_ok.1 h
  split at h
  next =>
    obtain rfl := Except.ok.inj h
    simp
  next =>
    split at h
    next =>
      obtain rfl := Except.ok.inj h
      simp
    next rules known =>
      split at h
      next =>
        obtain rfl := Except.ok.inj h
        simp
      next rounded answer =>
        split at h
        next =>
          obtain rfl := Except.ok.inj h
          exact magnitudes _ rules known _ _ _ _ _ answer
        next => cases h

end Rescale

/-! ## The orders handed to the guard -/

def handed (buys : List Candidate) (quantities : List Dec) : List (Candidate × Dec) :=
  (buys.zip quantities).filter fun e => !e.2.isZero

/-- Notionals and fees, in units of `10^-18`. -/
def costSum (costs : List (Dec × Dec)) : Int := (costs.map fun c => c.1.atto + c.2.atto).sum

theorem costSum_cons (cost : Dec × Dec) (costs : List (Dec × Dec)) :
    (costSum (cost :: costs) : ℚ) / 10 ^ maxScale = cost.1.toRat + cost.2.toRat + (costSum costs : ℚ) / 10 ^ maxScale := by
  rw [costSum, List.map_cons, List.sum_cons, Dec.toRat_eq_atto, Dec.toRat_eq_atto, costSum]
  push_cast
  ring

theorem buyCost_toRat {ctx : PlanContext} {c : Candidate} {z : Dec} (h : ctx.buyCost c = .ok z) :
    ∃ cost, orderCost ctx.cfg.feeRate (c, c.qty) = .ok cost ∧ z.toRat = cost.1.toRat + cost.2.toRat := by
  obtain ⟨notional, mulEq, h⟩ := bind_eq_ok.1 h
  obtain ⟨fee, feeEq, h⟩ := bind_eq_ok.1 h
  exact ⟨(notional, fee), bind_eq_ok.2 ⟨notional, mulEq, bind_eq_ok.2 ⟨fee, feeEq, rfl⟩⟩, add_toRat h⟩

theorem handed_unscaled {ctx : PlanContext} {buys : List Candidate} {added : List Dec} {costs : List (Dec × Dec)}
    (each : List.Forall₂ (fun c z => ctx.buyCost c = .ok z) buys added)
    (h : List.Forall₂ (fun e cost => orderCost ctx.cfg.feeRate e = .ok cost) (handed buys (buys.map Candidate.qty)) costs) :
    (costSum costs : ℚ) / 10 ^ maxScale = (added.map Dec.toRat).sum := by
  induction each generalizing costs with
  | nil =>
      cases h
      simp [costSum]
  | @cons c z buys added head _ ih =>
      obtain ⟨cost, costEq, value⟩ := buyCost_toRat head
      rw [List.map_cons, List.sum_cons]
      by_cases zero : c.qty.isZero = true
      · have skipped : handed (c :: buys) ((c :: buys).map Candidate.qty) = handed buys (buys.map Candidate.qty) := by
          simp [handed, zero]
        rw [skipped] at h
        rw [ih h, value, orderCost_of_zero zero costEq, zero_add]
      · have kept : handed (c :: buys) ((c :: buys).map Candidate.qty) =
            (c, c.qty) :: handed buys (buys.map Candidate.qty) := by
          simp [handed, zero]
        rw [kept] at h
        cases h with
        | cons first rest =>
            obtain rfl := Except.ok.inj (costEq.symm.trans first)
            rw [costSum_cons, ih rest, value]

theorem handed_scaled_le {rate factor : Dec} {buys : List Candidate} {quantities : List Dec} {costs : List (Dec × Dec)}
    (rateNonneg : 0 ≤ rate.toRat)
    (each : List.Forall₂ (fun c q => q.toRat ≤ c.qty.toRat * factor.toRat ∧ FeeInRange rate (c, q)) buys quantities)
    (quoted : ∀ c ∈ buys, 0 ≤ c.price.price.toRat)
    (h : List.Forall₂ (fun e cost => orderCost rate e = .ok cost) (handed buys quantities) costs) :
    (costSum costs : ℚ) / 10 ^ maxScale ≤
      factor.toRat * (buys.map fun c => exactCost rate.toRat c.qty.toRat c.price.price.toRat).sum +
        buys.length * ((10 ^ 10 - 1) / 10 ^ 18) := by
  induction each generalizing costs with
  | nil =>
      cases h
      simp [costSum]
  | @cons c q buys quantities head _ ih =>
      have later := fun costs => @ih costs fun c' member => quoted c' (by simp [member])
      have own := roundedCost_scaled_le rateNonneg (quoted c (by simp)) head.1
      rw [List.map_cons, List.sum_cons, List.length_cons]
      push_cast
      by_cases zero : q.isZero = true
      · have skipped : handed (c :: buys) (q :: quantities) = handed buys quantities := by simp [handed, zero]
        rw [skipped] at h
        have rest := later costs h
        rw [toRat_zero_of_isZero zero, roundedCost_zero] at own
        linarith
      · have kept : handed (c :: buys) (q :: quantities) = (c, q) :: handed buys quantities := by simp [handed, zero]
        rw [kept] at h
        cases h with
        | cons first tail =>
            have rest := later _ tail
            rw [costSum_cons, orderCost_toRat head.2 first]
            simp only
            linarith

/-! ## The budget -/

/-- The floors of the unscaled costs hide at most one unit of the last digit for every
    order, and one more; and no fee is out of range. -/
structure Covered (rate : Dec) (buys : List Candidate) : Prop where
  count : buys.length < 2 ^ 63
  fees : ∀ c ∈ buys, FeeInRange rate (c, c.qty)
  hidden : (buys.map fun c => exactCost rate.toRat c.qty.toRat c.price.price.toRat).sum ≤
    (buys.map fun c => roundedCost rate.toRat c.qty.toRat c.price.price.toRat).sum + (buys.length + 1) / 10 ^ 18

theorem feeInRange_of_le {rate q : Dec} {c : Candidate} (rateNonneg : 0 ≤ rate.toRat) (price : 0 ≤ c.price.price.toRat)
    (nonneg : 0 ≤ q.toRat) (le : q.toRat ≤ c.qty.toRat) (inRange : FeeInRange rate (c, c.qty)) : FeeInRange rate (c, q) := by
  have notional : 0 ≤ floor18 (q.toRat * c.price.price.toRat) := floor18_nonneg (mul_nonneg nonneg price)
  have fee : 0 ≤ floor18 (floor18 (q.toRat * c.price.price.toRat) * rate.toRat) :=
    floor18_nonneg (mul_nonneg notional rateNonneg)
  have mono : floor18 (floor18 (q.toRat * c.price.price.toRat) * rate.toRat) ≤
      floor18 (floor18 (c.qty.toRat * c.price.price.toRat) * rate.toRat) := by
    apply floor18_mono
    apply mul_le_mul_of_nonneg_right _ rateNonneg
    exact floor18_mono (mul_le_mul_of_nonneg_right le price)
  unfold FeeInRange InRange8 at inRange ⊢
  simp only at inRange ⊢
  rw [abs_of_nonneg (mul_nonneg (fee.trans mono) (by positivity))] at inRange
  rw [abs_of_nonneg (mul_nonneg fee (by positivity))]
  exact lt_of_le_of_lt (mul_le_mul_of_nonneg_right mono (by positivity)) inRange

section Budget

variable [UnicodeCase] {ctx : PlanContext} {available : Dec} {buys : List Candidate} {quantities : List Dec}

/-- The increases fit the budget as they are wished. -/
def PlanContext.Unscaled (ctx : PlanContext) (available : Dec) (buys : List Candidate) : Prop :=
  ∃ added total, buys.mapM ctx.buyCost = .ok added ∧ DecMath.sum added = .ok total ∧ total ≤ available

/-- The sizes are the wished ones, or all of them are scaled by one factor. -/
theorem sizeBuys_cases (h : ctx.sizeBuys available buys = .ok quantities) :
    (buys = [] ∧ quantities = []) ∨
    ∃ added total, buys.mapM ctx.buyCost = .ok added ∧ DecMath.sum added = .ok total ∧
      ((¬ available < total ∧ quantities = buys.map Candidate.qty) ∨
        (available < total ∧ ∃ factor, commonFactor available total buys.length = .ok factor ∧
          List.Forall₂ (fun c q => ctx.rescale factor c = .ok q) buys quantities)) := by
  unfold PlanContext.sizeBuys at h
  split at h
  next none =>
    obtain rfl := Except.ok.inj h
    exact .inl ⟨List.isEmpty_iff.1 none, rfl⟩
  next =>
    right
    obtain ⟨added, each, h⟩ := bind_eq_ok.1 h
    obtain ⟨total, sum, h⟩ := bind_eq_ok.1 h
    rw [lift_eq_ok] at each sum
    refine ⟨added, total, each, sum, ?_⟩
    split at h
    next short =>
      obtain ⟨factor, factorEq, h⟩ := bind_eq_ok.1 h
      rw [lift_eq_ok] at factorEq
      exact .inr ⟨short, factor, factorEq, mapM_eq_ok.1 h⟩
    next enough => exact .inl ⟨enough, (Except.ok.inj h).symm⟩

omit [UnicodeCase] in
theorem added_toRat {added : List Dec} (fees : ∀ c ∈ buys, FeeInRange ctx.cfg.feeRate (c, c.qty))
    (each : List.Forall₂ (fun c z => ctx.buyCost c = .ok z) buys added) :
    (added.map Dec.toRat).sum =
      (buys.map fun c => roundedCost ctx.cfg.feeRate.toRat c.qty.toRat c.price.price.toRat).sum := by
  induction each with
  | nil => rfl
  | @cons c z buys added head _ ih =>
      obtain ⟨cost, costEq, value⟩ := buyCost_toRat head
      rw [List.map_cons, List.sum_cons, List.map_cons, List.sum_cons, value, orderCost_toRat (fees c (by simp)) costEq,
        ih fun c' member => fees c' (by simp [member])]

omit [UnicodeCase] in
theorem handed_of_zero (zero : ∀ q ∈ quantities, q.isZero = true) : handed buys quantities = [] := by
  rw [handed, List.filter_eq_nil_iff]
  rintro ⟨c, q⟩ member
  simp [zero q (List.of_mem_zip member).2]

/-- The orders handed to the guard fit the budget, if the increases fit it as they are
    or their floors hide little. -/
theorem sizeBuys_fits {costs : List (Dec × Dec)} (magnitudes : ctx.book.Magnitudes) (rateNonneg : 0 ≤ ctx.cfg.feeRate.atto)
    (wishes : ∀ c ∈ buys, 0 ≤ c.qty.atto ∧ 0 < c.price.price.atto)
    (sized : ctx.sizeBuys available buys = .ok quantities)
    (costed : List.Forall₂ (fun e cost => orderCost ctx.cfg.feeRate e = .ok cost) (handed buys quantities) costs)
    (covered : ctx.Unscaled available buys ∨ Covered ctx.cfg.feeRate buys) :
    handed buys quantities = [] ∨ costSum costs ≤ available.atto := by
  obtain ⟨rfl, rfl⟩ | ⟨added, total, each, sum, outcome⟩ := sizeBuys_cases sized
  · exact .inl rfl
  obtain ⟨enough, rfl⟩ | ⟨short, factor, factorEq, rescaled⟩ := outcome
  · right
    have spent := handed_unscaled (mapM_eq_ok.1 each) costed
    rw [← sum_toRat sum, Dec.toRat_eq_atto, div_left_inj' (by positivity)] at spent
    have equal : costSum costs = total.atto := by exact_mod_cast spent
    rw [Dec.lt_iff, not_lt] at enough
    omega
  have few : Covered ctx.cfg.feeRate buys := by
    obtain ⟨added', total', each', sum', fits⟩ | few := covered
    · obtain rfl := Except.ok.inj (each.symm.trans each')
      obtain rfl := Except.ok.inj (sum.symm.trans sum')
      rw [Dec.lt_iff] at short
      rw [Dec.le_iff] at fits
      omega
    · exact few
  obtain rfl | ⟨cap, factorNonneg, factorLt, product⟩ := commonFactor_toRat few.count short factorEq
  · left
    apply handed_of_zero
    intro q member
    obtain ⟨i, bound, rfl⟩ := List.getElem_of_mem member
    have within : i < buys.length := rescaled.length_eq ▸ bound
    exact (rescale_toRat (wishes _ (List.getElem_mem within)).1 (.inl rfl) (rescaled.get within bound)).2 rfl
  right
  have rate : 0 ≤ ctx.cfg.feeRate.toRat := toRat_nonneg rateNonneg
  have parts : List.Forall₂ (fun c q => q.toRat ≤ c.qty.toRat * factor.toRat ∧ FeeInRange ctx.cfg.feeRate (c, q)) buys
      quantities := by
    rw [List.forall₂_iff_get]
    refine ⟨rescaled.length_eq, fun i within bound => ?_⟩
    have member := List.getElem_mem within
    obtain ⟨wish, price⟩ := wishes _ member
    have step := rescaled.get within bound
    have le := (rescale_toRat wish (.inr ⟨cap, factorNonneg⟩) step).1
    refine ⟨le, feeInRange_of_le rate (toRat_nonneg price.le) (toRat_nonneg (rescale_nonneg magnitudes step)) ?_
      (few.fees _ member)⟩
    exact le.trans (mul_le_of_le_one_right (toRat_nonneg wish) factorLt.le)
  have spent := handed_scaled_le rate parts (fun c member => toRat_nonneg (wishes c member).2.le) costed
  have totalEq : total.toRat = (buys.map fun c => roundedCost ctx.cfg.feeRate.toRat c.qty.toRat c.price.price.toRat).sum := by
    rw [sum_toRat sum, added_toRat few.fees (mapM_eq_ok.1 each)]
  have hidden := mul_le_mul_of_nonneg_left few.hidden factorNonneg
  rw [← totalEq, mul_add] at hidden
  -- the factor takes a little off the hidden units as well
  have share : factor.toRat * ((buys.length + 1) / 10 ^ 18) < (buys.length + 1) / 10 ^ 18 :=
    mul_lt_of_lt_one_left (by positivity) factorLt
  have below : (costSum costs : ℚ) / 10 ^ maxScale < (available.atto + 1) / 10 ^ maxScale := by
    have goal : ((available.atto : ℚ) + 1) / 10 ^ maxScale = available.toRat - buys.length / 10 ^ 8 +
        (buys.length + 1) / 10 ^ 18 + buys.length * ((10 ^ 10 - 1) / 10 ^ 18) := by
      rw [Dec.toRat_eq_atto, maxScale]
      ring
    rw [goal]
    linarith
  rw [div_lt_div_iff_of_pos_right (by positivity)] at below
  have strict : costSum costs < available.atto + 1 := by exact_mod_cast below
  omega

end Budget

/-! ## The increases of a plan -/

section Candidates

theorem sizeLegs_nonneg {m : Managed} {rules : VenueRules} {price : PricePoint} {ws : List LegWish}
    (magnitude : ∀ symbol side wished price q, rules.roundQuantity symbol side wished price = .ok q → 0 ≤ q.atto)
    {residual : Dec} {skipped skipped' : List SkippedTrade} {pending candidates : List Candidate}
    (old : ∀ c ∈ pending, 0 ≤ c.qty.atto)
    (h : sizeLegs m rules price residual skipped pending ws = .ok (skipped', candidates)) :
    ∀ c ∈ candidates, 0 ≤ c.qty.atto := by
  induction ws generalizing residual skipped pending with
  | nil =>
      obtain ⟨-, rfl⟩ := Prod.mk.inj (Except.ok.inj h)
      exact old
  | cons w ws ih =>
      obtain ⟨wished, -, ⟨_, -, -, -, rfl⟩ | ⟨_, -, -, rest⟩ | ⟨qty, left, answer, -, -, rest⟩⟩ := sizeLegs_cases h
      · simp
      · exact ih old rest
      · refine ih ?_ rest
        intro c member
        rw [List.mem_append, List.mem_singleton] at member
        obtain before | rfl := member
        · exact old c before
        · exact magnitude _ _ _ _ _ answer

variable [UnicodeCase]

theorem propose_nonneg {cfg : PlanConfig} {book : VenueRuleBook} {account : AccountView}
    {prices : Std.ExtTreeMap String PricePoint} {base : Dec} {m : Managed} {pr : Proposal} (magnitudes : book.Magnitudes)
    (h : propose cfg book account prices base m = .ok pr) : ∀ c ∈ pr.candidates, 0 ≤ c.qty.atto := by
  obtain ⟨none, -, -⟩ | ⟨price, rules, current, target, skipped, candidates, -, -, known, -, -, trade, rfl⟩ := propose_trades h
  · simp [none]
  · obtain ⟨delta, -, ⟨rfl, -⟩ | ⟨absDelta, legs, -, -, -, sized⟩⟩ := proposeTrade_legs trade
    · simp
    · exact sizeLegs_nonneg (magnitudes _ rules known) (by simp) sized

theorem propose_wishes {cfg : PlanConfig} {book : VenueRuleBook} {account : AccountView}
    {prices : Std.ExtTreeMap String PricePoint} {base : Dec} {m : Managed} {pr : Proposal} (magnitudes : book.Magnitudes)
    (h : propose cfg book account prices base m = .ok pr) :
    ∀ c ∈ pr.candidates, 0 ≤ c.qty.atto ∧ 0 < c.price.price.atto := by
  intro c member
  refine ⟨propose_nonneg magnitudes h c member, ?_⟩
  have proposed := propose_ok h
  cases line : pr.line with
  | none =>
      rw [proposed.unlined line] at member
      cases member
  | some l =>
      obtain ⟨-, -, -, px, -, positive, -, sized⟩ := proposed.lined l line
      rw [sized.price_eq c member]
      exact positive

end Candidates

section Plans

variable [UnicodeCase] [InstantText] [Sha256]

/-- The orders a plan has tried so far. -/
def Placing.tried (st : Placing) : List PlannedOrder := st.placed.map Placed.order ++ st.denied.map DeniedOrder.order

variable {ctx : PlanContext}

/-- What trying one order adds: an order of the candidate, accepted or denied. -/
theorem tryOrder_adds {st st' : Placing} {c : Candidate} {qty : Dec} {accepted : Bool}
    (h : ctx.tryOrder st c qty = .ok (st', accepted)) :
    ∃ cost, orderCost ctx.cfg.feeRate (c, qty) = .ok cost ∧ st'.skipped = st.skipped ∧
      ((st'.placed = st.placed ++ [⟨c, ctx.order c qty cost.1 cost.2⟩] ∧ st'.denied = st.denied) ∨
        ∃ reasons, st'.placed = st.placed ∧ st'.denied = st.denied ++ [⟨ctx.order c qty cost.1 cost.2, reasons⟩]) := by
  obtain ⟨notional, product, h⟩ := bind_eq_ok.1 h
  obtain ⟨fee, charged, h⟩ := bind_eq_ok.1 h
  obtain ⟨usesMargin, -, h⟩ := bind_eq_ok.1 h
  rw [lift_eq_ok] at product charged
  refine ⟨(notional, fee), bind_eq_ok.2 ⟨notional, product, bind_eq_ok.2 ⟨fee, charged, rfl⟩⟩, ?_⟩
  simp only at h
  split at h
  next =>
    obtain ⟨sim, -, h⟩ := bind_eq_ok.1 h
    obtain ⟨left, -, h⟩ := bind_eq_ok.1 h
    obtain ⟨rfl, -⟩ := Prod.mk.inj (Except.ok.inj h)
    exact ⟨rfl, .inl ⟨rfl, rfl⟩⟩
  next =>
    obtain ⟨rfl, -⟩ := Prod.mk.inj (Except.ok.inj h)
    exact ⟨rfl, .inr ⟨_, rfl, rfl⟩⟩

theorem tryOrder_tried {st st' : Placing} {c : Candidate} {qty : Dec} {accepted : Bool}
    (h : ctx.tryOrder st c qty = .ok (st', accepted)) :
    ∃ cost, orderCost ctx.cfg.feeRate (c, qty) = .ok cost ∧
      st'.tried.Perm (ctx.order c qty cost.1 cost.2 :: st.tried) := by
  obtain ⟨cost, priced, -, ⟨placed, denied⟩ | ⟨reasons, placed, denied⟩⟩ := tryOrder_adds h
  · refine ⟨cost, priced, ?_⟩
    rw [Placing.tried, placed, denied, List.map_append, List.append_assoc]
    exact List.perm_middle
  · refine ⟨cost, priced, ?_⟩
    rw [Placing.tried, placed, denied, List.map_append, ← List.append_assoc]
    exact List.perm_append_singleton _ _

theorem placeBuys_tried {available : Dec} {buys : List Candidate} {quantities : List Dec} {st st' : Placing}
    (h : (buys.zip quantities).foldlM (ctx.placeBuy available) st = .ok st') :
    ∃ costs, List.Forall₂ (fun e cost => orderCost ctx.cfg.feeRate e = .ok cost ∧
        ctx.order e.1 e.2 cost.1 cost.2 ∈ st'.tried) (handed buys quantities) costs ∧ ∀ o ∈ st.tried, o ∈ st'.tried := by
  unfold handed
  generalize buys.zip quantities = sized at h
  induction sized generalizing st with
  | nil =>
      obtain rfl := Except.ok.inj h
      exact ⟨[], .nil, fun _ member => member⟩
  | cons e sized ih =>
      rw [List.foldlM_cons] at h
      obtain ⟨next, step, rest⟩ := bind_eq_ok.1 h
      obtain ⟨costs, later, kept⟩ := ih rest
      obtain ⟨c, q⟩ := e
      unfold PlanContext.placeBuy at step
      simp only at step
      split at step
      next zero =>
        obtain rfl := Except.ok.inj step
        refine ⟨costs, ?_, kept⟩
        simpa [zero] using later
      next moved =>
        obtain ⟨⟨after, accepted⟩, attempt, step⟩ := bind_eq_ok.1 step
        obtain rfl := Except.ok.inj step
        obtain ⟨cost, costEq, tried⟩ := tryOrder_tried attempt
        refine ⟨cost :: costs, ?_, fun o member => kept o (tried.mem_iff.2 (List.mem_cons_of_mem _ member))⟩
        rw [Bool.not_eq_true] at moved
        simp only [List.filter_cons, moved, Bool.not_false, if_true]
        exact .cons ⟨costEq, kept _ (tried.mem_iff.2 List.mem_cons_self)⟩ later

/-- The budget of a plan and its increases, after the common factor. -/
structure Budgeted where
  available : Dec
  buys : List Candidate
  quantities : List Dec

/-- The increases that may follow, sized against what is left of the budget. -/
def PlanContext.budgeted (ctx : PlanContext) (capitalBase cash : Dec) (reduced : Placing) (increasers : List Candidate) :
    Except PlanError Budgeted := do
  let buys := increasers.filter (mayFollow reduced.closed)
  let reserve ← ctx.policy.reserveAmount capitalBase
  let available ← DecMath.sub (ctx.budget cash reduced.sim) reserve
  let quantities ← ctx.sizeBuys available buys
  .ok ⟨available, buys, quantities⟩

/-- A plan up to its common factor. -/
def planBudget (targets : List SleeveTarget) (account : AccountView) (prices : Std.ExtTreeMap String PricePoint)
    (book : VenueRuleBook) (policy : Policy) (cfg : PlanConfig) : Except PlanError Budgeted := do
  validate targets account cfg
  let managed ← aggregate targets cfg
  let prices := keyPrices prices
  let capitalBase := policy.capitalBase account.equity account.ccy
  let sim ← revalue prices account
  let proposals ← (inSymbolOrder managed).mapM (propose cfg book account prices capitalBase)
  let lines := proposals.filterMap Proposal.line
  let candidates := proposals.flatMap Proposal.candidates
  let margin ← marginReport policy cfg account.equity capitalBase sim.positions lines
  let start : Placing :=
    ⟨⟨sim, cfg.day⟩, [], [], proposals.flatMap Proposal.skipped, margin.buyingPowerLeft, [], ∅⟩
  let ctx : PlanContext := ⟨account.accountId, policy, book, cfg⟩
  let reduced ← (reducersOf candidates).foldlM ctx.placeReducer start
  ctx.budgeted capitalBase account.cash reduced (increasersOf candidates)

variable {targets : List SleeveTarget} {account : AccountView} {prices : Std.ExtTreeMap String PricePoint}
  {book : VenueRuleBook} {policy : Policy} {cfg : PlanConfig}

omit [InstantText] [Sha256] in
theorem validate_feeRate (h : validate targets account cfg = .ok ()) : 0 ≤ cfg.feeRate.atto := by
  obtain ⟨⟨⟩, params, -⟩ := bind_eq_ok.1 h
  unfold validateParams at params
  split at params
  · cases params
  split at params
  · cases params
  split at params
  · cases params
  split at params
  · cases params
  next rate =>
  rw [not_or, Dec.isNegative_iff, not_lt] at rate
  exact rate.1

/-- The candidates of a plan. -/
def candidatesOf (prs : List Proposal) : List Candidate := prs.flatMap Proposal.candidates

/-- The stages of a plan: the proposals, the reductions, the budget, the increases. -/
structure Stages (targets : List SleeveTarget) (account : AccountView) (prices : Std.ExtTreeMap String PricePoint)
    (book : VenueRuleBook) (policy : Policy) (cfg : PlanConfig) (ctx : PlanContext) (p : OrderPlan) (placed : List Placed)
    (managed : Std.ExtTreeMap String Managed) (prs : List Proposal) (start reduced finish : Placing) (b : Budgeted) :
    Prop where
  valid : validate targets account cfg = .ok ()
  named : aggregate targets cfg = .ok managed
  each : List.Forall₂ (fun m pr => propose cfg book account (keyPrices prices)
    (policy.capitalBase account.equity account.ccy) m = .ok pr) (inSymbolOrder managed) prs
  starts : start.placed = [] ∧ start.denied = [] ∧ start.skipped = prs.flatMap Proposal.skipped
  reductions : (reducersOf (candidatesOf prs)).foldlM ctx.placeReducer start = .ok reduced
  budget : planBudget targets account prices book policy cfg = .ok b
  buys : b.buys = (increasersOf (candidatesOf prs)).filter (mayFollow reduced.closed)
  sized : ctx.sizeBuys b.available b.buys = .ok b.quantities
  increases : (b.buys.zip b.quantities).foldlM (ctx.placeBuy b.available)
    { reduced with skipped := reduced.skipped ++
        ((increasersOf (candidatesOf prs)).filter fun c => !mayFollow reduced.closed c).map fun c =>
          skipTrade c.m .flipCloseLegNotPlaced } = .ok finish
  placed_eq : placed = finish.placed
  orders : p.orders = finish.placed.map Placed.order
  denied : p.denied = finish.denied
  skipped : p.skipped = finish.skipped
  lines : p.lines = prs.filterMap Proposal.line

theorem planTraced_stages {p : OrderPlan} {placed : List Placed}
    (h : planTraced targets account prices book policy cfg = .ok (p, placed)) :
    ∃ managed prs start reduced finish b, Stages targets account prices book policy cfg
      ⟨account.accountId, policy, book, cfg⟩ p placed managed prs start reduced finish b := by
  unfold planTraced at h
  obtain ⟨⟨⟩, valid, h⟩ := bind_eq_ok.1 h
  obtain ⟨managed, named, h⟩ := bind_eq_ok.1 h
  obtain ⟨sim, valued, h⟩ := bind_eq_ok.1 h
  obtain ⟨prs, proposed, h⟩ := bind_eq_ok.1 h
  obtain ⟨margin, reported, h⟩ := bind_eq_ok.1 h
  obtain ⟨finish, place, h⟩ := bind_eq_ok.1 h
  obtain ⟨reduced, reductions, place⟩ := bind_eq_ok.1 place
  obtain ⟨reserve, reserved, place⟩ := bind_eq_ok.1 place
  obtain ⟨available, left, place⟩ := bind_eq_ok.1 place
  obtain ⟨quantities, sized, place⟩ := bind_eq_ok.1 place
  have budget : planBudget targets account prices book policy cfg =
      .ok ⟨available, (increasersOf (candidatesOf prs)).filter (mayFollow reduced.closed), quantities⟩ := by
    unfold planBudget
    refine bind_eq_ok.2 ⟨_, valid, bind_eq_ok.2 ⟨_, named, bind_eq_ok.2 ⟨_, valued, bind_eq_ok.2 ⟨_, proposed, ?_⟩⟩⟩⟩
    refine bind_eq_ok.2 ⟨_, reported, bind_eq_ok.2 ⟨_, reductions, ?_⟩⟩
    exact bind_eq_ok.2 ⟨_, reserved, bind_eq_ok.2 ⟨_, left, bind_eq_ok.2 ⟨_, sized, rfl⟩⟩⟩
  simp only at h
  split at h
  next => cases h
  next =>
    obtain ⟨rfl, rfl⟩ := Prod.mk.inj (Except.ok.inj h)
    refine ⟨managed, prs, ⟨⟨sim, cfg.day⟩, [], [], prs.flatMap Proposal.skipped, margin.buyingPowerLeft, [], ∅⟩, reduced,
      finish, ⟨available, (increasersOf (candidatesOf prs)).filter (mayFollow reduced.closed), quantities⟩, ?_⟩
    exact ⟨valid, named, mapM_eq_ok.1 proposed, ⟨rfl, rfl, rfl⟩, reductions, budget, rfl, sized, place, rfl, rfl, rfl, rfl,
      rfl⟩

theorem Stages.wishes {p : OrderPlan} {placed : List Placed} {managed : Std.ExtTreeMap String Managed}
    {prs : List Proposal} {start reduced finish : Placing} {b : Budgeted}
    (stages : Stages targets account prices book policy cfg ctx p placed managed prs start reduced finish b)
    (magnitudes : book.Magnitudes) : ∀ c ∈ b.buys, 0 ≤ c.qty.atto ∧ 0 < c.price.price.atto := by
  intro c member
  rw [stages.buys] at member
  have inside := (List.mem_filter.1 member).1
  rw [increasersOf, List.mem_insertionSort, List.mem_filter, candidatesOf, List.mem_flatMap] at inside
  obtain ⟨⟨pr, known, own⟩, -⟩ := inside
  obtain ⟨i, bound, rfl⟩ := List.getElem_of_mem known
  have within : i < (inSymbolOrder managed).length := stages.each.length_eq ▸ bound
  exact propose_wishes magnitudes (stages.each.get within bound) c own

end Plans

namespace OrderPlanner

/-- The increases of every plan: each is sized at most as wished, each that is not zero
    goes to the guard with its notional and fee, and together they cost at most what is
    available, if they fit as wished or their floors hide at most one unit of the last
    digit for each of them and one more. -/
theorem increases_fit_budget [UnicodeCase] [InstantText] [Sha256] (targets : List SleeveTarget) (account : AccountView)
    (prices : Std.ExtTreeMap String PricePoint) (book : VenueRuleBook) (policy : Policy) (cfg : PlanConfig)
    (p : OrderPlan) (planned : plan targets account prices book policy cfg = .ok p) (magnitudes : book.Magnitudes) :
    let ctx : PlanContext := ⟨account.accountId, policy, book, cfg⟩
    ∃ b costs, planBudget targets account prices book policy cfg = .ok b ∧
      List.Forall₂ (fun e cost => orderCost cfg.feeRate e = .ok cost ∧
        ctx.order e.1 e.2 cost.1 cost.2 ∈ p.orders ++ p.denied.map DeniedOrder.order) (handed b.buys b.quantities) costs ∧
      (∀ e ∈ b.buys.zip b.quantities, e.2.atto ≤ e.1.qty.atto) ∧
      (ctx.Unscaled b.available b.buys ∨ Covered cfg.feeRate b.buys →
        handed b.buys b.quantities = [] ∨ costSum costs ≤ b.available.atto) := by
  obtain ⟨placed, traced⟩ := plan_ok planned
  obtain ⟨managed, prs, start, reduced, finish, b, stages⟩ := planTraced_stages traced
  obtain ⟨costs, costed, -⟩ := placeBuys_tried stages.increases
  have wishes := stages.wishes magnitudes
  have rate := validate_feeRate stages.valid
  refine ⟨b, costs, stages.budget, ?_, ?_, ?_⟩
  · rw [stages.orders, stages.denied]
    exact costed
  · intro e member
    have wish := (wishes e.1 (List.of_mem_zip member).1).1
    rcases lt_or_ge 0 e.2.atto with positive | nonpos
    · exact sizeBuys_le stages.sized e member positive
    · exact nonpos.trans wish
  · intro covered
    have paid := costed.imp fun _ _ paid => paid.1
    exact sizeBuys_fits magnitudes rate wishes stages.sized paid covered

namespace TightCash

open Amount (cents)

attribute [local instance] asciiCase epochText ShortBook.flatHash

/-- A venue that takes every positive size. -/
def positiveSize : VenueRules :=
  ⟨fun _ _ quantity _ => if quantity.isPositive then .ok quantity else .error .roundsToZero, fun symbol => symbol⟩

def market : VenueRuleBook := ⟨.ofList [("kraken", positiveSize)], InstrumentRules.empty⟩

theorem market_magnitudes : market.Magnitudes := by
  intro venue rules known symbol side wished price q answer
  have only : rules = positiveSize := by
    rw [VenueRuleBook.get, market, Std.ExtTreeMap.ofList_singleton, Std.ExtTreeMap.getElem?_insert] at known
    split at known
    · exact (Option.some.inj known).symm
    · simp at known
  subst only
  simp only [positiveSize] at answer
  split at answer
  next positive =>
    obtain rfl := Except.ok.inj answer
    exact (Dec.isPositive_iff.1 positive).le
  next => cases answer

/-- No cash reserve, and room for every order below. -/
def openMandate : Policy where
  bodyHash := "0"
  envelope := some ⟨1, .active, 0, 31536000000000000⟩
  maxPriceAgeSecs := ⟨300, fiveMinutes_fits⟩
  body := .valid
    { ccy := "USD"
      allocated := cents 100000
      minCashReserve := cents 0
      instrumentAllow := .ofList ["ADA", "XRP"]
      instrumentDeny := ∅
      venues := .ofList ["kraken"]
      assetClasses := .ofList ["crypto"]
      shorting := false
      derivatives := false
      leverageMaxGross := cents 100
      maxPosition := cents 100
      maxAssetClass := ∅
      maxGross := cents 100
      maxNet := cents 100
      maxOrderNotional := cents 100000
      maxOrdersPerDay := 10
      maxTurnoverPerDay := cents 100
      classes_lower := noClasses_lower }

/-- One unit of capital, and the given cash. -/
def cashOf (cash : Dec) : AccountView where
  accountId := "acct"
  ccy := "USD"
  equity := cents 100
  cash := cash
  positions := []
  halted := false
  now := 0

def quotes (price : Dec) : Std.ExtTreeMap String PricePoint :=
  ((∅ : Std.ExtTreeMap String PricePoint).insert "ADA" ⟨price, 0⟩).insert "XRP" ⟨price, 0⟩

/-- A hundredth of the capital in each instrument. -/
def hundredths (symbols : List String) : List SleeveTarget :=
  [⟨"trend", Dec.one, "kraken", "crypto", symbols.map fun symbol => ⟨symbol, (cents 1 : Dec)⟩⟩]

def feeRun (rate : Dec) : PlanConfig :=
  { ShortBook.scaledRun Dec.one with feeRate := rate, signedSleeves := ∅, buyingPower := none }

def oddRate : Dec := ⟨⟨10000000000000099, by decide⟩, 18, Dec.scale_eighteen⟩

def shortCash : Dec := ⟨⟨16119620000000041, by decide⟩, 18, Dec.scale_eighteen⟩

/-- Half of the cash a buy of a hundredth needs. -/
def halfCent : Dec := ⟨⟨5, Dec.fits_five⟩, 3, Dec.scale_three⟩

theorem half_cent_buy_covered (c : Candidate) (qty : c.qty.toRat = 1 / 50) (price : c.price.price.toRat = 1 / 2) :
    Covered Dec.zero [c] := by
  have none : (Dec.zero : Dec).toRat = 0 := toRat_zero_of_isZero rfl
  constructor
  case count => simp
  case fees =>
    intro c' member
    obtain rfl := List.mem_singleton.1 member
    simp [FeeInRange, none, InRange8]
  case hidden =>
    have cent : floor18 (1 / 50 * (1 / 2)) = 1 / 100 := by
      have value : (cents 1 : Dec).toRat = 1 / 50 * (1 / 2) := by
        rw [Dec.toRat_eq_atto, show (cents 1 : Dec).atto = 10 ^ 16 by decide +kernel]
        norm_num [maxScale]
      rw [← value, floor18_toRat, value]
      norm_num
    simp only [List.map_cons, List.map_nil, List.sum_cons, List.sum_nil, exactCost, roundedCost, none, qty, price, cent,
      mul_zero, floor18_zero, ceil8_zero]
    norm_num

/-- With half of the cash, the buy is scaled and fits. -/
theorem half_cash_buy_fits :
    ∃ p b costs, plan (hundredths ["ADA"]) (cashOf halfCent) (quotes ⟨⟨5, by decide⟩, 1, by decide⟩) market openMandate
        (feeRun Dec.zero) = .ok p ∧
      planBudget (hundredths ["ADA"]) (cashOf halfCent) (quotes ⟨⟨5, by decide⟩, 1, by decide⟩) market openMandate
        (feeRun Dec.zero) = .ok b ∧
      (b.quantities.map Dec.atto, b.available.atto) = ([9999980000000000], 5 * 10 ^ 15) ∧
      (handed b.buys b.quantities).mapM (orderCost Dec.zero) = .ok costs ∧
      (handed b.buys b.quantities = [] ∨ costSum costs ≤ b.available.atto) := by
  have buys : (planBudget (hundredths ["ADA"]) (cashOf halfCent) (quotes ⟨⟨5, by decide⟩, 1, by decide⟩) market openMandate
      (feeRun Dec.zero)).map (fun b => (b.buys.map fun c => (c.qty.atto, c.price.price.atto), b.quantities.map Dec.atto,
        b.available.atto)) = .ok ([(2 * 10 ^ 16, 5 * 10 ^ 17)], [9999980000000000], 5 * 10 ^ 15) := by decide +kernel
  have succeeds : (plan (hundredths ["ADA"]) (cashOf halfCent) (quotes ⟨⟨5, by decide⟩, 1, by decide⟩) market openMandate
      (feeRun Dec.zero)).toBool = true := by decide +kernel
  cases planned : plan (hundredths ["ADA"]) (cashOf halfCent) (quotes ⟨⟨5, by decide⟩, 1, by decide⟩) market openMandate
      (feeRun Dec.zero) with
  | error e =>
      rw [planned] at succeeds
      cases succeeds
  | ok p =>
      obtain ⟨b, costs, budget, costed, -, fits⟩ := increases_fit_budget _ _ _ _ _ _ p planned market_magnitudes
      rw [budget] at buys
      obtain ⟨wishes, rest⟩ := Prod.mk.inj (Except.ok.inj buys)
      obtain ⟨c, only, values⟩ := List.map_eq_singleton_iff.1 wishes
      obtain ⟨qty, price⟩ := Prod.mk.inj values
      refine ⟨p, b, costs, rfl, budget, rest, mapM_eq_ok.2 (costed.imp fun _ _ paid => paid.1), fits (.inr ?_)⟩
      rw [only]
      apply half_cent_buy_covered
      · rw [Dec.toRat_eq_atto, qty]
        norm_num [maxScale]
      · rw [Dec.toRat_eq_atto, price]
        norm_num [maxScale]

def thirtyCents : Dec := ⟨⟨3, by decide +kernel⟩, 1, Dec.scale_one⟩

/-- The two buys are scaled to one unit of the last digit more than there is. -/
theorem scaled_buys_exceed_cash :
    ∃ p b costs, plan (hundredths ["ADA", "XRP"]) (cashOf shortCash) (quotes thirtyCents) market openMandate
        (feeRun oddRate) = .ok p ∧
      planBudget (hundredths ["ADA", "XRP"]) (cashOf shortCash) (quotes thirtyCents) market openMandate
        (feeRun oddRate) = .ok b ∧
      (handed b.buys b.quantities).mapM (orderCost oddRate) = .ok costs ∧ handed b.buys b.quantities ≠ [] ∧
      b.available.atto = 16119620000000041 ∧ costSum costs = 16119620000000042 ∧ ¬ costSum costs ≤ b.available.atto := by
  have spent : (planBudget (hundredths ["ADA", "XRP"]) (cashOf shortCash) (quotes thirtyCents) market openMandate
      (feeRun oddRate)).map (fun b => (b.available.atto, (handed b.buys b.quantities).length,
        ((handed b.buys b.quantities).mapM (orderCost oddRate)).map costSum)) =
      .ok (16119620000000041, 2, .ok 16119620000000042) := by decide +kernel
  have succeeds : (plan (hundredths ["ADA", "XRP"]) (cashOf shortCash) (quotes thirtyCents) market openMandate
      (feeRun oddRate)).toBool = true := by decide +kernel
  cases planned : plan (hundredths ["ADA", "XRP"]) (cashOf shortCash) (quotes thirtyCents) market openMandate
      (feeRun oddRate) with
  | error e =>
      rw [planned] at succeeds
      cases succeeds
  | ok p =>
      cases budget : planBudget (hundredths ["ADA", "XRP"]) (cashOf shortCash) (quotes thirtyCents) market openMandate
          (feeRun oddRate) with
      | error e =>
          rw [budget] at spent
          cases spent
      | ok b =>
          rw [budget] at spent
          obtain ⟨available, count, total⟩ : b.available.atto = 16119620000000041 ∧
              (handed b.buys b.quantities).length = 2 ∧
              ((handed b.buys b.quantities).mapM (orderCost oddRate)).map costSum = .ok 16119620000000042 := by
            simpa using Except.ok.inj spent
          cases costed : (handed b.buys b.quantities).mapM (orderCost oddRate) with
          | error e =>
              rw [costed] at total
              cases total
          | ok costs =>
              rw [costed] at total
              have sum : costSum costs = 16119620000000042 := Except.ok.inj total
              refine ⟨p, b, costs, rfl, rfl, costed, ?_, available, sum, ?_⟩
              · intro none
                rw [none] at count
                cases count
              · omega

end TightCash

end OrderPlanner

end RebalancerCore
