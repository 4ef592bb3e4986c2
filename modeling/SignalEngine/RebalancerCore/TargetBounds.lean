import SignalEngine.RebalancerCore.Targets
import SignalEngine.BrokerAdapters.DecimalRounding

/-! # Targets of a long-only plan

Without signed sleeves every validated weight and share is a fraction, no sleeve
names an instrument twice and the shares sum to at most one. So the weight of a
managed instrument is a fraction as well, and its target is not negative.
-/

open MachineInt BrokerAdapters Outcome Text

namespace RebalancerCore

def IsFraction (d : Dec) : Prop := 0 ≤ d.atto ∧ d.atto ≤ 10 ^ maxScale

theorem atto_one : Dec.one.atto = 10 ^ maxScale := by decide

theorem mul_fraction {a f z : Dec} (nonneg : 0 ≤ a.atto) (fraction : IsFraction f)
    (h : DecMath.mul a f = .ok z) : 0 ≤ z.atto ∧ z.atto ≤ a.atto := by
  rw [DecMath.mul_ok h]
  constructor
  · exact Int.ediv_nonneg (mul_nonneg nonneg fraction.1) (Dec.ten_pow_pos _).le
  · apply Int.ediv_le_of_le_mul (Dec.ten_pow_pos _)
    exact Int.mul_le_mul_of_nonneg_left fraction.2 nonneg

section Validated

variable [UnicodeCase]

/-- A sleeve whose weights are fractions of distinct instruments. -/
structure FairSleeve (t : SleeveTarget) : Prop where
  share : 0 ≤ t.share.atto
  weights : ∀ w ∈ t.weights, IsFraction w.weight
  once : (t.weights.map fun w => upperName w.symbol).Nodup

theorem validateWeights_ok {sleeve : String} {seen : Std.ExtTreeSet String} {total total' : Dec}
    {ws : List TargetWeight}
    (h : validateWeights sleeve .longOnlyUnit seen total ws = .ok total') :
    (∀ w ∈ ws, IsFraction w.weight) ∧ (ws.map fun w => upperName w.symbol).Nodup ∧
      ∀ w ∈ ws, upperName w.symbol ∉ seen := by
  induction ws generalizing seen total with
  | nil => simp
  | cons w ws ih =>
      obtain ⟨⟨⟩, bounded, h⟩ := bind_eq_ok.1 h
      split at h
      next => cases h
      next fresh =>
          obtain ⟨sum, -, h⟩ := bind_eq_ok.1 h
          obtain ⟨fractions, once, unseen⟩ := ih h
          have fraction : IsFraction w.weight := by
            simp only [validateWeight] at bounded
            split at bounded
            next => cases bounded
            next within =>
                rw [not_or, Dec.isNegative_iff, Dec.lt_iff, not_lt, not_lt, atto_one] at within
                exact within
          have new : ∀ w' ∈ ws, upperName w'.symbol ≠ upperName w.symbol := by
            intro w' member same
            apply unseen w' member
            rw [same]
            exact Std.ExtTreeSet.mem_insert_self
          refine ⟨?_, ?_, ?_⟩
          · simp only [List.mem_cons, forall_eq_or_imp]
            exact ⟨fraction, fractions⟩
          · rw [List.map_cons, List.nodup_cons]
            refine ⟨?_, once⟩
            intro member
            obtain ⟨w', inside, same⟩ := List.mem_map.1 member
            exact new w' inside same
          · simp only [List.mem_cons, forall_eq_or_imp]
            refine ⟨?_, ?_⟩
            · simpa [Std.ExtTreeSet.contains_iff_mem] using fresh
            · intro w' member inside
              exact unseen w' member (Std.ExtTreeSet.mem_insert.2 (.inr inside))

omit [UnicodeCase] in
theorem PlanConfig.boundsFor_unsigned {cfg : PlanConfig} (unsigned : cfg.isSigned = false)
    (sleeve : String) : cfg.boundsFor sleeve = .longOnlyUnit := by
  have none : cfg.signedSleeves = ∅ := by
    simpa [PlanConfig.isSigned] using unsigned
  simp [PlanConfig.boundsFor, none]

def sharesOf (ts : List SleeveTarget) : Int := (ts.map fun t => t.share.atto).sum

theorem validateSleeves_ok {cfg : PlanConfig} (unsigned : cfg.isSigned = false)
    {seen : Std.ExtTreeSet String} {total total' : Dec} {ts : List SleeveTarget}
    (h : validateSleeves cfg seen total ts = .ok total') :
    (∀ t ∈ ts, FairSleeve t) ∧ total'.atto = total.atto + sharesOf ts := by
  induction ts generalizing seen total with
  | nil =>
      obtain rfl := Except.ok.inj h
      simp [sharesOf]
  | cons t ts ih =>
      unfold validateSleeves at h
      split at h
      next => cases h
      next =>
          split at h
          next => cases h
          next share =>
              obtain ⟨sum, added, h⟩ := bind_eq_ok.1 h
              obtain ⟨⟨⟩, sleeve, h⟩ := bind_eq_ok.1 h
              rw [lift_eq_ok] at added
              obtain ⟨fair, totalEq⟩ := ih h
              rw [not_or, Dec.le_iff, Dec.atto_zero, not_le] at share
              obtain ⟨weightSum, weights, -⟩ := bind_eq_ok.1 sleeve
              rw [PlanConfig.boundsFor_unsigned unsigned] at weights
              obtain ⟨fractions, once, -⟩ := validateWeights_ok weights
              refine ⟨?_, ?_⟩
              · simp only [List.mem_cons, forall_eq_or_imp]
                exact ⟨⟨share.1.le, fractions, once⟩, fair⟩
              · rw [totalEq, DecMath.add_ok added]
                simp only [sharesOf, List.map_cons, List.sum_cons]
                omega

omit [UnicodeCase] in
theorem validateParams_ok {account : AccountView} {cfg : PlanConfig} (h : validateParams account cfg = .ok ()) :
    0 < cfg.riskScale.atto ∧ cfg.riskScale.atto ≤ 10 ^ maxScale ∧ 0 < account.equity.atto := by
  unfold validateParams at h
  split at h
  · cases h
  next scale =>
  rw [not_or, Dec.le_iff, Dec.lt_iff, Dec.atto_zero, atto_one, not_le, not_lt] at scale
  split at h
  · cases h
  split at h
  · cases h
  split at h
  · cases h
  split at h
  · cases h
  next equity =>
  rw [Bool.not_eq_true', Bool.not_eq_false, Dec.isPositive_iff] at equity
  exact ⟨scale.1, scale.2, equity⟩

theorem validate_ok {targets : List SleeveTarget} {account : AccountView} {cfg : PlanConfig}
    (unsigned : cfg.isSigned = false) (h : validate targets account cfg = .ok ()) :
    (∀ t ∈ targets, FairSleeve t) ∧ sharesOf targets ≤ 10 ^ maxScale ∧
      IsFraction cfg.riskScale ∧ 0 < account.equity.atto := by
  obtain ⟨⟨⟩, params, h⟩ := bind_eq_ok.1 h
  obtain ⟨⟨⟩, -, h⟩ := bind_eq_ok.1 h
  obtain ⟨total, sleeves, h⟩ := bind_eq_ok.1 h
  obtain ⟨fair, totalEq⟩ := validateSleeves_ok unsigned sleeves
  split at h
  next => cases h
  next small =>
      rw [Dec.lt_iff, not_lt, atto_one, totalEq, Dec.atto_zero, zero_add] at small
      refine ⟨fair, small, ?_⟩
      obtain ⟨positive, most, equity⟩ := validateParams_ok params
      exact ⟨⟨positive.le, most⟩, equity⟩

end Validated

section Weights

variable [UnicodeCase] {cfg : PlanConfig} {targets : List SleeveTarget}
  {managed managed' : Std.ExtTreeMap String Managed}

/-- Every weight so far is between zero and the bound of its symbol. -/
def Weighted (bound : String → Int) (managed : Std.ExtTreeMap String Managed) : Prop :=
  ∀ (k : String) (m : Managed), managed[k]? = some m → 0 ≤ m.weight.atto ∧ m.weight.atto ≤ bound k

omit [UnicodeCase] in
theorem Weighted.mono {bound bound' : String → Int} (weighted : Weighted bound managed)
    (le : ∀ k, bound k ≤ bound' k) : Weighted bound' managed := by
  intro k m found
  obtain ⟨nonneg, small⟩ := weighted k m found
  exact ⟨nonneg, small.trans (le k)⟩

theorem aggregateWeight_weighted {bound : String → Int} {t : SleeveTarget} {w : TargetWeight}
    (boundNonneg : ∀ k, 0 ≤ bound k) (share : 0 ≤ t.share.atto) (fraction : IsFraction w.weight)
    (weighted : Weighted bound managed) (h : aggregateWeight cfg t managed w = .ok managed') :
    Weighted (fun k => bound k + if k = upperName w.symbol then t.share.atto else 0) managed' := by
  refine aggregateWeight_entries h ?_ ?_ ?_
  · intro k m known
    obtain ⟨low, high⟩ := weighted k m known
    refine ⟨low, ?_⟩
    dsimp only
    split <;> omega
  · intro m contribution sum known product added
    obtain ⟨nonneg, small⟩ := mul_fraction share fraction product
    obtain ⟨low, high⟩ := weighted _ m known
    simp only [Managed.join, DecMath.add_ok added, if_true]
    omega
  · intro contribution product
    obtain ⟨nonneg, small⟩ := mul_fraction share fraction product
    have room := boundNonneg (upperName w.symbol)
    simp only [Managed.wanted, if_true]
    omega

theorem aggregateSleeve_weighted {bound : String → Int} {t : SleeveTarget} {ws : List TargetWeight}
    (boundNonneg : ∀ k, 0 ≤ bound k) (share : 0 ≤ t.share.atto)
    (fractions : ∀ w ∈ ws, IsFraction w.weight) (once : (ws.map fun w => upperName w.symbol).Nodup)
    (weighted : Weighted bound managed) (h : ws.foldlM (aggregateWeight cfg t) managed = .ok managed') :
    Weighted (fun k => bound k +
      if k ∈ ws.map (fun w => upperName w.symbol) then t.share.atto else 0) managed' := by
  induction ws generalizing managed bound with
  | nil =>
      obtain rfl := Except.ok.inj h
      simpa using weighted
  | cons w ws ih =>
      rw [List.foldlM_cons] at h
      obtain ⟨next, head, tail⟩ := bind_eq_ok.1 h
      obtain ⟨fresh, once⟩ := List.nodup_cons.1 once
      have first := aggregateWeight_weighted boundNonneg share (fractions w (by simp)) weighted head
      have boundNonneg' : ∀ k,
          0 ≤ bound k + if k = upperName w.symbol then t.share.atto else 0 := by
        intro k
        have room := boundNonneg k
        split <;> omega
      refine (ih boundNonneg' (fun w' member => fractions w' (by simp [member])) once first
        tail).mono ?_
      intro k
      by_cases same : k = upperName w.symbol
      · rw [same, if_pos rfl, if_neg fresh, if_pos (by simp)]
        omega
      · simp [same]

theorem aggregate_weighted {used : Int} (fair : ∀ t ∈ targets, FairSleeve t) (nonneg : 0 ≤ used)
    (weighted : Weighted (fun _ => used) managed)
    (h : targets.foldlM (fun managed t => t.weights.foldlM (aggregateWeight cfg t) managed) managed =
      .ok managed') : Weighted (fun _ => used + sharesOf targets) managed' := by
  induction targets generalizing managed used with
  | nil =>
      obtain rfl := Except.ok.inj h
      simpa [sharesOf] using weighted
  | cons t ts ih =>
      rw [List.foldlM_cons] at h
      obtain ⟨next, head, tail⟩ := bind_eq_ok.1 h
      have own := fair t (by simp)
      have share := own.share
      have sleeve := aggregateSleeve_weighted (fun _ => nonneg) share own.weights own.once weighted
        head
      have grown : Weighted (fun _ => used + t.share.atto) next := by
        apply sleeve.mono
        intro k
        split <;> omega
      have rest := ih (fun t' member => fair t' (by simp [member])) (add_nonneg nonneg share) grown
        tail
      apply rest.mono
      intro k
      simp only [sharesOf, List.map_cons, List.sum_cons]
      omega

theorem aggregate_fraction (fair : ∀ t ∈ targets, FairSleeve t)
    (whole : sharesOf targets ≤ 10 ^ maxScale) (h : aggregate targets cfg = .ok managed) :
    ∀ (k : String) (m : Managed), managed[k]? = some m → IsFraction m.weight := by
  intro k m found
  have none : Weighted (fun _ => 0) (∅ : Std.ExtTreeMap String Managed) := by simp [Weighted]
  obtain ⟨low, high⟩ := aggregate_weighted fair le_rfl none h k m found
  simp only [zero_add] at high
  exact ⟨low, high.trans whole⟩

end Weights

theorem liftFits_of_le {a z : Dec} (fits : a.LiftFits 8) (nonneg : 0 ≤ z.atto)
    (le : z.atto ≤ a.atto) : z.LiftFits 8 := by
  intro within scale
  have lifted : ∀ d : Dec, d.scale ≤ 8 → d.atto = d.units.val * 10 ^ (8 - d.scale) * 10 ^ 10 := by
    intro d small
    rw [Dec.atto, mul_assoc, ← pow_add]
    congr 2
    simp only [maxScale]
    omega
  have upper : a.atto < 2 ^ 127 * 10 ^ 10 := by
    rcases le_or_gt a.scale 8 with small | large
    · have bound := fits within small
      rw [lifted a small]
      unfold Fits at bound
      omega
    · have bound := a.units.fits
      have power : (10 : Int) ^ (maxScale - a.scale) ≤ 10 ^ 10 :=
        pow_le_pow_right₀ (by decide) (by simp only [maxScale]; omega)
      unfold Fits at bound
      rw [Dec.atto]
      rcases le_or_gt 0 a.units.val with long | short
      · have product := Int.mul_le_mul_of_nonneg_left power long
        omega
      · have negative := mul_neg_of_neg_of_pos short (Dec.ten_pow_pos (maxScale - a.scale))
        omega
  have value := lifted z scale
  unfold Fits
  omega

theorem targetNotional_nonneg {cfg : PlanConfig} {base target : Dec} {m : Managed}
    (fits : base.LiftFits 8) (nonneg : 0 ≤ base.atto) (weight : IsFraction m.weight)
    (scale : IsFraction cfg.riskScale) (h : targetNotional cfg base m = .ok target) :
    0 ≤ target.atto := by
  obtain ⟨wanted, share, h⟩ := bind_eq_ok.1 h
  obtain ⟨scaled, risk, h⟩ := bind_eq_ok.1 h
  obtain ⟨wantedNonneg, wantedLe⟩ := mul_fraction nonneg weight share
  obtain ⟨scaledNonneg, scaledLe⟩ := mul_fraction wantedNonneg scale risk
  have calm := liftFits_of_le fits scaledNonneg (scaledLe.trans wantedLe)
  have long : scaled.isNegative = false := by
    rw [Bool.eq_false_iff, Ne, Dec.isNegative_iff]
    omega
  simp only [roundTowardZero, long, Bool.false_eq_true, if_false] at h
  obtain ⟨exact', rounded, -, value⟩ := Dec.roundDpCalc_exact scaled .floor (by decide) calm
  have result : scaled.roundDp 8 .floor = .ok exact' := by
    rw [Dec.roundDp, rounded]
    rfl
  have same : target = exact' := by
    simp only [DecMath.roundDp, result, Except.ok.injEq] at h
    exact h.symm
  have scaledRat : 0 ≤ scaled.toRat := by
    rw [Dec.toRat_eq_atto]
    exact div_nonneg (by exact_mod_cast scaledNonneg) (by positivity)
  have targetRat : 0 ≤ target.toRat := by
    rw [same, value]
    apply div_nonneg _ (by positivity)
    exact_mod_cast Int.floor_nonneg.2 (mul_nonneg scaledRat (by positivity))
  rw [Dec.toRat_eq_atto] at targetRat
  by_contra negative
  have below : (target.atto : ℚ) / 10 ^ maxScale < 0 :=
    div_neg_of_neg_of_pos (by exact_mod_cast not_le.1 negative) (by positivity)
  linarith

end RebalancerCore
