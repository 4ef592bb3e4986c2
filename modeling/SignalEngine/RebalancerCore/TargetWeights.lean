import SignalEngine.RebalancerCore.ScaleMonotone

/-! # Targets within the capital

The weights of the instruments are what the sleeves give them, product by product and
each rounded down. The sleeves of a long-only plan give at most all of the capital, so
its targets cost at most the capital base at the risk scale.
-/

open MachineInt BrokerAdapters Outcome Text TowardZero

namespace RebalancerCore

/-! ## Sums by key -/

theorem sum_filter_le {α κ : Type} [DecidableEq κ] (key : α → κ) {size : α → ℚ} (nonneg : ∀ a, 0 ≤ size a) {keys : List κ}
    (nodup : keys.Nodup) (items : List α) :
    (keys.map fun k => ((items.filter fun a => key a = k).map size).sum).sum ≤ (items.map size).sum := by
  induction items with
  | nil => simp
  | cons a items ih =>
      have own : (keys.map fun k => if key a = k then size a else 0).sum ≤ size a := by
        clear ih
        induction keys with
        | nil => simpa using nonneg a
        | cons k keys ih =>
            obtain ⟨fresh, nodup⟩ := List.nodup_cons.1 nodup
            rw [List.map_cons, List.sum_cons]
            by_cases here : key a = k
            · have others : (keys.map fun k => if key a = k then size a else 0).sum = 0 := by
                apply List.sum_eq_zero
                intro x member
                obtain ⟨k', inKeys, rfl⟩ := List.mem_map.1 member
                exact if_neg fun same => fresh (by rwa [← here, same])
              rw [if_pos here, others, add_zero]
            · rw [if_neg here, zero_add]
              exact ih nodup
      have split : (keys.map fun k => (((a :: items).filter fun a => key a = k).map size).sum) =
          keys.map fun k => (if key a = k then size a else 0) + ((items.filter fun a => key a = k).map size).sum := by
        apply List.map_congr_left
        intro k _
        by_cases here : key a = k <;> simp [here]
      rw [split, List.sum_map_add, List.map_cons, List.sum_cons]
      exact add_le_add own ih

/-! ## Products rounded down -/

theorem floor18_gt (x : ℚ) : x - 1 / 10 ^ maxScale < floor18 x := by
  unfold floor18
  rw [lt_div_iff₀ (by positivity), sub_mul, one_div, inv_mul_cancel₀ (by positivity)]
  exact Int.sub_one_lt_floor _

theorem abs_floor18_le (x : ℚ) : |floor18 x| ≤ |x| + 1 / 10 ^ maxScale := by
  have low := floor18_gt x
  have high := floor18_le x
  have bound := neg_abs_le x
  have bound' := le_abs_self x
  have unit : (0 : ℚ) ≤ 1 / 10 ^ maxScale := by positivity
  rw [abs_le]
  constructor
  · linarith
  · linarith

/-! ## What is validated -/

section Validated

variable [UnicodeCase]

def weightsOf (ws : List TargetWeight) : Int := (ws.map fun w => w.weight.atto).sum

theorem validateWeights_total {sleeve : String} {bounds : WeightBounds} {seen : Std.ExtTreeSet String} {total total' : Dec}
    {ws : List TargetWeight} (h : validateWeights sleeve bounds seen total ws = .ok total') :
    total'.atto = total.atto + weightsOf ws := by
  induction ws generalizing seen total with
  | nil =>
      obtain rfl := Except.ok.inj h
      simp [weightsOf]
  | cons w ws ih =>
      obtain ⟨⟨⟩, -, h⟩ := bind_eq_ok.1 h
      split at h
      next => cases h
      next =>
        obtain ⟨sum, added, h⟩ := bind_eq_ok.1 h
        rw [lift_eq_ok] at added
        rw [ih h, DecMath.add_ok added]
        simp only [weightsOf, List.map_cons, List.sum_cons]
        omega

theorem validateSleeve_whole {cfg : PlanConfig} (unsigned : cfg.isSigned = false) {t : SleeveTarget}
    (h : validateSleeve cfg t = .ok ()) : weightsOf t.weights ≤ 10 ^ maxScale := by
  obtain ⟨total, weights, h⟩ := bind_eq_ok.1 h
  split at h
  next => cases h
  next small =>
    rw [PlanConfig.boundsFor_unsigned unsigned, not_and] at small
    have atMost := small rfl
    rw [Dec.lt_iff, not_lt, atto_one, validateWeights_total weights, Dec.atto_zero, zero_add] at atMost
    exact atMost

theorem validateSleeves_each {cfg : PlanConfig} {seen : Std.ExtTreeSet String} {total total' : Dec}
    {ts : List SleeveTarget} (h : validateSleeves cfg seen total ts = .ok total') :
    ∀ t ∈ ts, 0 < t.share.atto ∧ validateSleeve cfg t = .ok () := by
  induction ts generalizing seen total with
  | nil => simp
  | cons t ts ih =>
      unfold validateSleeves at h
      split at h
      next => cases h
      next =>
        split at h
        next => cases h
        next share =>
          obtain ⟨sum, -, h⟩ := bind_eq_ok.1 h
          obtain ⟨⟨⟩, sleeve, h⟩ := bind_eq_ok.1 h
          rw [not_or, Dec.le_iff, Dec.atto_zero, not_le] at share
          simp only [List.mem_cons, forall_eq_or_imp]
          exact ⟨⟨share.1, sleeve⟩, ih h⟩

theorem validate_each {targets : List SleeveTarget} {account : AccountView} {cfg : PlanConfig}
    (h : validate targets account cfg = .ok ()) : ∀ t ∈ targets, 0 < t.share.atto ∧ validateSleeve cfg t = .ok () := by
  obtain ⟨⟨⟩, -, h⟩ := bind_eq_ok.1 h
  obtain ⟨⟨⟩, -, h⟩ := bind_eq_ok.1 h
  obtain ⟨total, sleeves, -⟩ := bind_eq_ok.1 h
  exact validateSleeves_each sleeves

end Validated

/-! ## What the sleeves give -/

section Given

variable [UnicodeCase] {targets : List SleeveTarget} {account : AccountView} {cfg : PlanConfig}
  {managed : Std.ExtTreeMap String Managed}

/-- Every entry of every sleeve: its symbol, the share and the weight. -/
def contributions (targets : List SleeveTarget) : List (String × Dec × Dec) :=
  targets.flatMap fun t => t.weights.map fun w => (upperName w.symbol, t.share, w.weight)

theorem wantedShares_eq (targets : List SleeveTarget) (symbol : String) :
    wantedShares targets symbol = ((contributions targets).filter fun c => c.1 = symbol).map Prod.snd := by
  induction targets with
  | nil => rfl
  | cons t ts ih =>
      have split : contributions (t :: ts) =
          (t.weights.map fun w => (upperName w.symbol, t.share, w.weight)) ++ contributions ts := rfl
      rw [wantedShares, List.flatMap_cons, ← wantedShares, ih, split, List.filter_append, List.map_append, List.filter_map]
      simp only [List.map_map, Function.comp_def]

def floored (c : String × Dec × Dec) : ℚ := floor18 (c.2.1.toRat * c.2.2.toRat)

theorem weight_eq (aggregated : aggregate targets cfg = .ok managed) {m : Managed} (member : m ∈ inSymbolOrder managed) :
    m.weight.toRat = (((contributions targets).filter fun c => c.1 = m.symbol).map floored).sum := by
  rw [aggregate_floored aggregated m member, wantedShares_eq, Shares.floored, List.map_map]
  rfl

theorem symbols_nodup (aggregated : aggregate targets cfg = .ok managed) :
    ((inSymbolOrder managed).map fun m => m.symbol).Nodup :=
  inSymbolOrder_nodup fun k m found => (aggregate_named aggregated k m found).symbol_eq

theorem abs_weights_le (aggregated : aggregate targets cfg = .ok managed) :
    ((inSymbolOrder managed).map fun m => |m.weight.toRat|).sum ≤ ((contributions targets).map fun c => |floored c|).sum := by
  have each : ((inSymbolOrder managed).map fun m => |m.weight.toRat|).sum ≤
      ((inSymbolOrder managed).map fun m =>
        (((contributions targets).filter fun c => c.1 = m.symbol).map fun c => |floored c|).sum).sum := by
    apply List.sum_le_sum
    intro m member
    rw [weight_eq aggregated member]
    have bound := List.le_sum_of_subadditive (fun x : ℚ => |x|) abs_zero.le abs_add_le
      (((contributions targets).filter fun c => c.1 = m.symbol).map floored)
    rwa [List.map_map] at bound
  refine each.trans ?_
  have counted := sum_filter_le (fun c : String × Dec × Dec => c.1) (fun c => abs_nonneg (floored c))
    (symbols_nodup aggregated) (contributions targets)
  rwa [List.map_map] at counted

/-- The exact sum of share times the sizes of the weights. -/
def grossShares (targets : List SleeveTarget) : ℚ :=
  (targets.map fun t => t.share.toRat * (t.weights.map fun w => |w.weight.toRat|).sum).sum

theorem given_le (shares : ∀ t ∈ targets, 0 < t.share.atto) :
    ((contributions targets).map fun c => |floored c|).sum ≤
      grossShares targets + (contributions targets).length / 10 ^ maxScale := by
  induction targets with
  | nil => simp [contributions, grossShares]
  | cons t ts ih =>
      have rest := ih fun t' member => shares t' (by simp [member])
      have share : 0 ≤ t.share.toRat := toRat_nonneg (shares t (by simp)).le
      have own : ∀ ws : List TargetWeight, (ws.map fun w => |floor18 (t.share.toRat * w.weight.toRat)|).sum ≤
          t.share.toRat * (ws.map fun w => |w.weight.toRat|).sum + ws.length / 10 ^ maxScale := by
        intro ws
        induction ws with
        | nil => simp
        | cons w ws ih =>
            have one := abs_floor18_le (t.share.toRat * w.weight.toRat)
            rw [abs_mul, abs_of_nonneg share] at one
            simp only [List.map_cons, List.sum_cons, List.length_cons, Nat.cast_add, Nat.cast_one, mul_add, add_div]
            linarith
      have first := own t.weights
      have split : contributions (t :: ts) =
          (t.weights.map fun w => (upperName w.symbol, t.share, w.weight)) ++ contributions ts := rfl
      rw [split, List.map_append, List.sum_append, List.map_map, List.length_append, List.length_map, Nat.cast_add, add_div,
        grossShares, List.map_cons, List.sum_cons, ← grossShares]
      simp only [Function.comp_def, floored] at rest first ⊢
      linarith

theorem long_given (fair : ∀ t ∈ targets, FairSleeve t) (whole : ∀ t ∈ targets, weightsOf t.weights ≤ 10 ^ maxScale) :
    (∀ c ∈ contributions targets, 0 ≤ floored c) ∧
      ((contributions targets).map floored).sum ≤ (sharesOf targets : ℚ) / 10 ^ maxScale := by
  induction targets with
  | nil => simp [contributions, sharesOf]
  | cons t ts ih =>
      obtain ⟨restNonneg, rest⟩ := ih (fun t' member => fair t' (by simp [member])) fun t' member => whole t' (by simp [member])
      obtain ⟨share, weights, -⟩ := fair t (by simp)
      have shareNonneg : 0 ≤ t.share.toRat := toRat_nonneg share
      have split : contributions (t :: ts) =
          (t.weights.map fun w => (upperName w.symbol, t.share, w.weight)) ++ contributions ts := rfl
      have own : ∀ ws : List TargetWeight, (ws.map fun w => floor18 (t.share.toRat * w.weight.toRat)).sum ≤
          t.share.toRat * ((weightsOf ws : ℚ) / 10 ^ maxScale) := by
        intro ws
        induction ws with
        | nil => simp [weightsOf]
        | cons w ws ih =>
            have one := floor18_le (t.share.toRat * w.weight.toRat)
            have total : (weightsOf (w :: ws) : ℚ) / 10 ^ maxScale = w.weight.toRat + (weightsOf ws : ℚ) / 10 ^ maxScale := by
              rw [Dec.toRat_eq_atto, ← add_div, weightsOf, List.map_cons, List.sum_cons, ← weightsOf, Int.cast_add]
            rw [List.map_cons, List.sum_cons, total, mul_add]
            exact add_le_add one ih
      have unit : (weightsOf t.weights : ℚ) / 10 ^ maxScale ≤ 1 := by
        rw [div_le_one (by positivity)]
        exact_mod_cast whole t (by simp)
      have first : (t.weights.map fun w => floor18 (t.share.toRat * w.weight.toRat)).sum ≤ t.share.toRat :=
        (own t.weights).trans (mul_le_of_le_one_right shareNonneg unit)
      constructor
      · intro c member
        rw [split, List.mem_append] at member
        rcases member with mine | others
        · obtain ⟨w, inSleeve, rfl⟩ := List.mem_map.1 mine
          exact floor18_nonneg (mul_nonneg shareNonneg (toRat_nonneg (weights w inSleeve).1))
        · exact restNonneg c others
      · rw [split, List.map_append, List.sum_append, List.map_map, sharesOf, List.map_cons, List.sum_cons, ← sharesOf,
          Int.cast_add, add_div, ← Dec.toRat_eq_atto]
        exact add_le_add first rest

theorem weights_le_one (unsigned : cfg.isSigned = false) (valid : validate targets account cfg = .ok ())
    (aggregated : aggregate targets cfg = .ok managed) :
    (∀ m ∈ inSymbolOrder managed, 0 ≤ m.weight.toRat) ∧ ((inSymbolOrder managed).map fun m => m.weight.toRat).sum ≤ 1 := by
  obtain ⟨fair, shares, -, -⟩ := validate_ok unsigned valid
  obtain ⟨nonneg, total⟩ := long_given fair fun t member => validateSleeve_whole unsigned (validate_each valid t member).2
  constructor
  · intro m member
    rw [weight_eq aggregated member]
    apply List.sum_nonneg
    intro x inMap
    obtain ⟨c, inFilter, rfl⟩ := List.mem_map.1 inMap
    exact nonneg c (List.mem_filter.1 inFilter).1
  · calc
      _ ≤ ((inSymbolOrder managed).map fun m => |m.weight.toRat|).sum := List.sum_le_sum fun m _ => le_abs_self _
      _ ≤ ((contributions targets).map fun c => |floored c|).sum := abs_weights_le aggregated
      _ = ((contributions targets).map floored).sum := by
        congr 1
        exact List.map_congr_left fun c member => abs_of_nonneg (nonneg c member)
      _ ≤ (sharesOf targets : ℚ) / 10 ^ maxScale := total
      _ ≤ 1 := by
        rw [div_le_one (by positivity)]
        exact_mod_cast shares

end Given

/-! ## The targets -/

theorem roundTowardZero_le {v t : Dec} (nonneg : 0 ≤ v.toRat) (h : roundTowardZero v = .ok t) : t.toRat ≤ v.toRat := by
  rcases lt_or_ge |v.atto| (2 ^ 127 * 10 ^ 10) with small | large
  · rw [roundTowardZero_toRat small h, towardZero_of_nonneg (mul_nonneg nonneg (by positivity)), div_le_iff₀ (by positivity)]
    exact Int.floor_le _
  · obtain ⟨scale, top, -⟩ := roundTowardZero_range h
    have positive : 0 ≤ v.atto := by
      by_contra negative
      have below := isNegative_iff_toRat.1 (Dec.isNegative_iff.2 (not_le.1 negative))
      linarith
    rw [abs_of_nonneg positive] at large
    have value : t.atto = t.units.val * 10 ^ 10 := by
      rw [Dec.atto, scale]
      rfl
    have less : t.atto ≤ v.atto := by omega
    rw [Dec.toRat_eq_atto, Dec.toRat_eq_atto]
    gcongr

theorem targetNotional_le {cfg : PlanConfig} {base t : Dec} {m : Managed} (baseNonneg : 0 ≤ base.toRat)
    (weight : 0 ≤ m.weight.toRat) (risk : 0 ≤ cfg.riskScale.toRat) (h : targetNotional cfg base m = .ok t) :
    t.toRat ≤ base.toRat * cfg.riskScale.toRat * m.weight.toRat := by
  obtain ⟨wanted, share, h⟩ := bind_eq_ok.1 h
  obtain ⟨scaled, product, h⟩ := bind_eq_ok.1 h
  have wantedEq := mul_toRat share
  have scaledEq := mul_toRat product
  have wantedNonneg : 0 ≤ wanted.toRat := wantedEq ▸ floor18_nonneg (mul_nonneg baseNonneg weight)
  have scaledNonneg : 0 ≤ scaled.toRat := scaledEq ▸ floor18_nonneg (mul_nonneg wantedNonneg risk)
  calc
    t.toRat ≤ scaled.toRat := roundTowardZero_le scaledNonneg h
    _ ≤ wanted.toRat * cfg.riskScale.toRat := scaledEq ▸ floor18_le _
    _ ≤ base.toRat * m.weight.toRat * cfg.riskScale.toRat := by
      apply mul_le_mul_of_nonneg_right _ risk
      rw [wantedEq]
      exact floor18_le _
    _ = base.toRat * cfg.riskScale.toRat * m.weight.toRat := by ring

theorem targets_le {cfg : PlanConfig} {base : Dec} {ms all : List Managed} {ts : List Dec} (baseNonneg : 0 ≤ base.toRat)
    (risk : 0 ≤ cfg.riskScale.toRat) (weights : ∀ m ∈ all, 0 ≤ m.weight.toRat)
    (whole : (all.map fun m => m.weight.toRat).sum ≤ 1) (some : ms.Sublist all)
    (targets : List.Forall₂ (fun m t => targetNotional cfg base m = .ok t) ms ts) :
    (ts.map Dec.toRat).sum ≤ base.toRat * cfg.riskScale.toRat := by
  have worth : (ts.map Dec.toRat).sum ≤ base.toRat * cfg.riskScale.toRat * (ms.map fun m => m.weight.toRat).sum := by
    have own : ∀ m ∈ ms, 0 ≤ m.weight.toRat := fun m member => weights m (some.subset member)
    clear some
    induction targets with
    | nil => simp
    | cons head _ ih =>
        rw [List.map_cons, List.sum_cons, List.map_cons, List.sum_cons, mul_add]
        exact add_le_add (targetNotional_le baseNonneg (own _ (by simp)) risk head)
          (ih fun m member => own m (by simp [member]))
  have fewer : (ms.map fun m => m.weight.toRat).sum ≤ (all.map fun m => m.weight.toRat).sum := by
    apply (some.map _).sum_le_sum
    intro x member
    obtain ⟨m, inAll, rfl⟩ := List.mem_map.1 member
    exact weights m inAll
  refine worth.trans (mul_le_of_le_one_right (mul_nonneg baseNonneg risk) (fewer.trans whole))

theorem lined_targets {cfg : PlanConfig} {account : AccountView} {prices : Std.ExtTreeMap String PricePoint} {base : Dec}
    {ms : List Managed} {prs : List Proposal} (proposed : List.Forall₂ (Proposed cfg account prices base) ms prs) :
    ∃ some, some.Sublist ms ∧ List.Forall₂ (fun m t => targetNotional cfg base m = .ok t) some
      ((prs.filterMap Proposal.line).map fun l => l.targetNotional) := by
  induction proposed with
  | nil => exact ⟨[], .slnil, .nil⟩
  | @cons m pr ms prs head _ ih =>
      obtain ⟨some, among, each⟩ := ih
      cases line : pr.line with
      | none =>
          rw [List.filterMap_cons_none line]
          exact ⟨some, among.cons m, each⟩
      | some l =>
          rw [List.filterMap_cons_some line, List.map_cons]
          obtain ⟨-, -, target, -⟩ := head.lined l line
          exact ⟨m :: some, among.cons_cons m, .cons target each⟩

namespace OrderPlanner

section Accepted

variable [UnicodeCase] [InstantText] [Sha256]

/-- Targets that are accepted ask for no more than the capital. -/
theorem accepted_targets_fit (targets : List SleeveTarget) (account : AccountView) (cfg : PlanConfig) (policy : Policy)
    (managed : Std.ExtTreeMap String Managed) (valid : validate targets account cfg = .ok ())
    (aggregated : aggregate targets cfg = .ok managed) :
    (cfg.isSigned = false →
      (∀ m ∈ inSymbolOrder managed, 0 ≤ m.weight.toRat ∧ m.weight.toRat ≤ 1) ∧
        ((inSymbolOrder managed).map fun m => m.weight.toRat).sum ≤ 1 ∧
        (∀ ms ts, ms.Sublist (inSymbolOrder managed) →
          List.Forall₂ (fun m t =>
            targetNotional cfg (policy.capitalBase account.equity account.ccy) m = .ok t) ms ts →
          (ts.map Dec.toRat).sum ≤ (policy.capitalBase account.equity account.ccy).toRat * cfg.riskScale.toRat) ∧
        ∀ prices book p, plan targets account prices book policy cfg = .ok p →
          (p.lines.map fun l => l.targetNotional.toRat).sum ≤
            (policy.capitalBase account.equity account.ccy).toRat * cfg.riskScale.toRat) ∧
      ((inSymbolOrder managed).map fun m => |m.weight.toRat|).sum ≤
        grossShares targets + (contributions targets).length / 10 ^ maxScale := by
  obtain ⟨scale, -, equity⟩ := validate_params valid
  constructor
  · intro unsigned
    obtain ⟨nonneg, whole⟩ := weights_le_one unsigned valid aggregated
    have fit : ∀ ms ts, ms.Sublist (inSymbolOrder managed) → List.Forall₂ (fun m t =>
        targetNotional cfg (policy.capitalBase account.equity account.ccy) m = .ok t) ms ts →
        (ts.map Dec.toRat).sum ≤ (policy.capitalBase account.equity account.ccy).toRat * cfg.riskScale.toRat :=
      fun ms ts some each => targets_le (toRat_nonneg (capitalBase_nonneg equity)) (toRat_nonneg scale.le) nonneg whole some each
    refine ⟨fun m member => ⟨nonneg m member, ?_⟩, whole, fit, fun prices book p planned => ?_⟩
    · refine (List.single_le_sum ?_ _ (List.mem_map_of_mem member)).trans whole
      intro x inMap
      obtain ⟨m', inAll, rfl⟩ := List.mem_map.1 inMap
      exact nonneg m' inAll
    · obtain ⟨⟨p', placed⟩, traced, done⟩ := bind_eq_ok.1 planned
      obtain rfl := Except.ok.inj done
      obtain ⟨managed', sim, prs, ps, qs, mid, finish, parts⟩ := planTraced_ok traced
      obtain rfl : managed = managed' := Except.ok.inj (aggregated.symm.trans parts.managed_eq)
      obtain ⟨some, among, each⟩ := lined_targets parts.proposed
      have total := fit some _ among each
      rw [← parts.lines_eq, List.map_map] at total
      exact total
  · exact (abs_weights_le aggregated).trans (given_le fun t member => (validate_each valid t member).1)

end Accepted

namespace ShortBook

attribute [local instance] asciiCase epochText flatHash

def oneThird : Dec := ⟨⟨333333333333333333, by decide⟩, 18, Dec.scale_eighteen⟩

/-- Two sleeves with half of the capital each; both want bitcoin. -/
def twoSleeves : List SleeveTarget :=
  [⟨"core", oneHalf, "kraken", "crypto", [⟨"BTC", oneThird⟩, ⟨"ETH", oneThird⟩]⟩,
    ⟨"trend", oneHalf, "kraken", "crypto", [⟨"btc", Dec.one⟩]⟩]

theorem two_sleeves_fit : ∃ managed, aggregate twoSleeves (quietRun Dec.one) = .ok managed ∧
    (inSymbolOrder managed).map (fun m => m.weight.atto) = [666666666666666666, 166666666666666666] ∧
    ((inSymbolOrder managed).map fun m => m.weight.toRat).sum ≤ 1 ∧
    ((inSymbolOrder managed).map fun m => |m.weight.toRat|).sum ≤
      grossShares twoSleeves + (contributions twoSleeves).length / 10 ^ maxScale := by
  have weights : (aggregate twoSleeves (quietRun Dec.one)).map (fun managed =>
      (inSymbolOrder managed).map fun m => m.weight.atto) = .ok [666666666666666666, 166666666666666666] := by
    decide +kernel
  cases aggregated : aggregate twoSleeves (quietRun Dec.one) with
  | error e =>
      rw [aggregated] at weights
      cases weights
  | ok managed =>
      rw [aggregated] at weights
      obtain ⟨long, gross⟩ := accepted_targets_fit twoSleeves emptyBook (quietRun Dec.one) shortMandate managed
        (by decide +kernel) aggregated
      obtain ⟨-, whole, -, -⟩ := long (by decide +kernel)
      exact ⟨managed, rfl, Except.ok.inj weights, whole, gross⟩

end ShortBook

end OrderPlanner

end RebalancerCore
