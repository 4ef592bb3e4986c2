import SignalEngine.Lib.TowardZero
import SignalEngine.RebalancerCore.PlannerCaps

/-! # Targets against their exact values

The exact target of an instrument is the capital base times the sum of share times
weight times the risk scale. The plan computes it with products rounded down at 18
digits and rounds the result toward zero at 8, so it gets the exact value rounded
toward zero unless the first roundings carry it past a multiple of the last digit.
-/

open MachineInt BrokerAdapters Outcome Text TowardZero

namespace RebalancerCore

def floor18 (x : ℚ) : ℚ := ⌊x * 10 ^ maxScale⌋ / 10 ^ maxScale

theorem floor18_le (x : ℚ) : floor18 x ≤ x := by
  unfold floor18
  rw [div_le_iff₀ (by positivity)]
  exact Int.floor_le _

@[simp] theorem floor18_zero : floor18 0 = 0 := by simp [floor18]

theorem floor18_mono {x y : ℚ} (le : x ≤ y) : floor18 x ≤ floor18 y := by
  unfold floor18
  apply div_le_div_of_nonneg_right _ (by positivity)
  exact_mod_cast Int.floor_le_floor (mul_le_mul_of_nonneg_right le (by positivity))

theorem floor18_nonneg {x : ℚ} (nonneg : 0 ≤ x) : 0 ≤ floor18 x := by
  have mono := floor18_mono nonneg
  rwa [floor18_zero] at mono

@[simp] theorem floor18_toRat (d : Dec) : floor18 d.toRat = d.toRat := by
  rw [floor18, Dec.toRat_eq_atto, div_mul_cancel₀ _ (by positivity), Int.floor_intCast]

variable {a v : Dec}

theorem mul_toRat {b z : Dec} (h : DecMath.mul a b = .ok z) : z.toRat = floor18 (a.toRat * b.toRat) := by
  have positive : (0 : Int) < 10 ^ maxScale := Dec.ten_pow_pos _
  have product : a.toRat * b.toRat * 10 ^ maxScale = ((a.atto * b.atto : Int) : ℚ) / ((10 ^ maxScale : Int) : ℚ) := by
    rw [Dec.toRat_eq_atto, Dec.toRat_eq_atto]
    push_cast
    field_simp
  rw [floor18, product, DirectedRounding.floor_div positive, Dec.toRat_eq_atto, DecMath.mul_ok h]

theorem mul_exact {b z : Dec} (h : DecMath.mul a b = .ok z) (below : z.scale < maxScale) :
    z.toRat = a.toRat * b.toRat ∧ a.scale ≤ z.scale ∧ b.scale ≤ z.scale := by
  rw [DecMath.mul, DecMath.orOverflow_eq_ok] at h
  unfold Dec.checkedMul at h
  obtain ⟨units, product, h⟩ := Option.bind_eq_some_iff.1 h
  rw [SInt.checkedMul, SInt.checked_eq_some] at product
  simp only at h
  split at h
  next within =>
    obtain rfl := Option.some.inj h
    refine ⟨?_, Nat.le_add_right _ _, Nat.le_add_left _ _⟩
    simp only [Dec.toRat]
    rw [product, pow_add]
    push_cast
    field_simp
  next =>
    split at h
    · cases h
    · obtain rfl := Option.some.inj h
      exact absurd below (lt_irrefl _)

theorem add_toRat {b z : Dec} (h : DecMath.add a b = .ok z) : z.toRat = a.toRat + b.toRat := by
  rw [Dec.toRat_eq_atto, Dec.toRat_eq_atto, Dec.toRat_eq_atto, DecMath.add_ok h]
  push_cast
  ring

theorem add_scale {b z : Dec} (h : DecMath.add a b = .ok z) : z.scale = max a.scale b.scale := by
  rw [DecMath.add, DecMath.orOverflow_eq_ok] at h
  unfold Dec.checkedAdd at h
  obtain ⟨left, -, h⟩ := Option.bind_eq_some_iff.1 h
  obtain ⟨right, -, h⟩ := Option.bind_eq_some_iff.1 h
  obtain ⟨units, -, h⟩ := Option.bind_eq_some_iff.1 h
  obtain rfl := Option.some.inj h
  rfl

/-! ## The weight of an instrument -/

/-- The share and the weight of every sleeve entry, as the sum of their products takes them. -/
abbrev Shares := List (Dec × Dec)

def Shares.exact (shares : Shares) : ℚ := (shares.map fun s => s.1.toRat * s.2.toRat).sum

def Shares.floored (shares : Shares) : ℚ := (shares.map fun s => floor18 (s.1.toRat * s.2.toRat)).sum

theorem Shares.floored_le (shares : Shares) : shares.floored ≤ shares.exact := by
  unfold Shares.floored Shares.exact
  exact List.sum_le_sum fun s _ => floor18_le _

section Aggregate

variable [UnicodeCase]

def wantedShares (targets : List SleeveTarget) (symbol : String) : Shares :=
  targets.flatMap fun t => (t.weights.filter fun w => upperName w.symbol = symbol).map fun w => (t.share, w.weight)

omit [UnicodeCase] in
/-- The weights of the instruments are the sums of the shares so far. -/
structure Tracks (shares : String → Shares) (managed : Std.ExtTreeMap String Managed) : Prop where
  floored : ∀ (k : String) (m : Managed), managed[k]? = some m → m.weight.toRat = (shares k).floored
  exact : ∀ (k : String) (m : Managed), managed[k]? = some m → m.weight.scale < maxScale →
    m.weight.toRat = (shares k).exact
  absent : ∀ k : String, managed[k]? = none → shares k = []

variable {cfg : PlanConfig} {targets : List SleeveTarget} {shares : String → Shares}
  {managed : Std.ExtTreeMap String Managed}

omit [UnicodeCase] in
theorem Tracks.insert (tracks : Tracks shares managed) {symbol : String} {m : Managed} {s : Dec × Dec}
    (floored : m.weight.toRat = (shares symbol).floored + floor18 (s.1.toRat * s.2.toRat))
    (exact : m.weight.scale < maxScale → m.weight.toRat = (shares symbol).exact + s.1.toRat * s.2.toRat) :
    Tracks (fun k => shares k ++ if symbol = k then [s] else []) (managed.insert symbol m) := by
  constructor
  case floored =>
    intro k m' found
    rw [Std.ExtTreeMap.getElem?_insert] at found
    split at found
    next same =>
      obtain rfl := Option.some.inj found
      obtain rfl : symbol = k := Std.LawfulEqCmp.eq_of_compare same
      simp [Shares.floored, floored]
    next differ =>
      have apart : symbol ≠ k := fun same => differ (by rw [same]; exact Std.ReflCmp.compare_self)
      simpa [apart] using tracks.floored k m' found
  case exact =>
    intro k m' found below
    rw [Std.ExtTreeMap.getElem?_insert] at found
    split at found
    next same =>
      obtain rfl := Option.some.inj found
      obtain rfl : symbol = k := Std.LawfulEqCmp.eq_of_compare same
      simp [Shares.exact, exact below]
    next differ =>
      have apart : symbol ≠ k := fun same => differ (by rw [same]; exact Std.ReflCmp.compare_self)
      simpa [apart] using tracks.exact k m' found below
  case absent =>
    intro k none
    rw [Std.ExtTreeMap.getElem?_insert] at none
    split at none
    next => cases none
    next differ =>
      have apart : symbol ≠ k := fun same => differ (by rw [same]; exact Std.ReflCmp.compare_self)
      simpa [apart] using tracks.absent k none

theorem aggregateWeight_tracks {t : SleeveTarget} {w : TargetWeight} {shares : String → Shares}
    {managed managed' : Std.ExtTreeMap String Managed} (tracks : Tracks shares managed)
    (h : aggregateWeight cfg t managed w = .ok managed') :
    Tracks (fun k => shares k ++ if upperName w.symbol = k then [(t.share, w.weight)] else []) managed' := by
  obtain ⟨contribution, product, ⟨old, weight, known, -, -, added, rfl⟩ | ⟨absent, rfl⟩⟩ := aggregateWeight_cases h
  · refine tracks.insert ?_ fun below => ?_
    · rw [Managed.join, add_toRat added, mul_toRat product, tracks.floored _ old known]
    · have scale := add_scale added
      have below' : max old.weight.scale contribution.scale < maxScale := scale ▸ below
      rw [max_lt_iff] at below'
      rw [Managed.join, add_toRat added, (mul_exact product below'.2).1, tracks.exact _ old known below'.1]
  · have none := tracks.absent _ absent
    refine tracks.insert ?_ fun below => ?_
    · rw [Managed.wanted, mul_toRat product, none]
      simp [Shares.floored]
    · rw [Managed.wanted, (mul_exact product below).1, none]
      simp [Shares.exact]

theorem aggregateWeights_tracks {t : SleeveTarget} {ws : List TargetWeight} :
    ∀ {shares : String → Shares} {managed managed' : Std.ExtTreeMap String Managed}, Tracks shares managed →
      ws.foldlM (aggregateWeight cfg t) managed = .ok managed' →
        Tracks (fun k => shares k ++
          (ws.filter fun w => upperName w.symbol = k).map fun w => (t.share, w.weight)) managed' := by
  induction ws with
  | nil =>
      intro shares managed managed' tracks h
      obtain rfl := Except.ok.inj h
      simpa using tracks
  | cons w ws ih =>
      intro shares managed managed' tracks h
      rw [List.foldlM_cons] at h
      obtain ⟨next, head, tail⟩ := bind_eq_ok.1 h
      have later := ih (aggregateWeight_tracks tracks head) tail
      have same : (fun k => (shares k ++ if upperName w.symbol = k then [(t.share, w.weight)] else []) ++
          (ws.filter fun w => upperName w.symbol = k).map fun w => (t.share, w.weight)) =
          fun k => shares k ++ ((w :: ws).filter fun w => upperName w.symbol = k).map fun w => (t.share, w.weight) := by
        funext k
        by_cases here : upperName w.symbol = k <;> simp [here]
      rwa [same] at later

theorem aggregateSleeves_tracks {managed' : Std.ExtTreeMap String Managed} (tracks : Tracks shares managed)
    (h : targets.foldlM (fun managed (t : SleeveTarget) => t.weights.foldlM (aggregateWeight cfg t) managed) managed = .ok managed') :
    Tracks (fun k => shares k ++ wantedShares targets k) managed' := by
  induction targets generalizing shares managed with
  | nil =>
      obtain rfl := Except.ok.inj h
      simpa [wantedShares] using tracks
  | cons t ts ih =>
      rw [List.foldlM_cons] at h
      obtain ⟨next, head, tail⟩ := bind_eq_ok.1 h
      have later := ih (aggregateWeights_tracks tracks head) tail
      simpa only [wantedShares, List.flatMap_cons, List.append_assoc] using later

theorem aggregate_tracks (h : aggregate targets cfg = .ok managed) : Tracks (wantedShares targets) managed := by
  have start : Tracks (fun _ => []) (∅ : Std.ExtTreeMap String Managed) := ⟨by simp, by simp, by simp⟩
  simpa using aggregateSleeves_tracks start h

end Aggregate

/-! ## The target of an instrument -/

def InRange8 (x : ℚ) : Prop := |x * 10 ^ 8| < 2 ^ 127

theorem inRange8_iff (v : Dec) : InRange8 v.toRat ↔ |v.atto| < 2 ^ 127 * 10 ^ 10 := by
  have value : v.toRat * 10 ^ 8 = (v.atto : ℚ) / 10 ^ 10 := by
    rw [Dec.toRat_eq_atto, maxScale]
    ring
  rw [InRange8, value, abs_div, abs_of_pos (by positivity : (0 : ℚ) < 10 ^ 10), div_lt_iff₀ (by positivity),
    ← Int.cast_abs]
  norm_cast

theorem scale_le_of_large (large : 2 ^ 127 * 10 ^ 10 ≤ |v.atto|) : v.scale ≤ 8 := by
  by_contra deep
  have bound := v.units.fits
  have power : (10 : Int) ^ (maxScale - v.scale) ≤ 10 ^ 9 :=
    pow_le_pow_right₀ (by decide) (by simp only [maxScale]; omega)
  have size : |v.units.val| ≤ 2 ^ 127 := by
    unfold Fits at bound
    rw [abs_le]
    omega
  rw [Dec.atto, abs_mul, abs_of_pos (Dec.ten_pow_pos _)] at large
  have product := mul_le_mul size power (Dec.ten_pow_pos _).le (by positivity)
  omega

theorem liftFits_of_small (small : |v.atto| < 2 ^ 127 * 10 ^ 10) : v.LiftFits 8 := by
  intro within le
  have value := v.atto_lift le within
  have ten : (10 : Int) ^ (maxScale - 8) = 10 ^ 10 := rfl
  rw [value, ten, abs_mul, abs_of_pos (by positivity : (0 : Int) < 10 ^ 10)] at small
  have bound : |v.units.val * 10 ^ (8 - v.scale)| < 2 ^ 127 := lt_of_mul_lt_mul_right small (by positivity)
  rw [abs_lt] at bound
  unfold Fits
  omega

theorem roundDp8_toRat {t : Dec} (calm : v.LiftFits 8) (h : DecMath.roundDp v 8 .floor = .ok t) :
    t.toRat = ⌊v.toRat * 10 ^ 8⌋ / 10 ^ 8 := by
  obtain ⟨r, rounded, -, value⟩ := Dec.roundDpCalc_exact v .floor (by decide) calm
  have result : v.roundDp 8 .floor = .ok r := by
    rw [Dec.roundDp, rounded]
    rfl
  simp only [DecMath.roundDp, result, Except.ok.injEq] at h
  rw [← h, value]
  rfl

theorem neg_toRat {z : Dec} (h : DecMath.neg a = .ok z) : z.toRat = -a.toRat := by
  rw [Dec.toRat_eq_atto, Dec.toRat_eq_atto, DecMath.neg_ok h]
  push_cast
  ring

theorem isNegative_iff_toRat : v.isNegative = true ↔ v.toRat < 0 := by
  rw [Dec.isNegative_iff, Dec.toRat_eq_atto, div_lt_iff₀ (by positivity), zero_mul]
  norm_cast

theorem roundTowardZero_toRat {t : Dec} (small : |v.atto| < 2 ^ 127 * 10 ^ 10) (h : roundTowardZero v = .ok t) :
    t.toRat = towardZero (v.toRat * 10 ^ 8) / 10 ^ 8 := by
  unfold roundTowardZero at h
  split at h
  next negative =>
    obtain ⟨size, turned, h⟩ := bind_eq_ok.1 h
    obtain ⟨down, rounded, h⟩ := bind_eq_ok.1 h
    rw [DecMath.abs, if_pos negative] at turned
    have sizeSmall : |size.atto| < 2 ^ 127 * 10 ^ 10 := by
      rw [DecMath.neg_ok turned, abs_neg]
      exact small
    have below : v.toRat < 0 := isNegative_iff_toRat.1 negative
    have mirrored : 0 ≤ size.toRat * 10 ^ 8 := by
      rw [neg_toRat turned]
      exact mul_nonneg (by linarith) (by positivity)
    rw [neg_toRat h, roundDp8_toRat (liftFits_of_small sizeSmall) rounded, ← towardZero_of_nonneg mirrored,
      neg_toRat turned, neg_mul, towardZero_neg]
    push_cast
    ring
  next nonneg =>
    have above : 0 ≤ v.toRat := by
      rw [isNegative_iff_toRat, not_lt] at nonneg
      exact nonneg
    rw [roundDp8_toRat (liftFits_of_small small) h, towardZero_of_nonneg (mul_nonneg above (by positivity))]

theorem roundTowardZero_range {t : Dec} (h : roundTowardZero v = .ok t) :
    t.scale = 8 ∧ t.units.val ≤ 2 ^ 127 - 1 ∧ (v.isNegative = true → -(2 ^ 127 - 1) ≤ t.units.val) := by
  have scaled : ∀ {d r : Dec}, DecMath.roundDp d 8 .floor = .ok r → r.scale = 8 := by
    intro d r rounded
    unfold DecMath.roundDp at rounded
    split at rounded
    next result =>
      obtain rfl := Except.ok.inj rounded
      exact (Dec.roundDp_floor_eq_ok.1 result).1
    next => cases rounded
  have top : t.units.val ≤ 2 ^ 127 - 1 := by
    have bound := t.units.fits
    unfold Fits at bound
    omega
  unfold roundTowardZero at h
  split at h
  next negative =>
    obtain ⟨size, -, h⟩ := bind_eq_ok.1 h
    obtain ⟨down, rounded, h⟩ := bind_eq_ok.1 h
    obtain ⟨units, turned, h⟩ := bind_eq_ok.1 h
    rw [DecMath.orOverflow_eq_ok, SInt.checkedNeg, SInt.checked_eq_some] at turned
    obtain rfl := Except.ok.inj h
    have eight : down.scale = 8 := scaled rounded
    refine ⟨eight, top, fun _ => ?_⟩
    have bound := down.units.fits
    unfold Fits at bound
    simp only [turned]
    omega
  next nonneg => exact ⟨scaled h, top, fun negative => absurd negative nonneg⟩

theorem roundTowardZero_wraps {t : Dec} (large : 2 ^ 127 * 10 ^ 10 ≤ |v.atto|) (h : roundTowardZero v = .ok t) :
    t.toRat ≠ v.toRat := by
  intro same
  obtain ⟨scale, top, bottom⟩ := roundTowardZero_range h
  rw [Dec.toRat_eq_atto, Dec.toRat_eq_atto, div_left_inj' (by positivity)] at same
  have equal : t.atto = v.atto := by exact_mod_cast same
  have value : t.atto = t.units.val * 10 ^ 10 := by
    rw [Dec.atto, scale]
    rfl
  rcases le_or_gt 0 v.atto with nonneg | negative
  · rw [abs_of_nonneg nonneg] at large
    omega
  · rw [abs_of_neg negative] at large
    have low := bottom (Dec.isNegative_iff.2 negative)
    omega

def exactTarget (cfg : PlanConfig) (base : Dec) (shares : Shares) : ℚ :=
  base.toRat * shares.exact * cfg.riskScale.toRat

def flooredTarget (cfg : PlanConfig) (base : Dec) (shares : Shares) : ℚ :=
  floor18 (floor18 (base.toRat * shares.floored) * cfg.riskScale.toRat)

theorem flooredTarget_le {cfg : PlanConfig} {base : Dec} (shares : Shares) (nonneg : 0 ≤ base.toRat)
    (positive : 0 ≤ cfg.riskScale.toRat) : flooredTarget cfg base shares ≤ exactTarget cfg base shares := by
  unfold flooredTarget exactTarget
  calc
    _ ≤ floor18 (base.toRat * shares.floored) * cfg.riskScale.toRat := floor18_le _
    _ ≤ base.toRat * shares.floored * cfg.riskScale.toRat := mul_le_mul_of_nonneg_right (floor18_le _) positive
    _ ≤ base.toRat * shares.exact * cfg.riskScale.toRat := by
      apply mul_le_mul_of_nonneg_right _ positive
      exact mul_le_mul_of_nonneg_left shares.floored_le nonneg

/-- The exact value rounded toward zero at eight digits. -/
def Truncates (exact t : ℚ) : Prop := t = towardZero (exact * 10 ^ 8) / 10 ^ 8

theorem Truncates.toward {exact t : ℚ} (truncates : Truncates exact t) : 0 ≤ t * exact ∧ |t| ≤ |exact| := by
  have power : (0 : ℚ) < 10 ^ 8 := by positivity
  rw [truncates]
  constructor
  · have sign := mul_towardZero_nonneg (exact * 10 ^ 8)
    have scaled : (towardZero (exact * 10 ^ 8) : ℚ) / 10 ^ 8 * exact =
        (towardZero (exact * 10 ^ 8) : ℚ) * (exact * 10 ^ 8) / (10 ^ 8 * 10 ^ 8) := by
      field_simp
    rw [scaled]
    positivity
  · have size := abs_towardZero_le (exact * 10 ^ 8)
    rw [abs_mul, abs_of_pos power] at size
    rw [abs_div, abs_of_pos power, div_le_iff₀ power]
    exact size

/-- The target is the exact value rounded toward zero just when it is in range and
    no multiple of the last digit lies between the exact value and its floors. -/
theorem targetNotional_truncates {cfg : PlanConfig} {base t : Dec} {m : Managed} {shares : Shares}
    (nonneg : 0 ≤ base.toRat) (positive : 0 ≤ cfg.riskScale.toRat) (floored : m.weight.toRat = shares.floored)
    (exact : m.weight.scale < maxScale → m.weight.toRat = shares.exact) (h : targetNotional cfg base m = .ok t) :
    Truncates (exactTarget cfg base shares) t.toRat ↔
      InRange8 (flooredTarget cfg base shares) ∧
        ¬ Passes (flooredTarget cfg base shares * 10 ^ 8) (exactTarget cfg base shares * 10 ^ 8) := by
  obtain ⟨wanted, share, h⟩ := bind_eq_ok.1 h
  obtain ⟨scaled, risk, h⟩ := bind_eq_ok.1 h
  have value : scaled.toRat = flooredTarget cfg base shares := by
    rw [mul_toRat risk, mul_toRat share, floored, flooredTarget]
  have le := flooredTarget_le shares nonneg positive
  rw [← value] at le ⊢
  have le8 : scaled.toRat * 10 ^ 8 ≤ exactTarget cfg base shares * 10 ^ 8 :=
    mul_le_mul_of_nonneg_right le (by positivity)
  rcases lt_or_ge |scaled.atto| (2 ^ 127 * 10 ^ 10) with small | large
  · rw [Truncates, roundTowardZero_toRat small h, div_left_inj' (by positivity), Int.cast_inj, towardZero_eq_iff le8]
    simp [(inRange8_iff scaled).2 small]
  · -- the products of so large a value have few digits and lose nothing
    have few := scale_le_of_large large
    obtain ⟨riskExact, fewWanted, -⟩ := mul_exact risk (by simp only [maxScale]; omega)
    obtain ⟨shareExact, -, fewWeight⟩ := mul_exact share (by simp only [maxScale]; omega)
    have same : exactTarget cfg base shares = scaled.toRat := by
      rw [riskExact, shareExact, exact (by simp only [maxScale]; omega), exactTarget]
    have whole : scaled.toRat * 10 ^ 8 = ((scaled.units.val * 10 ^ (8 - scaled.scale) : Int) : ℚ) :=
      Dec.toRat_mul_pow scaled few
    constructor
    · intro truncates
      exfalso
      apply roundTowardZero_wraps large h
      rw [truncates, same, whole, towardZero_intCast, ← whole]
      field_simp
    · rintro ⟨inRange, -⟩
      rw [inRange8_iff] at inRange
      omega

/-! ## The lines of a plan -/

section Lines

variable [UnicodeCase] [InstantText] [Sha256] {targets : List SleeveTarget} {account : AccountView}
  {prices : Std.ExtTreeMap String PricePoint} {book : VenueRuleBook} {policy : Policy} {cfg : PlanConfig}
  {p : OrderPlan} {placed : List Placed} {managed : Std.ExtTreeMap String Managed} {sim : AccountView}
  {proposals : List Proposal} {ps qs : List Placed} {mid finish : SimState}

omit [InstantText] [Sha256] in
theorem validate_params (h : validate targets account cfg = .ok ()) :
    0 < cfg.riskScale.atto ∧ cfg.riskScale.atto ≤ 10 ^ maxScale ∧ 0 < account.equity.atto := by
  obtain ⟨⟨⟩, params, -⟩ := bind_eq_ok.1 h
  exact validateParams_ok params

theorem PlanParts.line (parts : PlanParts targets account prices book policy cfg p placed managed sim proposals ps qs
      mid finish) {l : InstrumentLine} (member : l ∈ p.lines) :
    ∃ m : Managed, managed[l.symbol]? = some m ∧
      targetNotional cfg (policy.capitalBase account.equity account.ccy) m = .ok l.targetNotional := by
  rw [parts.lines_eq, List.mem_filterMap] at member
  obtain ⟨pr, inside, lineEq⟩ := member
  obtain ⟨i, bound, rfl⟩ := List.getElem_of_mem inside
  have within : i < (inSymbolOrder managed).length := parts.proposed.length_eq ▸ bound
  obtain ⟨symbol, -, target, -⟩ := (parts.proposed.get within bound).lined l lineEq
  obtain ⟨k, entry⟩ := mem_inSymbolOrder (List.getElem_mem within)
  have key := (aggregate_named parts.managed_eq k _ entry).symbol_eq
  refine ⟨_, ?_, target⟩
  rw [symbol]
  simpa [← key] using entry

omit [UnicodeCase] [InstantText] [Sha256] in
theorem toRat_nonneg {d : Dec} (nonneg : 0 ≤ d.atto) : 0 ≤ d.toRat := by
  rw [Dec.toRat_eq_atto]
  exact div_nonneg (by exact_mod_cast nonneg) (by positivity)

end Lines

namespace OrderPlanner

/-- Every line of every plan: its target has the sign of the exact value and at most
    its size, and is the exact value cut at eight digits, just when the value is in
    range and the 18-digit floors of its products pass no multiple of `10^-8`. -/
theorem target_truncates_iff [UnicodeCase] [InstantText] [Sha256] (targets : List SleeveTarget) (account : AccountView)
    (prices : Std.ExtTreeMap String PricePoint) (book : VenueRuleBook) (policy : Policy) (cfg : PlanConfig)
    (p : OrderPlan) (planned : plan targets account prices book policy cfg = .ok p) :
    ∀ l ∈ p.lines,
      let base := policy.capitalBase account.equity account.ccy
      let exact := exactTarget cfg base (wantedShares targets l.symbol)
      let floored := flooredTarget cfg base (wantedShares targets l.symbol)
      (0 ≤ l.targetNotional.toRat * exact ∧ |l.targetNotional.toRat| ≤ |exact| ∧
          Truncates exact l.targetNotional.toRat) ↔
        InRange8 floored ∧ ¬ Passes (floored * 10 ^ 8) (exact * 10 ^ 8) := by
  obtain ⟨placed, traced⟩ := plan_ok planned
  obtain ⟨managed, sim, proposals, ps, qs, mid, finish, parts⟩ := planTraced_ok traced
  obtain ⟨scale, -, equity⟩ := validate_params parts.valid
  intro l member
  obtain ⟨m, entry, target⟩ := parts.line member
  have tracks := aggregate_tracks parts.managed_eq
  have cut := targetNotional_truncates (toRat_nonneg (capitalBase_nonneg equity)) (toRat_nonneg scale.le)
    (tracks.floored _ m entry) (tracks.exact _ m entry) target
  intro base exact floored
  constructor
  · rintro ⟨-, -, truncates⟩
    exact cut.1 truncates
  · intro clear
    have truncates := cut.2 clear
    obtain ⟨sign, size⟩ := truncates.toward
    exact ⟨sign, size, truncates⟩

namespace ShortBook

open Amount (cents)

/-- The hash of every text, as far as a plan of one order can tell. -/
@[reducible] def flatHash : Sha256 where
  hexDigest _ := "91df017182928bd35f2f2167c9809f590b7e85c8fe295479eb4e18b36e1df67f"

attribute [local instance] asciiCase epochText flatHash

def emptyBook : AccountView where
  accountId := "acct"
  ccy := "USD"
  equity := cents 100000
  cash := cents 100000
  positions := []
  halted := false
  now := 0

def shortable : VenueRuleBook where
  byVenue := .ofList [("kraken", VenueRules.anySize)]
  instruments := { InstrumentRules.empty with
    rules := InstrumentRules.empty.rules.insert ("kraken", "BTC") ⟨.allowed, none, none⟩ }

def shortMandate : Policy where
  bodyHash := "0"
  envelope := some ⟨1, .active, 0, 31536000000000000⟩
  maxPriceAgeSecs := ⟨300, by decide +kernel⟩
  body := .valid
    { ccy := "USD"
      allocated := cents 100000
      minCashReserve := cents 10
      instrumentAllow := .ofList ["BTC"]
      instrumentDeny := ∅
      venues := .ofList ["kraken"]
      assetClasses := .ofList ["crypto"]
      shorting := true
      derivatives := false
      leverageMaxGross := cents 200
      maxPosition := cents 100
      maxAssetClass := ∅
      maxGross := cents 200
      maxNet := cents 200
      maxOrderNotional := cents 100000
      maxOrdersPerDay := 10
      maxTurnoverPerDay := cents 200
      classes_lower := noClasses_lower }

def bitcoinQuote : Std.ExtTreeMap String PricePoint :=
  (∅ : Std.ExtTreeMap String PricePoint).insert "BTC" ⟨cents 10000, 0⟩

/-- One sleeve with all of the capital and one instrument. -/
def shortOf (weight : Dec) : List SleeveTarget := [⟨"trend", Dec.one, "kraken", "crypto", [⟨"BTC", weight⟩]⟩]

def scaledRun (riskScale : Dec) : PlanConfig where
  scheduledFor := 0
  riskScale := riskScale
  minTradeAbs := Dec.zero
  minTradePct := Dec.zero
  feeRate := Dec.zero
  creditSellProceeds := true
  day := ⟨0, Dec.zero⟩
  signedSleeves := .ofList [("trend", Dec.one)]
  buyingPower := some (cents 200000)

theorem shortOf_wanted (weight : Dec) : wantedShares (shortOf weight) "BTC" = [(Dec.one, weight)] := by
  have upper : upperName "BTC" = "BTC" := by decide +kernel
  simp [wantedShares, shortOf, upper]

theorem base_eq : shortMandate.capitalBase emptyBook.equity emptyBook.ccy = cents 100000 := by decide +kernel

theorem thousand : (cents 100000 : Dec).toRat = 1000 := by
  rw [Dec.toRat_eq_atto, show (cents 100000 : Dec).atto = 1000 * 10 ^ 18 by decide +kernel]
  norm_num [maxScale]

theorem toRat_one : Dec.one.toRat = 1 := by
  rw [Dec.toRat_eq_atto, atto_one]
  norm_num

theorem exactTarget_short (weight scale : Dec) :
    exactTarget (scaledRun scale) (cents 100000) [(Dec.one, weight)] = 1000 * weight.toRat * scale.toRat := by
  simp [exactTarget, Shares.exact, thousand, toRat_one, scaledRun]

def shortPlan (weight scale : Dec) : Except PlanError OrderPlan :=
  plan (shortOf weight) emptyBook bitcoinQuote shortable shortMandate (scaledRun scale)

def minusHalf : Dec := ⟨⟨-5, by decide +kernel⟩, 1, Dec.scale_one⟩

theorem toRat_minusHalf : minusHalf.toRat = -1 / 2 := by
  rw [Dec.toRat_eq_atto, show minusHalf.atto = -5 * 10 ^ 17 by decide +kernel]
  norm_num [maxScale]

theorem flooredTarget_half : flooredTarget (scaledRun Dec.one) (cents 100000) [(Dec.one, minusHalf)] = -500 := by
  have value : (⟨⟨-500, by decide⟩, 0, by decide⟩ : Dec).toRat = -500 := by norm_num [Dec.toRat]
  have product : (1000 : ℚ) * minusHalf.toRat = (⟨⟨-500, by decide⟩, 0, by decide⟩ : Dec).toRat := by
    rw [toRat_minusHalf, value]
    norm_num
  simpa [flooredTarget, Shares.floored, thousand, toRat_one, scaledRun, product] using value

theorem inRange8_half : InRange8 (flooredTarget (scaledRun Dec.one) (cents 100000) [(Dec.one, minusHalf)]) := by
  rw [flooredTarget_half]
  norm_num [InRange8]

/-- Half of the capital short is 500 short, to the last digit. -/
theorem half_short_truncates :
    ∃ p l, shortPlan minusHalf Dec.one = .ok p ∧ l ∈ p.lines ∧ l.targetNotional.toRat = -500 ∧
      Truncates (exactTarget (scaledRun Dec.one) (cents 100000) (wantedShares (shortOf minusHalf) l.symbol))
        l.targetNotional.toRat := by
  have lines : (shortPlan minusHalf Dec.one).map (fun p => p.lines.map fun l => (l.symbol, l.targetNotional.atto)) =
      .ok [("BTC", -500 * 10 ^ 18)] := by decide +kernel
  cases planned : shortPlan minusHalf Dec.one with
  | error e =>
      rw [planned] at lines
      cases lines
  | ok p =>
      rw [planned] at lines
      obtain ⟨l, only, named⟩ := List.map_eq_singleton_iff.1 (Except.ok.inj lines)
      obtain ⟨symbol, target⟩ := Prod.mk.inj named
      have member : l ∈ p.lines := by simp [only]
      have cut := target_truncates_iff _ _ _ _ _ _ _ planned l member
      rw [base_eq, symbol, shortOf_wanted] at cut
      have exact : exactTarget (scaledRun Dec.one) (cents 100000) [(Dec.one, minusHalf)] = -500 := by
        rw [exactTarget_short, toRat_minusHalf, toRat_one]
        norm_num
      refine ⟨p, l, rfl, member, ?_, ?_⟩
      · rw [Dec.toRat_eq_atto, target]
        norm_num [maxScale]
      · rw [symbol, shortOf_wanted]
        refine (cut.2 ⟨inRange8_half, ?_⟩).2.2
        rw [flooredTarget_half, exact]
        exact not_passes_self _

def dust : Dec := ⟨⟨-1, by decide +kernel⟩, 11, by decide⟩

def almostOne : Dec := ⟨⟨99999999999, by decide⟩, 11, by decide⟩

/-- A short of a little less than `10^-8` is floored at 18 digits to `10^-8` and
    planned at that size. -/
theorem floors_make_short_bigger :
    ∃ p l, shortPlan dust almostOne = .ok p ∧ l ∈ p.lines ∧ l.targetNotional.toRat = -1 / 10 ^ 8 ∧
      exactTarget (scaledRun almostOne) (shortMandate.capitalBase emptyBook.equity emptyBook.ccy)
        (wantedShares (shortOf dust) l.symbol) = -99999999999 / 10 ^ 19 ∧
      ¬ |l.targetNotional.toRat| ≤ |exactTarget (scaledRun almostOne)
        (shortMandate.capitalBase emptyBook.equity emptyBook.ccy) (wantedShares (shortOf dust) l.symbol)| := by
  have lines : (shortPlan dust almostOne).map (fun p => p.lines.map fun l => (l.symbol, l.targetNotional.atto)) =
      .ok [("BTC", -10 ^ 10)] := by decide +kernel
  cases planned : shortPlan dust almostOne with
  | error e =>
      rw [planned] at lines
      cases lines
  | ok p =>
      rw [planned] at lines
      obtain ⟨l, only, named⟩ := List.map_eq_singleton_iff.1 (Except.ok.inj lines)
      obtain ⟨symbol, target⟩ := Prod.mk.inj named
      have value : l.targetNotional.toRat = -1 / 10 ^ 8 := by
        rw [Dec.toRat_eq_atto, target]
        norm_num [maxScale]
      have exact : exactTarget (scaledRun almostOne) (cents 100000) [(Dec.one, dust)] = -99999999999 / 10 ^ 19 := by
        rw [exactTarget_short, Dec.toRat_eq_atto, Dec.toRat_eq_atto, show dust.atto = -10 ^ 7 by decide +kernel,
          show almostOne.atto = 99999999999 * 10 ^ 7 by decide +kernel]
        norm_num [maxScale]
      rw [base_eq]
      refine ⟨p, l, rfl, by simp [only], value, ?_, ?_⟩
      · rw [symbol, shortOf_wanted, exact]
      · rw [symbol, shortOf_wanted, exact, value]
        norm_num [abs_of_neg, abs_of_pos]

end ShortBook

end OrderPlanner

end RebalancerCore
