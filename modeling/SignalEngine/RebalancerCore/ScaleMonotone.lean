import SignalEngine.RebalancerCore.TargetTruncation

/-! # A lower risk scale never raises exposure

Two plans that differ in the risk scale only size the same instruments. Each target
is a product rounded toward zero, so the lower scale gives a target of the same sign
and at most the same size, as long as the last rounding does not wrap.
-/

open MachineInt BrokerAdapters Outcome Text TowardZero

namespace RebalancerCore

def PlanConfig.atScale (cfg : PlanConfig) (s : Dec) : PlanConfig := { cfg with riskScale := s }

/-! ## One target -/

def Smaller (a b : Dec) : Prop := |a.toRat| ≤ |b.toRat| ∧ 0 ≤ a.toRat * b.toRat

theorem smaller_of_between {a b : Dec} (between : 0 ≤ a.toRat ∧ a.toRat ≤ b.toRat ∨ b.toRat ≤ a.toRat ∧ a.toRat ≤ 0) :
    Smaller a b := by
  obtain ⟨low, high⟩ | ⟨low, high⟩ := between
  · refine ⟨?_, mul_nonneg low (low.trans high)⟩
    rw [abs_of_nonneg low, abs_of_nonneg (low.trans high)]
    exact high
  · refine ⟨?_, mul_nonneg_of_nonpos_of_nonpos high (low.trans high)⟩
    rw [abs_of_nonpos high, abs_of_nonpos (low.trans high)]
    linarith

theorem mul_scale_between {wanted s₁ s₂ v₁ v₂ : Dec} (positive : 0 < s₁.atto) (le : s₁.atto ≤ s₂.atto)
    (first : DecMath.mul wanted s₁ = .ok v₁) (second : DecMath.mul wanted s₂ = .ok v₂) :
    0 ≤ v₁.atto ∧ v₁.atto ≤ v₂.atto ∨ v₂.atto ≤ v₁.atto ∧ v₁.atto ≤ 0 := by
  rw [DecMath.mul_ok first, DecMath.mul_ok second]
  have unit : (0 : Int) < 10 ^ maxScale := Dec.ten_pow_pos _
  rcases le_or_gt 0 wanted.atto with nonneg | negative
  · refine .inl ⟨Int.ediv_nonneg (mul_nonneg nonneg positive.le) unit.le, ?_⟩
    exact Int.ediv_le_ediv unit (Int.mul_le_mul_of_nonneg_left le nonneg)
  · refine .inr ⟨Int.ediv_le_ediv unit (Int.mul_le_mul_of_nonpos_left negative.le le), ?_⟩
    exact (Int.ediv_neg_of_neg_of_pos (mul_neg_of_neg_of_pos negative positive) unit).le

theorem toRat_le_toRat {a b : Dec} (le : a.atto ≤ b.atto) : a.toRat ≤ b.toRat := by
  rw [Dec.toRat_eq_atto, Dec.toRat_eq_atto]
  exact div_le_div_of_nonneg_right (by exact_mod_cast le) (by positivity)

theorem roundTowardZero_mono {v w t u : Dec} (vSmall : |v.atto| < 2 ^ 127 * 10 ^ 10) (wSmall : |w.atto| < 2 ^ 127 * 10 ^ 10)
    (le : v.atto ≤ w.atto) (first : roundTowardZero v = .ok t) (second : roundTowardZero w = .ok u) :
    t.toRat ≤ u.toRat := by
  rw [roundTowardZero_toRat vSmall first, roundTowardZero_toRat wSmall second]
  apply div_le_div_of_nonneg_right _ (by positivity)
  have scaled : v.toRat * 10 ^ 8 ≤ w.toRat * 10 ^ 8 :=
    mul_le_mul_of_nonneg_right (toRat_le_toRat le) (by positivity)
  exact_mod_cast towardZero_mono scaled

theorem roundTowardZero_nonneg {v t : Dec} (small : |v.atto| < 2 ^ 127 * 10 ^ 10) (nonneg : 0 ≤ v.atto)
    (h : roundTowardZero v = .ok t) : 0 ≤ t.toRat := by
  rw [roundTowardZero_toRat small h]
  have above := towardZero_nonneg (mul_nonneg (toRat_nonneg nonneg) (by positivity : (0 : ℚ) ≤ 10 ^ 8))
  exact div_nonneg (by exact_mod_cast above) (by positivity)

theorem roundTowardZero_nonpos {v t : Dec} (small : |v.atto| < 2 ^ 127 * 10 ^ 10) (nonpos : v.atto ≤ 0)
    (h : roundTowardZero v = .ok t) : t.toRat ≤ 0 := by
  have below : v.toRat * 10 ^ 8 ≤ ((0 : Int) : ℚ) := by
    rw [Dec.toRat_eq_atto, Int.cast_zero]
    exact mul_nonpos_of_nonpos_of_nonneg
      (div_nonpos_of_nonpos_of_nonneg (by exact_mod_cast nonpos) (by positivity)) (by positivity)
  have cut := towardZero_mono below
  rw [towardZero_intCast] at cut
  rw [roundTowardZero_toRat small h]
  exact div_nonpos_of_nonpos_of_nonneg (by exact_mod_cast cut) (by positivity)

theorem targetNotional_scale {cfg : PlanConfig} {base s₁ s₂ t₁ t₂ : Dec} {m : Managed} {shares : Shares}
    (positive : 0 < s₁.atto) (le : s₁.atto ≤ s₂.atto) (floored : m.weight.toRat = shares.floored)
    (calm : InRange8 (flooredTarget (cfg.atScale s₂) base shares))
    (first : targetNotional (cfg.atScale s₁) base m = .ok t₁)
    (second : targetNotional (cfg.atScale s₂) base m = .ok t₂) : Smaller t₁ t₂ := by
  obtain ⟨wanted, share, first⟩ := bind_eq_ok.1 first
  obtain ⟨v₁, risk₁, round₁⟩ := bind_eq_ok.1 first
  obtain ⟨wanted', share', second⟩ := bind_eq_ok.1 second
  obtain ⟨v₂, risk₂, round₂⟩ := bind_eq_ok.1 second
  obtain rfl := Except.ok.inj (share.symm.trans share')
  have value : v₂.toRat = flooredTarget (cfg.atScale s₂) base shares := by
    rw [mul_toRat risk₂, mul_toRat share, floored, flooredTarget]
  rw [← value, inRange8_iff] at calm
  have between := mul_scale_between positive le risk₁ risk₂
  have small : |v₁.atto| < 2 ^ 127 * 10 ^ 10 := by
    apply lt_of_le_of_lt _ calm
    obtain ⟨low, high⟩ | ⟨low, high⟩ := between
    · rw [abs_of_nonneg low, abs_of_nonneg (low.trans high)]
      exact high
    · rw [abs_of_nonpos high, abs_of_nonpos (low.trans high)]
      omega
  apply smaller_of_between
  obtain ⟨low, high⟩ | ⟨low, high⟩ := between
  · exact .inl ⟨roundTowardZero_nonneg small low round₁, roundTowardZero_mono small calm high round₁ round₂⟩
  · exact .inr ⟨roundTowardZero_mono calm small low round₂ round₁, roundTowardZero_nonpos small high round₁⟩

/-! ## The lines of two plans -/

section Lines

variable [UnicodeCase] {cfg : PlanConfig} {book : VenueRuleBook} {account : AccountView}
  {prices : Std.ExtTreeMap String PricePoint} {base s₁ s₂ : Dec}

omit [UnicodeCase] in
/-- Has this instrument a line: a positive price, venue rules, and no short that no
    signed sleeve manages. -/
def hasLine (book : VenueRuleBook) (account : AccountView) (prices : Std.ExtTreeMap String PricePoint) (m : Managed) :
    Bool :=
  ((prices[m.symbol]?).filter fun (p : PricePoint) => p.price.isPositive).isSome && (book.get m.venue).isSome &&
    !((account.heldQuantity m.symbol).isNegative && !m.signed)

theorem propose_line {m : Managed} {pr : Proposal} (h : propose cfg book account prices base m = .ok pr) :
    if hasLine book account prices m then ∃ l, pr.line = some l ∧ l.symbol = m.symbol ∧
      targetNotional cfg base m = .ok l.targetNotional else pr.line = none := by
  unfold propose at h
  split at h
  next noPrice =>
    obtain rfl := Except.ok.inj h
    simp [hasLine, noPrice]
  next price quoted =>
    split at h
    next noRules =>
      obtain rfl := Except.ok.inj h
      simp [hasLine, noRules]
    next rules known =>
      simp only at h
      split at h
      next short =>
        obtain rfl := Except.ok.inj h
        simp [hasLine, short]
      next fine =>
        obtain ⟨current, -, h⟩ := bind_eq_ok.1 h
        obtain ⟨target, targetEq, h⟩ := bind_eq_ok.1 h
        obtain ⟨trade, -, h⟩ := bind_eq_ok.1 h
        obtain rfl := Except.ok.inj h
        rw [lift_eq_ok] at targetEq
        have lined : hasLine book account prices m = true := by
          rw [Bool.not_eq_true] at fine
          simp only [hasLine, quoted, known, fine]
          rfl
        rw [if_pos lined]
        exact ⟨_, rfl, rfl, targetEq⟩

/-- One line of the lower scale beside one of the higher. -/
def LineBelow (l₁ l₂ : InstrumentLine) : Prop :=
  l₁.symbol = l₂.symbol ∧ Smaller l₁.targetNotional l₂.targetNotional

/-- Every target at the higher scale is in the range of eight digits. -/
def CalmAt (cfg : PlanConfig) (book : VenueRuleBook) (account : AccountView)
    (prices : Std.ExtTreeMap String PricePoint) (base : Dec) (targets : List SleeveTarget) (ms : List Managed) : Prop :=
  ∀ m ∈ ms, hasLine book account prices m = true → InRange8 (flooredTarget cfg base (wantedShares targets m.symbol))

theorem propose_below {m : Managed} {pr₁ pr₂ : Proposal} {shares : Shares} (positive : 0 < s₁.atto)
    (le : s₁.atto ≤ s₂.atto) (floored : m.weight.toRat = shares.floored)
    (calm : hasLine book account prices m = true → InRange8 (flooredTarget (cfg.atScale s₂) base shares))
    (first : propose (cfg.atScale s₁) book account prices base m = .ok pr₁)
    (second : propose (cfg.atScale s₂) book account prices base m = .ok pr₂) :
    Option.Rel LineBelow pr₁.line pr₂.line := by
  have line₁ := propose_line first
  have line₂ := propose_line second
  split at line₁
  next lined =>
    rw [if_pos lined] at line₂
    obtain ⟨l₁, is₁, symbol₁, target₁⟩ := line₁
    obtain ⟨l₂, is₂, symbol₂, target₂⟩ := line₂
    rw [is₁, is₂]
    exact .some ⟨symbol₁.trans symbol₂.symm, targetNotional_scale positive le floored (calm lined) target₁ target₂⟩
  next unlined =>
    rw [if_neg unlined] at line₂
    rw [line₁, line₂]
    exact .none

theorem lines_below {targets : List SleeveTarget} {ms : List Managed} {prs₁ prs₂ : List Proposal}
    (positive : 0 < s₁.atto) (le : s₁.atto ≤ s₂.atto)
    (floored : ∀ m ∈ ms, m.weight.toRat = (wantedShares targets m.symbol).floored)
    (calm : CalmAt (cfg.atScale s₂) book account prices base targets ms)
    (first : List.Forall₂ (fun m pr => propose (cfg.atScale s₁) book account prices base m = .ok pr) ms prs₁)
    (second : List.Forall₂ (fun m pr => propose (cfg.atScale s₂) book account prices base m = .ok pr) ms prs₂) :
    List.Forall₂ LineBelow (prs₁.filterMap Proposal.line) (prs₂.filterMap Proposal.line) := by
  have related : List.Forall₂ (fun pr₁ pr₂ : Proposal => Option.Rel LineBelow pr₁.line pr₂.line) prs₁ prs₂ := by
    induction first generalizing prs₂ with
    | nil =>
        cases second
        exact .nil
    | @cons m pr ms prs head tail ih =>
        cases second with
        | cons head' tail' =>
            refine .cons (propose_below positive le (floored m (by simp)) (calm m (by simp)) head head') ?_
            exact ih (fun m' member => floored m' (by simp [member])) (fun m' member => calm m' (by simp [member])) tail'
  exact List.rel_filterMap (fun _ _ below => below) related

def grossOf (lines : List InstrumentLine) : ℚ := (lines.map fun l => |l.targetNotional.toRat|).sum

omit [UnicodeCase] in
theorem grossOf_le {ls₁ ls₂ : List InstrumentLine} (below : List.Forall₂ LineBelow ls₁ ls₂) : grossOf ls₁ ≤ grossOf ls₂ := by
  induction below with
  | nil => exact le_rfl
  | cons head _ ih =>
      simp only [grossOf, List.map_cons, List.sum_cons] at ih ⊢
      exact add_le_add head.2.1 ih

omit [UnicodeCase] in
theorem targetGross_toRat {lines : List InstrumentLine} {gross : Dec} (h : targetGross lines = .ok gross) :
    gross.toRat = grossOf lines := by
  obtain ⟨sizes, sized, total⟩ := bind_eq_ok.1 h
  rw [mapM_eq_ok] at sized
  rw [Dec.toRat_eq_atto, DecMath.sum_ok total]
  clear h total
  induction sized with
  | nil => simp [grossOf]
  | @cons l size lines sizes head _ ih =>
      have own : |l.targetNotional.toRat| = (size.atto : ℚ) / 10 ^ maxScale := by
        rw [Dec.toRat_eq_atto, DecMath.abs_ok head, abs_div, Int.cast_abs, abs_of_pos (by positivity : (0 : ℚ) < 10 ^ maxScale)]
      simp only [grossOf, List.map_cons, List.sum_cons] at ih ⊢
      rw [own, ← ih]
      push_cast
      ring

end Lines

/-! ## The gross cap -/

section Errors

/-- An arithmetic error, or a venue that rounded up. -/
def Unsized (e : PlanError) : Prop :=
  (∃ x, e = .math x) ∨ ∃ symbol wished returned, e = .venueRoundedUp symbol wished returned

/-- The computation fails in no other way. -/
def Sizes {α : Type} (x : Except PlanError α) : Prop := Gives Unsized (fun _ => True) x

theorem Sizes.ok {α : Type} (a : α) : Sizes (.ok a : Except PlanError α) := trivial

theorem Sizes.lift {α : Type} (x : Except MathError α) : Sizes (liftM x : Except PlanError α) := by
  cases x with
  | ok a => exact trivial
  | error e => exact .inl ⟨e, rfl⟩

theorem Sizes.bind {α β : Type} {x : Except PlanError α} {f : α → Except PlanError β} (first : Sizes x)
    (second : ∀ a, Sizes (f a)) : Sizes (x >>= f) :=
  Gives.bind first fun a _ => second a

theorem Sizes.foldlM {α β : Type} {f : β → α → Except PlanError β} (step : ∀ b a, Sizes (f b a)) (as : List α) (start : β) :
    Sizes (as.foldlM f start) :=
  Gives.foldlM (I := fun _ _ => True) (fun a _ b _ => step b a) as start trivial

theorem Sizes.mapM {α β : Type} {f : α → Except PlanError β} (each : ∀ a, Sizes (f a)) (as : List α) : Sizes (as.mapM f) :=
  (Gives.mapM each as).mono fun _ _ => trivial

theorem Sizes.error {α : Type} {x : Except PlanError α} {e : PlanError} (sizes : Sizes x) (h : x = .error e) : Unsized e := by
  rw [h] at sizes
  exact sizes

theorem sizeLegs_sizes (m : Managed) (rules : VenueRules) (price : PricePoint) (ws : List LegWish) :
    ∀ (residual : Dec) (skipped : List SkippedTrade) (pending : List Candidate),
      Sizes (sizeLegs m rules price residual skipped pending ws) := by
  induction ws with
  | nil => exact fun _ _ _ => trivial
  | cons w ws ih =>
      intro residual skipped pending
      unfold sizeLegs
      refine (Sizes.lift _).bind fun wished => ?_
      split
      next =>
        split
        · exact .ok _
        · exact ih _ _ _
      next qty _ =>
        split
        · exact .inr ⟨_, _, _, rfl⟩
        · exact (Sizes.lift _).bind fun residual => ih _ _ _

theorem proposeTrade_sizes (cfg : PlanConfig) (m : Managed) (rules : VenueRules) (price : PricePoint)
    (held current target : Dec) : Sizes (proposeTrade cfg m rules price held current target) := by
  unfold proposeTrade
  refine (Sizes.lift _).bind fun delta => ?_
  split
  · exact .ok _
  refine (Sizes.lift _).bind fun absDelta => ?_
  split
  · exact .ok _
  refine (Sizes.lift _).bind fun reference => (Sizes.lift _).bind fun pctMin => ?_
  split
  · exact .ok _
  exact (Sizes.lift _).bind fun legs => sizeLegs_sizes _ _ _ _ _ _ _

variable [UnicodeCase]

theorem propose_sizes (cfg : PlanConfig) (book : VenueRuleBook) (account : AccountView)
    (prices : Std.ExtTreeMap String PricePoint) (base : Dec) (m : Managed) :
    Sizes (propose cfg book account prices base m) := by
  unfold propose
  split
  · exact .ok _
  split
  · exact .ok _
  simp only
  split
  · exact .ok _
  refine (Sizes.lift _).bind fun current => (Sizes.lift _).bind fun target => ?_
  exact (proposeTrade_sizes _ _ _ _ _ _ _).bind fun trade => .ok _

variable [InstantText] [Sha256] (ctx : PlanContext)

theorem tryOrder_sizes (st : Placing) (c : Candidate) (qty : Dec) : Sizes (ctx.tryOrder st c qty) := by
  unfold PlanContext.tryOrder
  refine (Sizes.lift _).bind fun notional => (Sizes.lift _).bind fun fee => (Sizes.lift _).bind fun usesMargin => ?_
  simp only
  split
  · exact (Sizes.lift _).bind fun sim => (Sizes.lift _).bind fun left => .ok _
  · exact .ok _

theorem placeReducer_sizes (st : Placing) (c : Candidate) : Sizes (ctx.placeReducer st c) := by
  refine (tryOrder_sizes ctx st c c.qty).bind fun tried => ?_
  simp only
  split
  · exact .ok _
  · exact .ok _

theorem placeBuy_sizes (available : Dec) (st : Placing) (sized : Candidate × Dec) :
    Sizes (ctx.placeBuy available st sized) := by
  unfold PlanContext.placeBuy
  simp only
  split
  · exact .ok _
  · exact (tryOrder_sizes ctx st sized.1 sized.2).bind fun tried => .ok _

omit [InstantText] [Sha256] in
theorem rescale_sizes (factor : Dec) (c : Candidate) : Sizes (ctx.rescale factor c) := by
  unfold PlanContext.rescale
  refine (Sizes.lift _).bind fun product => (Sizes.lift _).bind fun scaled => ?_
  split
  · exact .ok _
  split
  · exact .ok _
  split
  · exact .ok _
  split
  · exact .ok _
  · exact .inr ⟨_, _, _, rfl⟩

omit [InstantText] [Sha256] in
theorem sizeBuys_sizes (available : Dec) (buys : List Candidate) : Sizes (ctx.sizeBuys available buys) := by
  unfold PlanContext.sizeBuys
  split
  · exact .ok _
  refine (Sizes.lift _).bind fun costs => (Sizes.lift _).bind fun total => ?_
  split
  · exact (Sizes.lift _).bind fun factor => .mapM (rescale_sizes ctx factor) buys
  · exact .ok _

theorem place_sizes (base cash : Dec) (start : Placing) (reducers increasers : List Candidate) :
    Sizes (ctx.place base cash start reducers increasers) := by
  refine (Sizes.foldlM (placeReducer_sizes ctx) _ _).bind fun reduced => ?_
  refine (Sizes.lift _).bind fun reserve => (Sizes.lift _).bind fun available => ?_
  exact (sizeBuys_sizes ctx _ _).bind fun quantities => .foldlM (placeBuy_sizes ctx available) _ _

end Errors

section Gross

variable [UnicodeCase] {targets : List SleeveTarget} {account : AccountView} {prices : Std.ExtTreeMap String PricePoint}
  {book : VenueRuleBook} {policy : Policy} {cfg : PlanConfig} {base s₁ s₂ : Dec}

theorem validateSleeves_atScale (s₁ s₂ : Dec) (ts : List SleeveTarget) :
    ∀ (seen : Std.ExtTreeSet String) (total : Dec),
      validateSleeves (cfg.atScale s₁) seen total ts = validateSleeves (cfg.atScale s₂) seen total ts := by
  induction ts with
  | nil => exact fun _ _ => rfl
  | cons t ts ih =>
      intro seen total
      have sleeve : validateSleeve (cfg.atScale s₁) t = validateSleeve (cfg.atScale s₂) t := rfl
      simp only [validateSleeves, sleeve, ih]

def UnitScale (s : Dec) : Prop := 0 < s.atto ∧ s.atto ≤ 10 ^ maxScale

omit [UnicodeCase] in
theorem UnitScale.accepted {s : Dec} (unit : UnitScale s) : ¬ (s ≤ Dec.zero ∨ Dec.one < s) := by
  rw [not_or, Dec.le_iff, Dec.lt_iff, Dec.atto_zero, atto_one, not_le, not_lt]
  exact unit

theorem validate_atScale (unit₁ : UnitScale s₁) (unit₂ : UnitScale s₂) :
    validate targets account (cfg.atScale s₁) = validate targets account (cfg.atScale s₂) := by
  have params : validateParams account (cfg.atScale s₁) = validateParams account (cfg.atScale s₂) := by
    have accepted₁ : ¬ ((cfg.atScale s₁).riskScale ≤ Dec.zero ∨ Dec.one < (cfg.atScale s₁).riskScale) := unit₁.accepted
    have accepted₂ : ¬ ((cfg.atScale s₂).riskScale ≤ Dec.zero ∨ Dec.one < (cfg.atScale s₂).riskScale) := unit₂.accepted
    unfold validateParams
    rw [if_neg accepted₁, if_neg accepted₂]
    rfl
  simp only [validate, params, validateSleeves_atScale s₁ s₂]
  rfl

theorem marginReport_grossAboveCap {equity g c : Dec} {positions : List Position} {lines : List InstrumentLine}
    (h : marginReport policy cfg equity base positions lines = .error (.grossAboveCap g c)) :
    cfg.isSigned = true ∧ targetGross lines = .ok g ∧ ∃ limits, policy.limits = some limits ∧
      DecMath.mul limits.maxGross base = .ok c ∧ c < g := by
  unfold marginReport at h
  split at h
  · cases h
  next signed =>
  rw [Bool.not_eq_true', Bool.not_eq_false] at signed
  obtain failed | ⟨gross, total, h⟩ := bind_eq_error.1 h
  · obtain ⟨x, impossible⟩ | ⟨_, _, _, impossible⟩ := (Sizes.lift _).error failed <;> cases impossible
  obtain failed | ⟨projected, -, h⟩ := bind_eq_error.1 h
  · obtain ⟨x, impossible⟩ | ⟨_, _, _, impossible⟩ := (Sizes.lift _).error failed <;> cases impossible
  rw [lift_eq_ok] at total
  obtain failed | ⟨⟨⟩, -, h⟩ := bind_eq_error.1 h
  · unfold checkTargetGross at failed
    split at failed
    next => cases failed
    next limits known =>
      obtain failed | ⟨cap, product, failed⟩ := bind_eq_error.1 failed
      · obtain ⟨x, impossible⟩ | ⟨_, _, _, impossible⟩ := (Sizes.lift _).error failed <;> cases impossible
      rw [lift_eq_ok] at product
      split at failed
      next above =>
        obtain ⟨rfl, rfl⟩ := PlanError.grossAboveCap.inj (Except.error.inj failed)
        exact ⟨signed, total, limits, known, product, above⟩
      next => cases failed
  · simp only at h
    split at h
    · cases h
    · cases h

theorem marginReport_above (equity : Dec) (positions : List Position) {c : Dec} {lines : List InstrumentLine} {limits : Limits}
    (signed : cfg.isSigned = true) (known : policy.limits = some limits)
    (product : DecMath.mul limits.maxGross base = .ok c) (above : c.toRat < grossOf lines) :
    ∃ e, marginReport policy cfg equity base positions lines = .error e ∧
      ((∃ g, e = .grossAboveCap g c) ∨ ∃ x, e = .math x) := by
  unfold marginReport
  rw [signed]
  simp only [Bool.not_true, Bool.false_eq_true, if_false]
  cases total : targetGross lines with
  | error x => exact ⟨_, rfl, .inr ⟨x, rfl⟩⟩
  | ok gross =>
    cases sum : projectedGross lines positions gross with
    | error x => exact ⟨.math x, by simp [liftM, monadLift, MonadLift.monadLift, Except.mapError, sum, bind, Except.bind], .inr ⟨x, rfl⟩⟩
    | ok projected =>
      have over' : c < gross := by
        rw [Dec.lt_iff]
        rw [← targetGross_toRat total] at above
        by_contra le
        linarith [toRat_le_toRat (not_lt.1 le)]
      refine ⟨.grossAboveCap gross c, ?_, .inl ⟨gross, rfl⟩⟩
      simp [liftM, monadLift, MonadLift.monadLift, Except.mapError, sum, bind, Except.bind, checkTargetGross, known,
        product, over']

end Gross

section Plans

variable [UnicodeCase] [InstantText] [Sha256] {targets : List SleeveTarget} {account : AccountView}
  {prices : Std.ExtTreeMap String PricePoint} {book : VenueRuleBook} {policy : Policy} {cfg : PlanConfig} {s₁ s₂ : Dec}

theorem plan_lines {p : OrderPlan} (h : plan targets account prices book policy cfg = .ok p) :
    ∃ managed prs, aggregate targets cfg = .ok managed ∧
      List.Forall₂ (fun m pr => propose cfg book account (keyPrices prices)
        (policy.capitalBase account.equity account.ccy) m = .ok pr) (inSymbolOrder managed) prs ∧
      p.lines = prs.filterMap Proposal.line := by
  obtain ⟨⟨p', placed⟩, traced, done⟩ := bind_eq_ok.1 h
  obtain rfl := Except.ok.inj done
  unfold planTraced at traced
  obtain ⟨⟨⟩, -, h⟩ := bind_eq_ok.1 traced
  obtain ⟨managed, named, h⟩ := bind_eq_ok.1 h
  obtain ⟨sim, -, h⟩ := bind_eq_ok.1 h
  obtain ⟨prs, proposed, h⟩ := bind_eq_ok.1 h
  obtain ⟨margin, -, h⟩ := bind_eq_ok.1 h
  obtain ⟨placing, -, h⟩ := bind_eq_ok.1 h
  simp only at h
  split at h
  next => cases h
  next =>
    obtain ⟨rfl, -⟩ := Prod.mk.inj (Except.ok.inj h)
    exact ⟨managed, prs, named, mapM_eq_ok.1 proposed, rfl⟩

omit [InstantText] [Sha256] in
theorem aggregate_floored {managed : Std.ExtTreeMap String Managed} (h : aggregate targets cfg = .ok managed) :
    ∀ m ∈ inSymbolOrder managed, m.weight.toRat = (wantedShares targets m.symbol).floored := by
  intro m member
  obtain ⟨k, entry⟩ := mem_inSymbolOrder member
  have key := (aggregate_named h k m entry).symbol_eq
  rw [key]
  exact (aggregate_tracks h).floored k m entry

theorem plan_grossAboveCap {g c : Dec} (unit₁ : UnitScale s₁) (unit₂ : UnitScale s₂) (le : s₁.atto ≤ s₂.atto)
    (calm : ∀ managed, aggregate targets cfg = .ok managed → CalmAt (cfg.atScale s₂) book account (keyPrices prices)
      (policy.capitalBase account.equity account.ccy) targets (inSymbolOrder managed))
    (h : plan targets account prices book policy (cfg.atScale s₁) = .error (.grossAboveCap g c)) :
    ∃ e, plan targets account prices book policy (cfg.atScale s₂) = .error e ∧
      ((∃ g', e = .grossAboveCap g' c) ∨ Unsized e) := by
  have never : ¬ Unsized (.grossAboveCap g c) := by simp [Unsized]
  obtain h | ⟨traced, -, h⟩ := bind_eq_error.1 h
  case inr => cases h
  -- the checks and the weights do not read the scale
  obtain failed | ⟨⟨⟩, valid, h⟩ := bind_eq_error.1 h
  · rw [validate_atScale unit₁ unit₂] at failed
    exact ⟨_, bind_eq_error.2 (.inl (bind_eq_error.2 (.inl failed))), .inl ⟨g, rfl⟩⟩
  rw [validate_atScale unit₁ unit₂] at valid
  obtain failed | ⟨managed, named, h⟩ := bind_eq_error.1 h
  · exact ⟨_, bind_eq_error.2 (.inl (bind_eq_error.2 (.inr ⟨_, valid, bind_eq_error.2 (.inl failed)⟩))), .inl ⟨g, rfl⟩⟩
  obtain failed | ⟨sim, valued, h⟩ := bind_eq_error.1 h
  · exact absurd ((Sizes.lift _).error failed) never
  obtain failed | ⟨prs₁, proposed₁, h⟩ := bind_eq_error.1 h
  · exact absurd ((Sizes.mapM (propose_sizes _ _ _ _ _) _).error failed) never
  obtain failed | ⟨margin, -, h⟩ := bind_eq_error.1 h
  case inr =>
    obtain failed | ⟨placing, -, h⟩ := bind_eq_error.1 h
    · exact absurd ((place_sizes _ _ _ _ _ _).error failed) never
    simp only at h
    split at h
    · cases h
    · cases h
  obtain ⟨signed, total, limits, known, product, above⟩ := marginReport_grossAboveCap failed
  have run : ∀ {e : PlanError},
      ((inSymbolOrder managed).mapM (propose (cfg.atScale s₂) book account (keyPrices prices)
          (policy.capitalBase account.equity account.ccy)) = .error e ∨
        ∃ prs₂, (inSymbolOrder managed).mapM (propose (cfg.atScale s₂) book account (keyPrices prices)
            (policy.capitalBase account.equity account.ccy)) = .ok prs₂ ∧
          marginReport policy (cfg.atScale s₂) account.equity (policy.capitalBase account.equity account.ccy)
            sim.positions (prs₂.filterMap Proposal.line) = .error e) →
      plan targets account prices book policy (cfg.atScale s₂) = .error e := by
    intro e stops
    refine bind_eq_error.2 (.inl (bind_eq_error.2 (.inr ⟨_, valid, bind_eq_error.2 (.inr ⟨managed, named, ?_⟩)⟩)))
    refine bind_eq_error.2 (.inr ⟨sim, valued, bind_eq_error.2 ?_⟩)
    obtain stops | ⟨prs₂, proposed₂, stops⟩ := stops
    · exact .inl stops
    · exact .inr ⟨prs₂, proposed₂, bind_eq_error.2 (.inl stops)⟩
  cases proposed₂ : (inSymbolOrder managed).mapM (propose (cfg.atScale s₂) book account (keyPrices prices)
      (policy.capitalBase account.equity account.ccy)) with
  | error e => exact ⟨e, run (.inl proposed₂), .inr ((Sizes.mapM (propose_sizes _ _ _ _ _) _).error proposed₂)⟩
  | ok prs₂ =>
    have below := lines_below unit₁.1 le (aggregate_floored named) (calm managed named) (mapM_eq_ok.1 proposed₁)
      (mapM_eq_ok.1 proposed₂)
    have high : c.toRat < grossOf (prs₂.filterMap Proposal.line) := by
      apply lt_of_lt_of_le _ (grossOf_le below)
      rw [← targetGross_toRat total, Dec.toRat_eq_atto, Dec.toRat_eq_atto]
      rw [Dec.lt_iff] at above
      exact div_lt_div_of_pos_right (by exact_mod_cast above) (by positivity)
    obtain ⟨e, refused, kind⟩ := marginReport_above account.equity sim.positions signed known product high
    exact ⟨e, run (.inr ⟨prs₂, proposed₂, refused⟩), kind.imp id Or.inl⟩

end Plans

namespace OrderPlanner

/-- Lowering the risk scale lowers every target toward zero and the sum of their
    sizes, and a plan that passes the gross cap at the higher scale passes it at the
    lower one, as long as the targets at the higher scale are in range. -/
theorem lower_scale_lowers_targets [UnicodeCase] [InstantText] [Sha256] (targets : List SleeveTarget)
    (account : AccountView) (prices : Std.ExtTreeMap String PricePoint) (book : VenueRuleBook) (policy : Policy)
    (cfg : PlanConfig) (s₁ s₂ : Dec) (positive : Dec.zero < s₁) (le : s₁ ≤ s₂) (unit : s₂ ≤ Dec.one)
    (calm : ∀ managed, aggregate targets cfg = .ok managed → CalmAt (cfg.atScale s₂) book account (keyPrices prices)
      (policy.capitalBase account.equity account.ccy) targets (inSymbolOrder managed)) :
    (∀ p₁ p₂, plan targets account prices book policy (cfg.atScale s₁) = .ok p₁ →
      plan targets account prices book policy (cfg.atScale s₂) = .ok p₂ →
        List.Forall₂ LineBelow p₁.lines p₂.lines ∧ grossOf p₁.lines ≤ grossOf p₂.lines) ∧
    ∀ g c, plan targets account prices book policy (cfg.atScale s₁) = .error (.grossAboveCap g c) →
      ∃ e, plan targets account prices book policy (cfg.atScale s₂) = .error e ∧
        ((∃ g', e = .grossAboveCap g' c) ∨ Unsized e) := by
  rw [Dec.lt_iff, Dec.atto_zero] at positive
  rw [Dec.le_iff] at le unit
  rw [atto_one] at unit
  constructor
  · intro p₁ p₂ first second
    obtain ⟨managed, prs₁, named, proposed₁, lines₁⟩ := plan_lines first
    obtain ⟨managed', prs₂, named', proposed₂, lines₂⟩ := plan_lines second
    obtain rfl : managed = managed' := Except.ok.inj (named.symm.trans named')
    have below := lines_below positive le (aggregate_floored named) (calm managed named) proposed₁ proposed₂
    rw [lines₁, lines₂]
    exact ⟨below, grossOf_le below⟩
  · intro g c refused
    exact plan_grossAboveCap ⟨positive, le.trans unit⟩ ⟨positive.trans_le le, unit⟩ le calm refused

namespace ShortBook

open Amount (cents)

attribute [local instance] asciiCase epochText flatHash

def oneHalf : Dec := ⟨⟨5, by decide +kernel⟩, 1, Dec.scale_one⟩

/-- Half of the capital short at half the scale is half the short. -/
theorem half_scale_lowers_short :
    ∃ p₁ p₂, shortPlan minusHalf oneHalf = .ok p₁ ∧ shortPlan minusHalf Dec.one = .ok p₂ ∧
      (p₁.lines.map fun l => l.targetNotional.atto) = [-250 * 10 ^ 18] ∧
      (p₂.lines.map fun l => l.targetNotional.atto) = [-500 * 10 ^ 18] ∧
      List.Forall₂ LineBelow p₁.lines p₂.lines ∧ grossOf p₁.lines ≤ grossOf p₂.lines := by
  have first : (shortPlan minusHalf oneHalf).map (fun p => p.lines.map fun l => l.targetNotional.atto) =
      .ok [-250 * 10 ^ 18] := by decide +kernel
  have second : (shortPlan minusHalf Dec.one).map (fun p => p.lines.map fun l => l.targetNotional.atto) =
      .ok [-500 * 10 ^ 18] := by decide +kernel
  cases planned₁ : shortPlan minusHalf oneHalf with
  | error e =>
      rw [planned₁] at first
      cases first
  | ok p₁ =>
      cases planned₂ : shortPlan minusHalf Dec.one with
      | error e =>
          rw [planned₂] at second
          cases second
      | ok p₂ =>
          rw [planned₁] at first
          rw [planned₂] at second
          have lower := lower_scale_lowers_targets (shortOf minusHalf) emptyBook bitcoinQuote shortable shortMandate
            (scaledRun Dec.one) oneHalf Dec.one (by decide +kernel) (by decide +kernel) (by decide +kernel) ?_
          · obtain ⟨below, gross⟩ := lower.1 p₁ p₂ planned₁ planned₂
            exact ⟨p₁, p₂, rfl, rfl, Except.ok.inj first, Except.ok.inj second, below, gross⟩
          · intro managed named m member _
            obtain ⟨k, entry⟩ := mem_inSymbolOrder member
            have origin := aggregate_named named k m entry
            obtain ⟨t, inside, ⟨w, weight, symbol⟩, -⟩ := origin.named
            obtain rfl := List.mem_singleton.1 inside
            obtain rfl := List.mem_singleton.1 weight
            have upper : upperName "BTC" = "BTC" := by decide +kernel
            rw [origin.symbol_eq, symbol, upper, shortOf_wanted, base_eq]
            exact inRange8_half

def vastBook : AccountView :=
  { emptyBook with ccy := "IRR", equity := ⟨⟨2 * 10 ^ 30, by decide⟩, 0, Dec.scale_zero⟩ }

/-- A long-only run that leaves every trade below `10^31` alone. -/
def quietRun (riskScale : Dec) : PlanConfig :=
  { scaledRun riskScale with
    minTradeAbs := ⟨⟨10 ^ 31, by decide⟩, 0, Dec.scale_zero⟩, signedSleeves := ∅, buyingPower := none }

def quietPlan (riskScale : Dec) : Except PlanError OrderPlan :=
  plan (shortOf Dec.one) vastBook bitcoinQuote shortable shortMandate ((quietRun Dec.one).atScale riskScale)

/-- At the full scale the target wraps below zero, at half of it it is a long. -/
theorem wrapped_target_changes_sign :
    ∃ p₁ p₂ l₁ l₂, Dec.zero < oneHalf ∧ oneHalf ≤ Dec.one ∧ quietPlan oneHalf = .ok p₁ ∧ quietPlan Dec.one = .ok p₂ ∧
      p₁.lines = [l₁] ∧ p₂.lines = [l₂] ∧ l₁.symbol = l₂.symbol ∧
      l₁.targetNotional.atto = 10 ^ 48 ∧ l₂.targetNotional.atto = (2 * 10 ^ 38 - 2 ^ 128) * 10 ^ 10 ∧
      ¬ 0 ≤ l₁.targetNotional.toRat * l₂.targetNotional.toRat := by
  have first : (quietPlan oneHalf).map (fun p => p.lines.map fun l => (l.symbol, l.targetNotional.atto)) =
      .ok [("BTC", 10 ^ 48)] := by decide +kernel
  have second : (quietPlan Dec.one).map (fun p => p.lines.map fun l => (l.symbol, l.targetNotional.atto)) =
      .ok [("BTC", (2 * 10 ^ 38 - 2 ^ 128) * 10 ^ 10)] := by decide +kernel
  cases planned₁ : quietPlan oneHalf with
  | error e =>
      rw [planned₁] at first
      cases first
  | ok p₁ =>
      cases planned₂ : quietPlan Dec.one with
      | error e =>
          rw [planned₂] at second
          cases second
      | ok p₂ =>
          rw [planned₁] at first
          rw [planned₂] at second
          obtain ⟨l₁, only₁, named₁⟩ := List.map_eq_singleton_iff.1 (Except.ok.inj first)
          obtain ⟨l₂, only₂, named₂⟩ := List.map_eq_singleton_iff.1 (Except.ok.inj second)
          obtain ⟨symbol₁, target₁⟩ := Prod.mk.inj named₁
          obtain ⟨symbol₂, target₂⟩ := Prod.mk.inj named₂
          refine ⟨p₁, p₂, l₁, l₂, by decide +kernel, by decide +kernel, rfl, rfl, only₁, only₂,
            symbol₁.trans symbol₂.symm, target₁, target₂, ?_⟩
          rw [Dec.toRat_eq_atto, Dec.toRat_eq_atto, target₁, target₂]
          norm_num [maxScale]

end ShortBook

end OrderPlanner

end RebalancerCore
