import SignalEngine.RebalancerCore.Exposure

/-! # Deployment limits and the guard

A deployment tightens every limit of the mandate, but it also lowers the capital
base, and the cash reserve is a fraction of that base. What an order allowed
under the deployment still needs under the mandate alone is exactly that the
mandate's own reserve is covered, and that its limits times the larger base fit
a decimal.
-/

open BrokerAdapters Outcome Text

namespace RebalancerCore

theorem Amount.tighten_le (current : Amount) (cap : Option Amount) :
    (current.tighten cap).toDec.atto ≤ current.toDec.atto := by
  unfold Amount.tighten
  split
  next cap =>
      split
      next smaller => exact (Dec.lt_iff.1 smaller).le
      next => exact le_rfl
  next => exact le_rfl

section Limits

variable [UnicodeCase]

theorem tightenClass_le {classes : Std.ExtTreeMap String Amount} {k : String} {cap : Amount}
    (entry : String × Amount) (known : classes[k]? = some cap) :
    ∃ cap', (tightenClass classes entry)[k]? = some cap' ∧ cap'.toDec.atto ≤ cap.toDec.atto := by
  unfold tightenClass
  split
  next current found =>
      rw [Std.ExtTreeMap.getElem?_insert]
      split
      next same =>
          have key : lowerName entry.1 = k := Std.LawfulEqCmp.eq_of_compare same
          rw [key, known] at found
          obtain rfl := Option.some.inj found
          exact ⟨_, rfl, Amount.tighten_le ..⟩
      next => exact ⟨cap, known, le_rfl⟩
  next absent =>
      rw [Std.ExtTreeMap.getElem?_insert]
      split
      next same =>
          have key : lowerName entry.1 = k := Std.LawfulEqCmp.eq_of_compare same
          rw [key, known] at absent
          cases absent
      next => exact ⟨cap, known, le_rfl⟩

theorem tightenClasses_le {classes : Std.ExtTreeMap String Amount} {k : String} {cap : Amount}
    (entries : List (String × Amount)) (known : classes[k]? = some cap) :
    ∃ cap', (entries.foldl tightenClass classes)[k]? = some cap' ∧
      cap'.toDec.atto ≤ cap.toDec.atto := by
  induction entries generalizing classes cap with
  | nil => exact ⟨cap, known, le_rfl⟩
  | cons entry entries ih =>
      obtain ⟨next, step, smaller⟩ := tightenClass_le entry known
      obtain ⟨last, rest, smallest⟩ := ih step
      exact ⟨last, rest, smallest.trans smaller⟩

theorem Policy.body_withDeployment {policy : Policy} {limits : Limits} (d : DeploymentLimits)
    (body : policy.body = .valid limits) :
    (policy.withDeployment d).body = .valid (limits.withDeployment d) := by
  unfold Policy.withDeployment
  rw [body]

theorem Policy.standing_withDeployment [InstantText] (policy : Policy) (d : DeploymentLimits)
    (now : Instant) : (policy.withDeployment d).standing now = policy.standing now := by
  unfold Policy.withDeployment
  split
  next limits body => simp [Policy.standing, Policy.limits, body]
  next => rfl

theorem Policy.maxPriceAgeSecs_withDeployment (policy : Policy) (d : DeploymentLimits) :
    (policy.withDeployment d).maxPriceAgeSecs = policy.maxPriceAgeSecs := by
  unfold Policy.withDeployment
  split <;> rfl

end Limits

theorem Policy.capitalBase_atto {policy : Policy} {limits : Limits} {equity : Dec} {ccy : String}
    (body : policy.body = .valid limits)
    (currency : eqIgnoreAsciiCase (trimmed ccy) limits.ccy = true) :
    (policy.capitalBase equity ccy).atto = min equity.atto limits.allocated.toDec.atto := by
  simp only [Policy.capitalBase, Policy.limits, body, eqIgnoreAsciiCase_symm currency, if_true]
  exact Dec.atto_min ..

namespace Guard

theorem Within.of_le {fraction fraction' base base' value : Dec}
    (within : Within fraction' base' value)
    (product : fraction'.atto * base'.atto ≤ fraction.atto * base.atto)
    (fits : ∃ cap, DecMath.mul fraction base = .ok cap) : Within fraction base value := by
  obtain ⟨cap', product', le⟩ := within
  obtain ⟨cap, exact'⟩ := fits
  refine ⟨cap, exact', ?_⟩
  rw [Dec.le_iff, DecMath.mul_ok product'] at le
  rw [Dec.le_iff, DecMath.mul_ok exact']
  exact le.trans (Int.ediv_le_ediv (Dec.ten_pow_pos _) product)

theorem Within.product_nonneg {fraction base value : Dec} (within : Within fraction base value)
    (nonneg : 0 ≤ value.atto) : 0 ≤ fraction.atto * base.atto := by
  obtain ⟨cap, product, le⟩ := within
  rw [Dec.le_iff, DecMath.mul_ok product] at le
  by_contra negative
  have below := Int.ediv_neg_of_neg_of_pos (not_le.1 negative) (Dec.ten_pow_pos maxScale)
  omega

variable [UnicodeCase]

/-- The limits the guard multiplies with the capital base for this order. -/
def limitsRead (limits : Limits) (account : AccountView) (order : ProposedOrder)
    (context : Option SignedContext) (expired reducing : Bool) : List Dec :=
  (if reducing then []
    else
      [limits.maxPosition.toDec, limits.maxGross.toDec, limits.maxNet.toDec] ++
        (limits.maxAssetClass[lowerName order.assetClass]?).toList.map Amount.toDec ++
        context.toList.map fun c =>
          effectiveGrossCap limits (c.instruments.rule order.venue order.symbol)) ++
  if churnExempt account order expired reducing then [] else [limits.maxTurnoverPerDay.toDec]

/-- What the order leaves covers the reserve the policy asks for. -/
def ReserveCovered (policy : Policy) (account : AccountView) (order : ProposedOrder)
    (context : Option SignedContext) : Prop :=
  ∃ quote onMargin notional after reserve, order.price = some quote ∧
    derivedMargin account order context (some quote.price) = .ok onMargin ∧
    DecMath.mul order.quantity quote.price = .ok notional ∧
    afterState account order notional (lowerName order.assetClass) = .ok after ∧
    policy.reserveAmount (policy.capitalBase account.equity account.ccy) = .ok reserve ∧
    Funded account order context onMargin quote.price reserve after

/-- What the mandate alone asks of an order beyond what a deployment asks. -/
structure MandateCovers (policy : Policy) (limits : Limits) (expired : Bool)
    (account : AccountView) (order : ProposedOrder) (context : Option SignedContext)
    (reducing : Bool) : Prop where
  fits : ∀ limit ∈ limitsRead limits account order context expired reducing,
    ∃ cap, DecMath.mul limit (policy.capitalBase account.equity account.ccy) = .ok cap
  /-- A negative leverage of the venue caps the gross exposure below zero. -/
  grossCap : reducing = false → ∀ c, context = some c →
    0 ≤ (effectiveGrossCap limits (c.instruments.rule order.venue order.symbol)).atto *
      (policy.capitalBase account.equity account.ccy).atto
  reserve : reducing = false → ReserveCovered policy account order context

/-- `MandateCovers` at the limits, the standing and the direction of the order. -/
def CoveredByMandate [InstantText] (policy : Policy) (account : AccountView)
    (order : ProposedOrder) (context : Option SignedContext) : Prop :=
  ∃ limits reducing, policy.body = .valid limits ∧
    isReducing (account.heldQuantity order.symbol) order.side order.quantity = .ok reducing ∧
    MandateCovers policy limits (decide (policy.standing account.now = .expired)) account order
      context reducing

section Transfer

variable [InstantText] {policy : Policy} {limits : Limits} {expired reducing onMargin : Bool}
  {account : AccountView} {order : ProposedOrder} {day : DayCounters}
  {context : Option SignedContext} {price notional : Dec} {after : After}

theorem Passed.covers (passed : Passed policy limits expired account order day context reducing
    onMargin price notional after) :
    MandateCovers policy limits expired account order context reducing := by
  have whole : ∀ {fraction base value : Dec}, Within fraction base value →
      ∃ cap, DecMath.mul fraction base = .ok cap := fun ⟨cap, product, _⟩ => ⟨cap, product⟩
  constructor
  · intro limit read
    rw [limitsRead, List.mem_append] at read
    obtain exposure | churn := read
    · cases reducing with
      | true => simp at exposure
      | false =>
          have within := passed.exposure rfl
          simp only [Bool.false_eq_true, if_false, List.mem_append, List.mem_cons, List.not_mem_nil,
            or_false, List.mem_map, Option.mem_toList] at exposure
          obtain ((rfl | rfl | rfl) | ⟨cap, known, rfl⟩) | ⟨c, rfl, rfl⟩ := exposure
          · exact whole within.position
          · exact whole within.gross
          · obtain ⟨net, -, inside⟩ := within.net
            exact whole inside
          · exact whole (within.assetClass cap known)
          · exact whole (passed.leverage rfl)
    · cases exempt : churnExempt account order expired reducing with
      | true => simp [exempt] at churn
      | false =>
          obtain rfl : limit = _ := by simpa [exempt] using churn
          obtain ⟨turnover, -, inside⟩ := (passed.churn exempt).turnover
          exact whole inside
  · rintro adds c rfl
    exact (passed.leverage adds).product_nonneg (afterState_ok passed.after_eq).gross_nonneg
  · intro adds
    obtain ⟨quote, quoted, same⟩ := checkPrice_clean passed.price_eq
    obtain rfl := Option.some.inj same
    obtain ⟨reserve, reserveEq, funded⟩ := passed.funding adds
    exact ⟨quote, onMargin, notional, after, reserve, quoted, passed.margin_eq, passed.notional_eq,
      passed.after_eq, reserveEq, funded⟩

omit [InstantText] in
/-- The two capital bases of a readable account: the deployment's is not larger. -/
theorem base_withDeployment (d : DeploymentLimits) (body : policy.body = .valid limits)
    (readable : Readable limits account order) :
    0 ≤ ((policy.withDeployment d).capitalBase account.equity account.ccy).atto ∧
      ((policy.withDeployment d).capitalBase account.equity account.ccy).atto ≤
        (policy.capitalBase account.equity account.ccy).atto := by
  have tighter := limits.allocated.tighten_le d.capitalAllocation
  have nonneg := (limits.allocated.tighten d.capitalAllocation).nonneg
  have equity := readable.equity
  rw [Policy.capitalBase_atto body readable.currency,
    Policy.capitalBase_atto (Policy.body_withDeployment d body) readable.currency]
  simp only [Limits.withDeployment]
  omega

omit [InstantText] in
theorem effectiveGrossCap_withDeployment (limits : Limits) (d : DeploymentLimits)
    (rule : Option InstrumentVenueRule) :
    (effectiveGrossCap (limits.withDeployment d) rule).atto ≤ (effectiveGrossCap limits rule).atto := by
  have tighter := limits.maxGross.tighten_le d.maxGross
  unfold effectiveGrossCap
  split <;> simp only [Dec.atto_min, Limits.withDeployment] <;> omega

/-- An order that passed under a deployment passes under the mandate alone when
    the mandate's own reserve and products are covered. -/
theorem Passed.undeployed {d : DeploymentLimits} (body : policy.body = .valid limits)
    (readable : Readable limits account order)
    (passed : Passed (policy.withDeployment d) (limits.withDeployment d) expired account order day
      context reducing onMargin price notional after)
    (covers : MandateCovers policy limits expired account order context reducing) :
    Passed policy limits expired account order day context reducing onMargin price notional
      after := by
  obtain ⟨baseNonneg, baseLe⟩ := base_withDeployment d body readable
  -- Caps: a smaller fraction of a smaller base, both not negative.
  have loosen : ∀ {cap cap' : Amount} {value : Dec}, cap'.toDec.atto ≤ cap.toDec.atto →
      cap.toDec ∈ limitsRead limits account order context expired reducing →
      Within cap' ((policy.withDeployment d).capitalBase account.equity account.ccy) value →
      Within cap (policy.capitalBase account.equity account.ccy) value := by
    intro cap cap' value le read within
    refine within.of_le ?_ (covers.fits _ read)
    calc
      _ ≤ cap.toDec.atto * _ := Int.mul_le_mul_of_nonneg_right le baseNonneg
      _ ≤ _ := Int.mul_le_mul_of_nonneg_left baseLe cap.nonneg
  refine
    { reducing_eq := passed.reducing_eq, state := passed.state, «universe» := passed.universe,
      shorting := passed.shorting, derivatives := passed.derivatives,
      margin_eq := passed.margin_eq, notional_eq := passed.notional_eq,
      after_eq := passed.after_eq, price_eq := ?_, leverage := ?_, exposure := ?_, churn := ?_,
      funding := ?_ }
  · have quoted := passed.price_eq
    unfold checkPrice at quoted ⊢
    rwa [Policy.maxPriceAgeSecs_withDeployment] at quoted
  · have leverage := passed.leverage
    cases context with
    | none => exact leverage
    | some c =>
        intro adds
        have grossCap := covers.grossCap adds c rfl
        have tighter := effectiveGrossCap_withDeployment limits d
          (c.instruments.rule order.venue order.symbol)
        refine (leverage adds).of_le ?_ (covers.fits _ (by simp [limitsRead, adds]))
        refine (Int.mul_le_mul_of_nonneg_right tighter baseNonneg).trans ?_
        rcases le_or_gt 0 (effectiveGrossCap limits
          (c.instruments.rule order.venue order.symbol)).atto with nonneg | negative
        · exact Int.mul_le_mul_of_nonneg_left baseLe nonneg
        · exact (mul_nonpos_of_nonpos_of_nonneg negative.le baseNonneg).trans grossCap
  · intro adds
    have within := passed.exposure adds
    refine
      { units := within.units, notional := ?_, position := ?_, assetClass := ?_, gross := ?_,
        net := ?_ }
    · have le := within.notional
      rw [Dec.le_iff] at le ⊢
      exact le.trans (limits.maxOrderNotional.tighten_le d.maxOrderNotional)
    · exact loosen (limits.maxPosition.tighten_le _) (by simp [limitsRead, adds]) within.position
    · intro cap known
      obtain ⟨cap', known', le⟩ := tightenClasses_le d.maxAssetClass.toList known
      refine loosen le ?_ (within.assetClass cap' known')
      simp [limitsRead, adds, known]
    · exact loosen (limits.maxGross.tighten_le _) (by simp [limitsRead, adds]) within.gross
    · obtain ⟨net, size, inside⟩ := within.net
      exact ⟨net, size, loosen (limits.maxNet.tighten_le _) (by simp [limitsRead, adds]) inside⟩
  · intro counted
    obtain ⟨orders, turnover, sum, inside⟩ := passed.churn counted
    refine ⟨orders.trans ?_, turnover, sum, ?_⟩
    · simp only [Limits.withDeployment]
      cases d.maxOrdersPerDay <;> simp
    · exact loosen (limits.maxTurnoverPerDay.tighten_le _) (by simp [limitsRead, counted]) inside
  · intro adds
    obtain ⟨quote, onMargin', notional', after', reserve, quoted, margin, product, state, reserveEq,
      funded⟩ := covers.reserve adds
    obtain ⟨quote', quoted', same⟩ := checkPrice_clean passed.price_eq
    rw [quoted] at quoted'
    obtain rfl := Option.some.inj quoted'
    obtain rfl := Option.some.inj same
    rw [passed.margin_eq] at margin
    obtain rfl := Except.ok.inj margin
    rw [passed.notional_eq] at product
    obtain rfl := Except.ok.inj product
    rw [passed.after_eq] at state
    obtain rfl := Except.ok.inj state
    exact ⟨reserve, reserveEq, funded⟩

/-- For an order allowed under a deployment, the mandate alone allows it exactly
    when it covers it. -/
theorem run_allow_iff_covered {d : DeploymentLimits}
    (allowed : (PreTradeGuard.run (policy.withDeployment d) account order day context).allow = true) :
    (PreTradeGuard.run policy account order day context).allow = true ↔
      CoveredByMandate policy account order context := by
  constructor
  · intro mandate
    obtain ⟨limits, expired, body, standing, -, reducing, onMargin, price, notional, after, passed⟩ :=
      run_allow_iff.1 mandate
    refine ⟨limits, reducing, body, passed.reducing_eq, ?_⟩
    have same : decide (policy.standing account.now = .expired) = expired := by
      rw [standing]
      cases expired <;> rfl
    rw [same]
    exact passed.covers
  · rintro ⟨limits, reducing, body, direction, covers⟩
    obtain ⟨limits', expired, body', standing, readable, reducing', onMargin, price, notional, after,
      passed⟩ := run_allow_iff.1 allowed
    rw [Policy.body_withDeployment d body] at body'
    obtain rfl := PolicyBody.valid.inj body'
    rw [passed.reducing_eq] at direction
    obtain rfl := Except.ok.inj direction
    rw [Policy.standing_withDeployment] at standing
    have same : decide (policy.standing account.now = .expired) = expired := by
      rw [standing]
      cases expired <;> rfl
    rw [same] at covers
    have readable' : Readable limits account order :=
      ⟨readable.quantity, readable.fee, readable.symbol, readable.equity, readable.currency⟩
    exact run_allow_iff.2 ⟨limits, expired, body, standing, readable', reducing', onMargin, price,
      notional, after, passed.undeployed body readable' covers⟩

end Transfer

end Guard

namespace PreTradeGuard

/-- An order allowed under a deployment is allowed under the mandate alone exactly
    when the mandate covers it: its limits times its own capital base fit, and a
    non-reducing order leaves the reserve of that base. -/
theorem deployment_never_looser_iff [UnicodeCase] [InstantText] (policy : Policy)
    (d : DeploymentLimits) (account : AccountView) (order : ProposedOrder) (day : DayCounters) :
    ((check (policy.withDeployment d) account order day).allow = true →
      ((check policy account order day).allow = true ↔
        Guard.CoveredByMandate policy account order none)) ∧
    ∀ margin instruments,
      (checkSigned (policy.withDeployment d) account order day margin instruments).allow = true →
      ((checkSigned policy account order day margin instruments).allow = true ↔
        Guard.CoveredByMandate policy account order (some ⟨margin, instruments⟩)) :=
  ⟨Guard.run_allow_iff_covered, fun _ _ => Guard.run_allow_iff_covered⟩

section Sample

open Amount (cents)

attribute [local instance] asciiCase epochText

/-- Half of an allocation of 5000 is kept in cash; gross exposure may reach twice the base. -/
private def halfInCash : Policy where
  bodyHash := "0"
  envelope := some ⟨1, .active, 0, 31536000000000000⟩
  maxPriceAgeSecs := ⟨300, fiveMinutes_fits⟩
  body := .valid
    { ccy := "USD"
      allocated := cents 500000
      minCashReserve := cents 50
      instrumentAllow := .ofList ["SPY", "TLT"]
      instrumentDeny := ∅
      venues := .ofList ["alpaca"]
      assetClasses := .ofList ["etf"]
      shorting := false
      derivatives := false
      leverageMaxGross := cents 200
      maxPosition := cents 100
      maxAssetClass := ∅
      maxGross := cents 200
      maxNet := cents 200
      maxOrderNotional := cents 500000
      maxOrdersPerDay := 10
      maxTurnoverPerDay := cents 200
      classes_lower := noClasses_lower }

/-- The deployment may use 2000 of the allocation. -/
private def smallDeployment : DeploymentLimits :=
  ⟨some (cents 200000), none, none, none, none, none, none, none, ∅⟩

private def invested : AccountView where
  accountId := "acct"
  ccy := "USD"
  equity := cents 500000
  cash := cents 350000
  positions := [⟨"TLT", "alpaca", "etf", cents 1500, cents 150000⟩]
  halted := false
  now := 0

/-- Buy `quantity` SPY at 100. -/
private def buySpy (quantity : Dec) : ProposedOrder where
  venue := "alpaca"
  assetClass := "etf"
  symbol := "SPY"
  side := .buy
  quantity := quantity
  price := some ⟨cents 10000, 0⟩
  estFee := Dec.zero
  usesMargin := false
  isDerivative := false
  lossRungCover := false

/-- Under the deployment the reserve is 1000, under the mandate it is 2500: an
    order that leaves 2400 is allowed only under the tighter limits. -/
theorem deployment_lowers_the_reserve :
    (check (halfInCash.withDeployment smallDeployment) invested (buySpy (cents 1100))
      ⟨0, Dec.zero⟩).allow = true ∧
    (check halfInCash invested (buySpy (cents 1100)) ⟨0, Dec.zero⟩).allow = false := by
  decide +kernel

/-- An order that leaves 2600 is covered by the mandate. -/
theorem deployment_order_covered :
    (check (halfInCash.withDeployment smallDeployment) invested (buySpy (cents 900))
      ⟨0, Dec.zero⟩).allow = true ∧
    Guard.CoveredByMandate halfInCash invested (buySpy (cents 900)) none := by
  have allowed : (check (halfInCash.withDeployment smallDeployment) invested (buySpy (cents 900))
      ⟨0, Dec.zero⟩).allow = true := by decide +kernel
  refine ⟨allowed, ?_⟩
  apply ((deployment_never_looser_iff halfInCash smallDeployment invested (buySpy (cents 900))
    ⟨0, Dec.zero⟩).1 allowed).1
  decide +kernel

end Sample

end PreTradeGuard

end RebalancerCore
