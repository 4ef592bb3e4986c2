import SignalEngine.RebalancerCore.PlannerMonotone
import SignalEngine.RebalancerCore.Books
import SignalEngine.RebalancerCore.TargetBounds

/-! # Long-only plans keep the mandate

A long-only plan orders each instrument at most once: it sells part of what is
held, or buys under the guard. Every order keeps the exposure limits of the
mandate, so they hold after any number of the plan's orders.
-/

open BrokerAdapters Outcome Text

namespace RebalancerCore

section LongOrders

/-- A long book: nothing below zero, distinct symbols, and the instruments `ms`
    recorded under their own class. -/
structure LongBook (ms : List Instrument) (positions : List Position) : Prop where
  distinct : Distinct positions
  quantity : ∀ p ∈ positions, 0 ≤ p.quantity.atto
  value : ∀ p ∈ positions, 0 ≤ p.value
  classes : ∀ p ∈ positions, ∀ m ∈ ms, p.isOf m.symbol = true → p.inClass m.assetClass = true

/-- What a long-only order may do to the book it meets: sell part of a position
    at the price that values it, or buy. -/
structure LongOrder (positions : List Position) (o : PlannedOrder) : Prop where
  price : 0 < o.price.atto
  sells : o.side = .sell → ∃ p, traded o.symbol positions = [p] ∧
    o.quantity.atto ≤ p.quantity.atto ∧ p.value = valueAt p.quantity.atto o.price.atto

/-- The mandate after some orders, the last of them given. -/
structure MandateHolds [InstantText] (policy : Policy) (limits : Limits) (base : Dec) (s : SimState)
    (last : Option PlannedOrder) : Prop where
  caps : WithinCaps limits base s.account.positions
  buy : ∀ o ∈ last, o.side = .buy → o.notional ≤ limits.maxOrderNotional.toDec ∧
    ∃ reserve, policy.reserveAmount base = .ok reserve ∧ reserve ≤ s.account.cash
  /-- Reductions of a halted or expired account are not counted. -/
  churn : ∀ o ∈ last, ¬ (o.side = .sell ∧
      (s.account.halted = true ∨ policy.standing s.account.now = .expired)) →
    s.day.ordersToday ≤ limits.maxOrdersPerDay ∧
      UnderCap limits.maxTurnoverPerDay base s.day.turnoverToday.atto

variable {o : PlannedOrder} {ps positions : List Position}

theorem heldIn_of_traded {symbol : String} {p : Position} (one : traded symbol positions = [p]) :
    heldIn positions symbol = p.quantity.atto := by
  have first : positions.find? (Position.isOf symbol) = some p := by
    rw [← List.head?_filter]
    exact congrArg List.head? one
  have same : (fun (p : Position) => eqIgnoreAsciiCase p.symbol symbol) = Position.isOf symbol := rfl
  rw [heldIn, same, first]

theorem heldIn_nonneg (long : ∀ p ∈ positions, 0 ≤ p.quantity.atto) (symbol : String) :
    0 ≤ heldIn positions symbol := by
  unfold heldIn
  cases found : positions.find? fun (p : Position) => eqIgnoreAsciiCase p.symbol symbol with
  | none => exact le_rfl
  | some p => exact long p (List.mem_of_find?_eq_some found)

variable [UnicodeCase] [InstantText] [Sha256] {ctx : PlanContext} {s s' : SimState} {pl : Placed}
  {ms : List Instrument} {limits : Limits} {base : Dec}

theorem Admits.passed (admits : Admits ctx s pl s') (unsigned : ctx.cfg.isSigned = false)
    (body : ctx.policy.limits = some limits) : ∃ expired proposed reducing onMargin after,
      proposed.symbol = pl.order.symbol ∧ proposed.assetClass = pl.order.assetClass ∧
      proposed.side = pl.order.side ∧ proposed.quantity = pl.order.quantity ∧
      proposed.estFee = pl.order.estFee ∧ proposed.lossRungCover = false ∧
      ctx.policy.standing s.account.now = Guard.standingOf expired ∧
      Guard.Passed ctx.policy limits expired s.account proposed s.day none reducing onMargin
        pl.order.price pl.order.notional after := by
  obtain ⟨buyingPowerLeft, usesMargin, allowed, -⟩ := admits.allowed
  simp only [PlanContext.verdict, unsigned, Bool.false_eq_true, if_false] at allowed
  obtain ⟨limits', expired, valid, standing, -, reducing, onMargin, price, notional, after, passed⟩ :=
    Guard.run_allow_iff.1 allowed
  have same : limits' = limits := by simpa [Policy.limits, valid] using body
  subst same
  obtain ⟨quote, quoted, priced⟩ := Guard.checkPrice_clean passed.price_eq
  have priceEq : price = pl.order.price := by
    rw [admits.order]
    simp only [Candidate.proposed, Option.some.injEq] at quoted
    rw [Option.some.inj priced, ← quoted]
    rfl
  have notionalEq : notional = pl.order.notional := by
    have product := passed.notional_eq
    have own := admits.notional
    rw [priceEq, admits.order] at product
    simp only [Candidate.proposed, PlanContext.order] at product
    rw [own] at product
    exact (Except.ok.inj product).symm
  subst priceEq notionalEq
  refine ⟨expired, _, reducing, onMargin, after, ?_, ?_, ?_, rfl, rfl, rfl, standing, passed⟩
  · rw [admits.order]
    rfl
  · rw [admits.order]
    rfl
  · rw [admits.order]
    rfl

/-- The order trades one of the instruments, and their names are normal. -/
structure Listed (ms : List Instrument) (o : PlannedOrder) : Prop where
  known : ∃ m ∈ ms, m.symbol = o.symbol ∧ m.assetClass = o.assetClass
  unique : ∀ m ∈ ms, eqIgnoreAsciiCase o.symbol m.symbol = true → m.assetClass = o.assetClass
  symbol : trimmed o.symbol = o.symbol
  assetClass : lowerName o.assetClass = o.assetClass

omit [InstantText] [Sha256] in
theorem Listed.classes {ps' : List Position} {quantity value : Dec} (listed : Listed ms o) (book : LongBook ms ps)
    (updated : Updated ⟨o.symbol, o.venue, o.assetClass⟩ quantity value ps ps') :
    ∀ p' ∈ traded o.symbol ps', p'.inClass o.assetClass = true := by
  intro p' member
  obtain ⟨-, new⟩ | ⟨p, p₁, old, new, -, sameClass, -, -⟩ := updated.traded_eq
  · rw [new, List.mem_singleton] at member
    subst member
    rw [Position.inClass, ← listed.assetClass, trimmed_lowerName]
    exact eqIgnoreAsciiCase_refl _
  · rw [new, List.mem_singleton] at member
    subst member
    have inside : p ∈ traded o.symbol ps := by
      rw [old]
      simp
    obtain ⟨inBook, ours⟩ := List.mem_filter.1 inside
    obtain ⟨m, known, symbol, assetClass⟩ := listed.known
    have counted := book.classes p inBook m known (by rw [symbol]; exact ours)
    rw [assetClass] at counted
    rw [Position.inClass, sameClass]
    exact counted

omit [UnicodeCase] [InstantText] [Sha256] in
theorem LongOrder.part {positions : List Position} {o : PlannedOrder} (long : LongOrder positions o)
    (positive : 0 < o.quantity.atto) :
    0 ≤ valueAt o.quantity.atto o.price.atto ∧
      (o.side = .sell → ∃ p, traded o.symbol positions = [p] ∧
        o.quantity.atto ≤ p.quantity.atto ∧ valueAt o.quantity.atto o.price.atto ≤ p.value) := by
  constructor
  · have le := valueAt_mono long.price.le positive.le
    rwa [valueAt_zero] at le
  · intro side
    obtain ⟨p, held, part, worth⟩ := long.sells side
    refine ⟨p, held, part, ?_⟩
    rw [worth]
    exact valueAt_mono long.price.le part

omit [InstantText] [Sha256] in
theorem LongBook.after_order {ps' : List Position} {quantity value : Dec} (book : LongBook ms ps)
    (listed : Listed ms o) (long : LongOrder ps o) (positive : 0 < o.quantity.atto)
    (quantityEq : quantity.atto = Side.signed o.side o.quantity.atto)
    (valueEq : value.atto = Side.signed o.side (valueAt o.quantity.atto o.price.atto))
    (updated : Updated ⟨o.symbol, o.venue, o.assetClass⟩ quantity value ps ps') :
    LongBook ms ps' := by
  obtain ⟨nonneg, sells⟩ := long.part positive
  have mine : ∀ p' ∈ traded o.symbol ps', 0 ≤ p'.quantity.atto ∧ 0 ≤ p'.value := by
    intro p' member
    obtain ⟨none, new⟩ | ⟨p, p₁, old, new, -, -, size, worth⟩ := updated.traded_eq
    · rw [new, List.mem_singleton] at member
      subst member
      cases side : o.side with
      | buy =>
          simp only [side, Side.signed] at quantityEq valueEq
          simp only [Position.value]
          omega
      | sell =>
          obtain ⟨p, held, -⟩ := sells side
          rw [held] at none
          cases none
    · rw [new, List.mem_singleton] at member
      subst member
      have inside : p ∈ ps := by
        have filtered : p ∈ traded o.symbol ps := by
          rw [old]
          simp
        exact (List.mem_filter.1 filtered).1
      have before := book.quantity p inside
      have before' := book.value p inside
      cases side : o.side with
      | buy =>
          simp only [side, Side.signed] at quantityEq valueEq
          omega
      | sell =>
          obtain ⟨p₂, held, part, part'⟩ := sells side
          rw [held] at old
          obtain rfl : p₂ = p := by simpa using old
          simp only [side, Side.signed] at quantityEq valueEq
          omega
  refine ⟨updated.distinct, ?_, ?_, ?_⟩
  · intro p member
    obtain ours | other := mem_traded_or_others (s := o.symbol) member
    · exact (mine p ours).1
    · rw [updated.others_eq] at other
      exact book.quantity p (List.mem_filter.1 other).1
  · intro p member
    obtain ours | other := mem_traded_or_others (s := o.symbol) member
    · exact (mine p ours).2
    · rw [updated.others_eq] at other
      exact book.value p (List.mem_filter.1 other).1
  · intro p member m known named
    obtain ours | other := mem_traded_or_others (s := o.symbol) member
    · have spelled : eqIgnoreAsciiCase o.symbol m.symbol = true :=
        eqIgnoreAsciiCase_trans (eqIgnoreAsciiCase_symm (List.mem_filter.1 ours).2) named
      rw [listed.unique m known spelled]
      exact listed.classes book updated p ours
    · rw [updated.others_eq] at other
      exact book.classes p (List.mem_filter.1 other).1 m known named

theorem Admits.keeps_mandate (admits : Admits ctx s pl s') (unsigned : ctx.cfg.isSigned = false)
    (body : ctx.policy.limits = some limits)
    (baseEq : ctx.policy.capitalBase s.account.equity s.account.ccy = base)
    (listed : Listed ms pl.order) (long : LongOrder s.account.positions pl.order)
    (book : LongBook ms s.account.positions) (caps : WithinCaps limits base s.account.positions) :
    LongBook ms s'.account.positions ∧
      MandateHolds ctx.policy limits base s' (some pl.order) := by
  obtain ⟨expired, proposed, reducing, onMargin, after, symbol, assetClass, side, size, fee, cover,
    standing, passed⟩ := admits.passed unsigned body
  have applied := apply_ok admits.applied
  obtain ⟨quantity, value, quantityEq, valueEq, update⟩ := applied.positions
  have updated := updatePosition_ok book.distinct update
  have positive := admits.quantity_pos
  have worth : pl.order.notional.atto = valueAt pl.order.quantity.atto pl.order.price.atto := by
    rw [← size]
    exact mul_valueAt passed.notional_eq
  obtain ⟨nonneg, sells⟩ := long.part positive
  have halted : s'.account.halted = s.account.halted := by
    simpa using congrArg AccountView.halted applied.frame
  have now : s'.account.now = s.account.now := by
    simpa using congrArg AccountView.now applied.frame
  -- A buy on a long book is not a reduction, a sell of what is held is one.
  have direction : reducing = decide (pl.order.side = .sell) := by
    have reads := passed.reducing_eq
    rw [side, size, symbol] at reads
    cases traded : pl.order.side with
    | buy =>
        have held : (s.account.heldQuantity pl.order.symbol).isNegative = false := by
          rw [isNegative_false, heldQuantity_atto]
          exact heldIn_nonneg book.quantity _
        simp [traded, Guard.isReducing, held] at reads
        simp [reads]
    | sell =>
        obtain ⟨p, held, part, -⟩ := sells traded
        have found : (s.account.heldQuantity pl.order.symbol).atto = p.quantity.atto := by
          rw [heldQuantity_atto, heldIn_of_traded held]
        have long : (s.account.heldQuantity pl.order.symbol).isPositive = true := by
          rw [Dec.isPositive_iff]
          omega
        have fits : pl.order.quantity ≤ s.account.heldQuantity pl.order.symbol := by
          rw [Dec.le_iff]
          omega
        simp [traded, Guard.isReducing, long, fits] at reads
        simp [← reads]
  have projects := Guard.afterState_ok passed.after_eq
  have cash : s'.account.cash.atto = after.cash.atto := by
    rw [applied.cash, projects.cash, side, fee, worth]
  have keeps : WithinCaps limits base s'.account.positions := by
    cases traded : pl.order.side with
    | buy =>
        have exposure := passed.exposure (by simp [direction, traded])
        rw [baseEq] at exposure
        refine updated.order_keeps_caps ?_ ?_ ?_ (listed.classes book updated) projects exposure caps
        · rw [symbol, listed.symbol]
        · rw [assetClass, listed.assetClass]
        · rw [valueEq, side, worth]
    | sell =>
        obtain ⟨p, held, -, part⟩ := sells traded
        rw [traded, Side.signed] at valueEq
        exact updated.sell_keeps_caps book.value held (by omega) (by omega) caps
  refine ⟨book.after_order listed long positive quantityEq valueEq updated, keeps, ?_, ?_⟩
  · intro o member bought
    obtain rfl := Option.mem_some_iff.1 member
    have adds : reducing = false := by simp [direction, bought]
    obtain ⟨reserve, reserveEq, funded⟩ := passed.funding adds
    refine ⟨(passed.exposure adds).notional, reserve, by rwa [← baseEq], ?_⟩
    have covered : reserve ≤ after.cash := funded
    rw [Dec.le_iff] at covered ⊢
    omega
  · intro o member counted
    obtain rfl := Option.mem_some_iff.1 member
    rw [halted, now, standing] at counted
    have notExempt : Guard.churnExempt s.account proposed expired reducing = false := by
      cases sold : pl.order.side with
      | buy => simp [Guard.churnExempt, direction, sold, cover]
      | sell =>
          cases expired with
          | true => simp [sold, Guard.standingOf] at counted
          | false =>
              simp only [sold, Guard.standingOf, Bool.false_eq_true, if_false, reduceCtorEq, or_false,
                true_and, Bool.not_eq_true] at counted
              simp [Guard.churnExempt, counted, cover]
    obtain ⟨orders, turnover, sum, within⟩ := passed.churn notExempt
    constructor
    · have grown := applied.orders
      omega
    · have under := within.underCap
      rw [baseEq, DecMath.add_ok sum, worth] at under
      rwa [applied.turnover]

omit [UnicodeCase] [InstantText] [Sha256] in
theorem LongOrder.after_other {ps' : List Position} {m : Instrument} {quantity value : Dec} {o : PlannedOrder}
    (long : LongOrder ps o) (distinct : Distinct ps) (apart : eqIgnoreAsciiCase m.symbol o.symbol = false)
    (update : updatePosition m quantity value ps = .ok ps') : LongOrder ps' o := by
  refine ⟨long.price, fun side => ?_⟩
  rw [traded_update_other apart distinct update]
  exact long.sells side

theorem Accepts.keeps_mandate {s s' : SimState} {ps : List Placed} (accepts : Accepts ctx s ps s')
    (unsigned : ctx.cfg.isSigned = false) (body : ctx.policy.limits = some limits)
    (baseEq : ctx.policy.capitalBase s.account.equity s.account.ccy = base)
    (once : (ps.map fun pl => pl.order.symbol).Nodup)
    (keys : ∀ pl ∈ ps, IsKey pl.order.symbol) (listed : ∀ pl ∈ ps, Listed ms pl.order)
    (long : ∀ pl ∈ ps, LongOrder s.account.positions pl.order)
    (book : LongBook ms s.account.positions) (caps : WithinCaps limits base s.account.positions) :
    MandateHolds ctx.policy limits base s' (ps.map Placed.order).getLast? := by
  induction accepts with
  | nil => exact ⟨caps, by simp, by simp⟩
  | @cons s s₁ s₂ pl rest admits run ih =>
      obtain ⟨fresh, once⟩ := List.nodup_cons.1 once
      obtain ⟨book', holds⟩ := admits.keeps_mandate unsigned body baseEq (listed pl (by simp))
        (long pl (by simp)) book caps
      cases rest with
      | nil =>
          cases run
          exact holds
      | cons next rest =>
          rw [List.map_cons, List.map_cons, List.getLast?_cons_cons]
          have applied := apply_ok admits.applied
          obtain ⟨quantity, value, -, -, update⟩ := applied.positions
          have equity : s₁.account.equity = s.account.equity := by
            simpa using congrArg AccountView.equity applied.frame
          have ccy : s₁.account.ccy = s.account.ccy := by
            simpa using congrArg AccountView.ccy applied.frame
          refine ih ?_ once ?_ ?_ ?_ book' holds.caps
          · rw [equity, ccy, baseEq]
          · exact fun pl' member => keys pl' (List.mem_cons_of_mem _ member)
          · exact fun pl' member => listed pl' (List.mem_cons_of_mem _ member)
          · intro pl' member
            have different : pl.order.symbol ≠ pl'.order.symbol := by
              intro same
              exact fresh (List.mem_map.2 ⟨pl', member, same.symm⟩)
            have apart := (keys pl (by simp)).apart (keys pl' (List.mem_cons_of_mem _ member)) different
            exact (long pl' (List.mem_cons_of_mem _ member)).after_other book.distinct apart update

end LongOrders

section LongPlans

variable [UnicodeCase] [InstantText] [Sha256] {targets : List SleeveTarget} {account : AccountView}
  {prices : Std.ExtTreeMap String PricePoint} {book : VenueRuleBook} {policy : Policy}
  {cfg : PlanConfig} {p : OrderPlan} {placed ps qs : List Placed}
  {managed : Std.ExtTreeMap String Managed} {sim : AccountView} {proposals : List Proposal}
  {mid finish : SimState}

omit [InstantText] [Sha256] in
theorem revalue_worth {keyed : Std.ExtTreeMap String PricePoint}
    (h : revalue keyed account = .ok sim) : ∀ q ∈ sim.positions, ∀ px : PricePoint,
      keyed[upperName q.symbol]? = some px → q.value = valueAt q.quantity.atto px.price.atto := by
  obtain ⟨positions, valued, h⟩ := bind_eq_ok.1 h
  obtain rfl := Except.ok.inj h
  intro q member px quoted
  obtain ⟨i, bound, rfl⟩ := List.getElem_of_mem member
  have pairs := mapM_eq_ok.1 valued
  have within : i < account.positions.length := pairs.length_eq ▸ bound
  have valuedHere := pairs.get within bound
  simp only [List.get_eq_getElem] at valuedHere
  unfold revaluePosition at valuedHere
  split at valuedHere
  next px' known =>
      obtain ⟨value, product, done⟩ := bind_eq_ok.1 valuedHere
      have same := Except.ok.inj done
      rw [← same] at quoted ⊢
      rw [known] at quoted
      rw [← Option.some.inj quoted]
      exact mul_valueAt product
  next unknown =>
      have same := Except.ok.inj valuedHere
      rw [← same, unknown] at quoted
      cases quoted

def namedInstruments (targets : List SleeveTarget) : List Instrument :=
  targets.flatMap fun t => t.weights.map fun w =>
    ⟨upperName w.symbol, lowerName t.venue, lowerName t.assetClass⟩

section

variable (parts : PlanParts targets account prices book policy cfg p placed managed sim proposals ps qs mid finish)

include parts

theorem PlanParts.single (long : ∀ q ∈ sim.positions, 0 ≤ q.quantity.atto)
    (wanted : ∀ line ∈ p.lines, 0 ≤ line.targetNotional.atto) {m : Managed} {pr : Proposal} (member : pr ∈ proposals)
    (proposed : Proposed cfg account (keyPrices prices) (policy.capitalBase account.equity account.ccy) m pr) :
    pr.candidates = [] ∨ ∃ c px, pr.candidates = [c] ∧ c.m = m ∧
      (keyPrices prices)[m.symbol]? = some px ∧ 0 < px.price.atto ∧
      (c.side = .sell → c.reducing = true ∧
        c.qty.atto ≤ heldIn sim.positions m.symbol ∧ 0 < heldIn sim.positions m.symbol) := by
  cases lineEq : pr.line with
  | none => exact .inl (proposed.unlined lineEq)
  | some line =>
      obtain ⟨symbol, held, -, px, quoted, positive, worth, sized⟩ := proposed.lined line lineEq
      have heldEq : line.held.atto = heldIn sim.positions m.symbol := by
        rw [held, heldQuantity_atto, revalue_held parts.sim_eq]
      have heldNonneg := heldIn_nonneg long m.symbol
      have currentNonneg : 0 ≤ line.currentNotional.atto := by
        rw [mul_valueAt worth]
        have le := valueAt_mono positive.le (heldEq ▸ heldNonneg)
        rwa [valueAt_zero] at le
      have lined : line ∈ p.lines := by
        rw [parts.lines_eq, List.mem_filterMap]
        exact ⟨pr, member, lineEq⟩
      obtain none | ⟨c, one, whole, sells⟩ := sized.longOnly currentNonneg (wanted line lined)
      · exact .inl none
      · have inside : c ∈ pr.candidates := by simp [one]
        refine .inr ⟨c, px, one, proposed.own c inside, quoted, positive, ?_⟩
        intro side
        have holds := sells side
        have flag := sized.flagged c inside
        have against : Against line.held.atto c.side := .inl ⟨side, holds⟩
        have reducing : c.reducing = true := by
          by_contra notReducing
          obtain opens | toward := flag.increase (Bool.eq_false_iff.2 notReducing)
          · rw [whole] at opens
            cases opens
          · exact toward against
        obtain ⟨-, -, size⟩ := flag.reduction reducing
        rw [abs_of_pos holds] at size
        exact ⟨reducing, heldEq ▸ size, heldEq ▸ holds⟩

theorem PlanParts.once (long : ∀ q ∈ sim.positions, 0 ≤ q.quantity.atto)
    (wanted : ∀ line ∈ p.lines, 0 ≤ line.targetNotional.atto) :
    (placed.map fun pl => pl.order.symbol).Nodup := by
  have symbols : placed.map (fun pl => pl.order.symbol) =
      (placed.map Placed.candidate).map fun c => c.m.symbol := by
    rw [List.map_map]
    apply List.map_congr_left
    intro pl member
    exact (parts.cut member).symbol
  have sub : (placed.map Placed.candidate).Sublist
      (reducersOf (proposals.flatMap Proposal.candidates) ++
        increasersOf (proposals.flatMap Proposal.candidates)) := by
    rw [parts.placed_eq, List.map_append]
    exact parts.ordered.fromReducers.append parts.ordered.fromIncreasers
  have perm : (reducersOf (proposals.flatMap Proposal.candidates) ++
      increasersOf (proposals.flatMap Proposal.candidates)).Perm
        (proposals.flatMap Proposal.candidates) :=
    ((List.perm_insertionSort ..).append (List.perm_insertionSort ..)).trans
      (List.filter_append_perm ..)
  have distinct := inSymbolOrder_nodup fun k m found =>
    (aggregate_named parts.managed_eq k m found).symbol_eq
  have single : ∀ (m : Managed) (pr : Proposal), pr ∈ proposals → Proposed cfg account
      (keyPrices prices) (policy.capitalBase account.equity account.ccy) m pr →
      pr.candidates = [] ∨ ∃ c, pr.candidates = [c] ∧ c.m = m := by
    intro m pr member proposed
    obtain none | ⟨c, px, one, own, -⟩ := parts.single long wanted member proposed
    · exact .inl none
    · exact .inr ⟨c, one, own⟩
  have all := (candidates_once parts.proposed single).nodup distinct
  rw [symbols]
  exact (sub.map _).nodup ((perm.map _).nodup_iff.2 all)

theorem PlanParts.longOrder {ms : List Instrument} (long : LongBook ms sim.positions)
    (wanted : ∀ line ∈ p.lines, 0 ≤ line.targetNotional.atto) {pl : Placed} (member : pl ∈ placed) :
    LongOrder sim.positions pl.order := by
  have cut := parts.cut member
  have symbol := cut.symbol
  have small := cut.small
  obtain ⟨pr, known, mine, proposed⟩ := parts.order_origin member
  obtain none | ⟨c, px, one, own, quoted, positive, sells⟩ :=
    parts.single long.quantity wanted (List.of_mem_zip known).2 proposed
  · rw [none] at mine
    cases mine
  · obtain rfl : pl.candidate = c := by simpa [one] using mine
    obtain ⟨px', quoted', price, -⟩ := parts.flagged member
    rw [symbol, quoted] at quoted'
    obtain rfl := Option.some.inj quoted'
    refine ⟨by rwa [price], ?_⟩
    intro side
    rw [cut.side] at side
    obtain ⟨-, size, holds⟩ := sells side
    -- The first position of the symbol is the only one, and it was valued at the plan's price.
    have found : ∃ q ∈ sim.positions, q.isOf pl.order.symbol = true := by
      rw [symbol]
      by_contra none
      have foreign : ∀ q ∈ sim.positions, ¬ eqIgnoreAsciiCase q.symbol pl.candidate.m.symbol = true :=
        fun q inside ours => none ⟨q, inside, ours⟩
      rw [heldIn, List.find?_eq_none.2 foreign] at holds
      exact absurd holds (lt_irrefl 0)
    obtain ⟨q, inside, ours⟩ := found
    have single := traded_eq_of_mem long.distinct inside ours
    have quantity := heldIn_of_traded single
    rw [symbol] at quantity
    refine ⟨q, single, by omega, ?_⟩
    rw [price]
    apply revalue_worth parts.sim_eq q inside
    obtain ⟨-, -, ⟨w, -, spelled⟩, -⟩ := (parts.named (List.of_mem_zip known).1).named
    have key : upperName q.symbol = pl.candidate.m.symbol := by
      rw [symbol, spelled] at ours
      rw [spelled]
      exact upperName_of_eqIgnoreAsciiCase ours
    rw [key, quoted]

end

omit [UnicodeCase] [InstantText] [Sha256] in
theorem capitalBase_nonneg (positive : 0 < account.equity.atto) :
    0 ≤ (policy.capitalBase account.equity account.ccy).atto := by
  unfold Policy.capitalBase
  split
  next limits _ =>
      have nonneg := limits.allocated.nonneg
      split
      · rw [Dec.atto_min]
        omega
      · exact positive.le
  next => exact positive.le

section

variable (parts : PlanParts targets account prices book policy cfg p placed managed sim proposals ps qs mid finish)

include parts

theorem PlanParts.wanted (unsigned : cfg.isSigned = false)
    (fits : (policy.capitalBase account.equity account.ccy).LiftFits 8) :
    ∀ line ∈ p.lines, 0 ≤ line.targetNotional.atto := by
  obtain ⟨fair, whole, scale, equity⟩ := validate_ok unsigned parts.valid
  intro line member
  rw [parts.lines_eq, List.mem_filterMap] at member
  obtain ⟨pr, inside, lineEq⟩ := member
  obtain ⟨i, bound, rfl⟩ := List.getElem_of_mem inside
  have within : i < (inSymbolOrder managed).length := parts.proposed.length_eq ▸ bound
  obtain ⟨-, -, target, -⟩ := (parts.proposed.get within bound).lined line lineEq
  obtain ⟨k, entry⟩ := mem_inSymbolOrder (List.getElem_mem within)
  have weight := aggregate_fraction fair whole parts.managed_eq k _ entry
  exact targetNotional_nonneg fits (capitalBase_nonneg equity) weight scale target

theorem PlanParts.listed {pl : Placed} (member : pl ∈ placed) :
    Listed ((inSymbolOrder managed).map Managed.toInstrument) pl.order ∧ IsKey pl.order.symbol := by
  have cut := parts.cut member
  obtain ⟨pr, known, -⟩ := parts.order_origin member
  have own := (List.of_mem_zip known).1
  obtain ⟨t, -, ⟨w, -, symbol⟩, assetClass⟩ := (parts.named own).named
  refine ⟨⟨?_, ?_, ?_, ?_⟩, ⟨w.symbol, by rw [cut.symbol, symbol]⟩⟩
  · exact ⟨_, List.mem_map.2 ⟨pl.candidate.m, own, rfl⟩, cut.symbol.symm, cut.assetClass.symm⟩
  · intro m inside spelled
    obtain ⟨m', inside', rfl⟩ := List.mem_map.1 inside
    -- Two instruments with one symbol are one entry of the map.
    obtain ⟨-, -, ⟨w', -, symbol'⟩, -⟩ := (parts.named inside').named
    have same : pl.candidate.m.symbol = m'.symbol := by
      rw [cut.symbol, symbol, symbol'] at spelled
      rw [symbol, symbol']
      exact upperName_inj spelled
    obtain ⟨k, entry⟩ := mem_inSymbolOrder own
    obtain ⟨k', entry'⟩ := mem_inSymbolOrder inside'
    have key := (aggregate_named parts.managed_eq k _ entry).symbol_eq
    have key' := (aggregate_named parts.managed_eq k' _ entry').symbol_eq
    rw [← key, same, key', entry'] at entry
    rw [cut.assetClass, Option.some.inj entry]
  · rw [cut.symbol, symbol, trimmed_upperName]
  · rw [cut.assetClass, assetClass, lowerName_lowerName]

theorem PlanParts.longBook (long : LongBook (namedInstruments targets) sim.positions) :
    LongBook ((inSymbolOrder managed).map Managed.toInstrument) sim.positions := by
  refine ⟨long.distinct, long.quantity, long.value, ?_⟩
  intro q member m known ours
  obtain ⟨m', inside, rfl⟩ := List.mem_map.1 known
  obtain ⟨t, target, ⟨w, weight, symbol⟩, assetClass⟩ := (parts.named inside).named
  rw [assetClass]
  rw [symbol] at ours
  refine long.classes q member ⟨upperName w.symbol, lowerName t.venue, lowerName t.assetClass⟩ ?_ ours
  exact List.mem_flatMap.2 ⟨t, target, List.mem_map.2 ⟨w, weight, rfl⟩⟩

end

end LongPlans

namespace OrderPlanner

/-- A long-only plan keeps the mandate after any number of its orders, from a long
    account within the mandate whose positions are recorded under the classes of
    the sleeves. The capital base must have a representation with eight decimals,
    or rounding a target wraps. -/
theorem long_only_plan_keeps_mandate [UnicodeCase] [InstantText] [Sha256]
    (targets : List SleeveTarget) (account sim : AccountView)
    (prices : Std.ExtTreeMap String PricePoint) (book : VenueRuleBook) (policy : Policy)
    (limits : Limits) (cfg : PlanConfig) (p : OrderPlan)
    (planned : plan targets account prices book policy cfg = .ok p)
    (unsigned : cfg.isSigned = false) (body : policy.limits = some limits)
    (revalued : revalue (keyPrices prices) account = .ok sim)
    (long : LongBook (namedInstruments targets) sim.positions)
    (fits : (policy.capitalBase account.equity account.ccy).LiftFits 8)
    (start : WithinCaps limits (policy.capitalBase account.equity account.ccy) sim.positions) :
    ∀ k, ∃ s, replay ⟨sim, cfg.day⟩ (p.orders.take k) = .ok s ∧
      MandateHolds policy limits (policy.capitalBase account.equity account.ccy) s
        (p.orders.take k).getLast? := by
  obtain ⟨placed, traced⟩ := plan_ok planned
  obtain ⟨managed, sim', proposals, ps, qs, mid, finish, parts⟩ := planTraced_ok traced
  obtain rfl : sim = sim' := by
    have same := parts.sim_eq
    rw [revalued] at same
    exact Except.ok.inj same
  have wanted := parts.wanted unsigned fits
  have ledger := parts.longBook long
  have run := parts.ordered.reductions.append parts.ordered.increases
  rw [← parts.placed_eq] at run
  intro k
  obtain ⟨s, taken⟩ := run.take k
  have inPlan : ∀ pl ∈ placed.take k, pl ∈ placed := fun pl member => List.mem_of_mem_take member
  rw [parts.orders_eq, ← List.map_take]
  refine ⟨s, taken.replay, ?_⟩
  have frame : sim.equity = account.equity ∧ sim.ccy = account.ccy := by
    obtain ⟨positions, -, done⟩ := bind_eq_ok.1 revalued
    obtain rfl := Except.ok.inj done
    exact ⟨rfl, rfl⟩
  refine taken.keeps_mandate unsigned body (by rw [frame.1, frame.2]) ?_ ?_ ?_ ?_ ledger start
  · rw [List.map_take]
    exact (parts.once long.quantity wanted).sublist (List.take_sublist ..)
  · exact fun pl member => (parts.listed (inPlan pl member)).2
  · exact fun pl member => (parts.listed (inPlan pl member)).1
  · exact fun pl member => parts.longOrder ledger wanted (inPlan pl member)

section Sample

open Amount (cents)

/-- The hashes of the tags and inputs of the two plans below; their inputs differ
    in length. -/
@[reducible] private def fundHash : Sha256 where
  hexDigest text :=
    if text = "rebalance:acct:19700101T000000Z:core:TLT:sell" then
      "8c06fc7bc8f68ad944dd695177482f42950d82c9bb09c354b35b12b063d6ff2a"
    else if text = "rebalance:acct:19700101T000000Z:core:SPY:buy" then
      "4f8780a5bee6cd29f204f8cdee47f14461cc48522573d38ac30b09ea52196951"
    else if text.length = 402 then
      "1301dd8e728d8a1abdea7896ef1d8e51a2ed30bf4ac37f4bbbef89a4493a145e"
    else "4a90614ff0f742fea6a25d6323eaa773406c29058fa4a3b9a7f7657bb368a9e6"

attribute [local instance] asciiCase epochText fundHash

/-- At most 300 of a base of 1000 in shares, at most 900 in funds. -/
private def fundLimits : Limits where
  ccy := "USD"
  allocated := cents 100000
  minCashReserve := cents 10
  instrumentAllow := .ofList ["SPY", "TLT"]
  instrumentDeny := ∅
  venues := .ofList ["alpaca"]
  assetClasses := .ofList ["etf"]
  shorting := false
  derivatives := false
  leverageMaxGross := cents 100
  maxPosition := cents 60
  maxAssetClass :=
    ((∅ : Std.ExtTreeMap String Amount).insert "equity" (cents 30)).insert "etf" (cents 90)
  maxGross := cents 100
  maxNet := cents 100
  maxOrderNotional := cents 100000
  maxOrdersPerDay := 10
  maxTurnoverPerDay := cents 100
  classes_lower := by
    intro k member
    simp only [Std.ExtTreeMap.mem_insert, Std.ExtTreeMap.not_mem_empty, or_false] at member
    obtain same | same := member
    · rw [← Std.LawfulEqCmp.eq_of_compare same]
      decide +kernel
    · rw [← Std.LawfulEqCmp.eq_of_compare same]
      decide +kernel

private def fundMandate : Policy where
  bodyHash := "0"
  envelope := some ⟨1, .active, 0, 31536000000000000⟩
  maxPriceAgeSecs := ⟨300, fiveMinutes_fits⟩
  body := .valid fundLimits

/-- Four TLT and two SPY, the latter recorded under `assetClass`. -/
private def twoFunds (assetClass : String) : AccountView where
  accountId := "acct"
  ccy := "USD"
  equity := cents 100000
  cash := cents 40000
  positions := [⟨"TLT", "alpaca", "etf", cents 400, cents 40000⟩,
    ⟨"SPY", "alpaca", assetClass, cents 200, cents 20000⟩]
  halted := false
  now := 0

private def fundsAt100 : Std.ExtTreeMap String PricePoint :=
  ((∅ : Std.ExtTreeMap String PricePoint).insert "SPY" ⟨cents 10000, 0⟩).insert "TLT"
    ⟨cents 10000, 0⟩

private def alpaca : VenueRuleBook where
  byVenue := .ofList [("alpaca", VenueRules.anySize)]
  instruments := .empty

private def mostlySpy : List SleeveTarget :=
  [⟨"core", Dec.one, "alpaca", "etf", [⟨"SPY", cents 50⟩, ⟨"TLT", cents 10⟩]⟩]

private def longRun : PlanConfig where
  scheduledFor := 0
  riskScale := Dec.one
  minTradeAbs := Dec.zero
  minTradePct := Dec.zero
  feeRate := Dec.zero
  creditSellProceeds := true
  day := ⟨0, Dec.zero⟩
  signedSleeves := ∅
  buyingPower := none

private def valuedFunds (assetClass : String) : AccountView :=
  { twoFunds assetClass with
    positions := [⟨"TLT", "alpaca", "etf", cents 400, ⟨⟨4000000, by decide⟩, 4, Dec.scale_four⟩⟩,
      ⟨"SPY", "alpaca", assetClass, cents 200, ⟨⟨2000000, by decide⟩, 4, Dec.scale_four⟩⟩] }

private theorem fundClass {k : String} {cap : Amount} (known : fundLimits.maxAssetClass[k]? = some cap) :
    (k = "etf" ∧ cap = cents 90) ∨ (k = "equity" ∧ cap = cents 30) := by
  simp only [fundLimits, Std.ExtTreeMap.getElem?_insert, Std.ExtTreeMap.getElem?_empty] at known
  split at known
  next same => exact .inl ⟨(Std.LawfulEqCmp.eq_of_compare same).symm, (Option.some.inj known).symm⟩
  next =>
      split at known
      next same =>
          exact .inr ⟨(Std.LawfulEqCmp.eq_of_compare same).symm, (Option.some.inj known).symm⟩
      next => cases known

private theorem twoFunds_within (assetClass : String)
    (known : assetClass = "etf" ∨ assetClass = "equity") :
    WithinCaps fundLimits (cents 100000) (valuedFunds assetClass).positions := by
  obtain rfl | rfl := known
  all_goals
    constructor
    case position => decide +kernel
    case gross => decide +kernel
    case net => decide +kernel
    case assetClass =>
        intro k cap known
        obtain ⟨rfl, rfl⟩ | ⟨rfl, rfl⟩ := fundClass known
        · decide +kernel
        · decide +kernel

/-- SPY is recorded as a share and bought for a fund sleeve: the guard counts it
    towards the funds, and the cap on shares is broken after the second order. -/
theorem recorded_class_breaks_its_cap :
    ∃ p s, plan mostlySpy (twoFunds "equity") fundsAt100 alpaca fundMandate longRun = .ok p ∧
      longRun.isSigned = false ∧ fundMandate.limits = some fundLimits ∧
      (∀ q ∈ (twoFunds "equity").positions, 0 ≤ q.quantity.atto ∧ 0 ≤ q.value) ∧
      Distinct (twoFunds "equity").positions ∧
      revalue (keyPrices fundsAt100) (twoFunds "equity") = .ok (valuedFunds "equity") ∧
      fundMandate.capitalBase (twoFunds "equity").equity (twoFunds "equity").ccy = cents 100000 ∧
      WithinCaps fundLimits (cents 100000) (valuedFunds "equity").positions ∧
      replay ⟨valuedFunds "equity", longRun.day⟩ (p.orders.take 2) = .ok s ∧
      ¬ WithinCaps fundLimits (cents 100000) s.account.positions := by
  have shares : (plan mostlySpy (twoFunds "equity") fundsAt100 alpaca fundMandate longRun).map
      (fun p => (replay ⟨valuedFunds "equity", longRun.day⟩ (p.orders.take 2)).map fun s =>
        total Position.size (s.account.positions.filter (Position.inClass "equity"))) =
        .ok (.ok (500 * 10 ^ 18)) := by decide +kernel
  cases planned : plan mostlySpy (twoFunds "equity") fundsAt100 alpaca fundMandate longRun with
  | error e =>
      rw [planned] at shares
      cases shares
  | ok p =>
      rw [planned] at shares
      have held := Except.ok.inj shares
      simp only at held
      cases replayed : replay ⟨valuedFunds "equity", longRun.day⟩ (p.orders.take 2) with
      | error e =>
          rw [replayed] at held
          cases held
      | ok s =>
          rw [replayed] at held
          refine ⟨p, s, rfl, by decide +kernel, rfl, by decide +kernel, by decide +kernel,
            by decide +kernel, by decide +kernel, twoFunds_within _ (.inr rfl), replayed, ?_⟩
          intro caps
          have under := caps.assetClass "equity" (cents 30) (by decide +kernel)
          have exposed : total Position.size
              (s.account.positions.filter (Position.inClass "equity")) = 500 * 10 ^ 18 :=
            Except.ok.inj held
          rw [exposed] at under
          exact absurd under (by decide +kernel)

/-- With SPY recorded as a fund, TLT is sold, SPY bought, and the mandate holds. -/
theorem fund_plan_keeps_mandate :
    ∃ p, plan mostlySpy (twoFunds "etf") fundsAt100 alpaca fundMandate longRun = .ok p ∧
      (p.orders.map fun o => (o.symbol, o.side, o.quantity.atto)) =
        [("TLT", .sell, 3 * 10 ^ 18), ("SPY", .buy, 3 * 10 ^ 18)] ∧
      ∀ k, ∃ s, replay ⟨valuedFunds "etf", longRun.day⟩ (p.orders.take k) = .ok s ∧
        MandateHolds fundMandate fundLimits (cents 100000) s (p.orders.take k).getLast? := by
  have sizes : (plan mostlySpy (twoFunds "etf") fundsAt100 alpaca fundMandate longRun).map
      (fun p => p.orders.map fun o => (o.symbol, o.side, o.quantity.atto)) =
        .ok [("TLT", .sell, 3 * 10 ^ 18), ("SPY", .buy, 3 * 10 ^ 18)] := by decide +kernel
  have base : fundMandate.capitalBase (twoFunds "etf").equity (twoFunds "etf").ccy = cents 100000 := by
    decide +kernel
  cases planned : plan mostlySpy (twoFunds "etf") fundsAt100 alpaca fundMandate longRun with
  | error e =>
      rw [planned] at sizes
      cases sizes
  | ok p =>
      rw [planned] at sizes
      refine ⟨p, rfl, Except.ok.inj sizes, ?_⟩
      rw [← base]
      apply long_only_plan_keeps_mandate mostlySpy (twoFunds "etf") (valuedFunds "etf") fundsAt100
        alpaca fundMandate fundLimits longRun p planned
      · decide +kernel
      · rfl
      · decide +kernel
      · exact ⟨by decide +kernel, by decide +kernel, by decide +kernel, by decide +kernel⟩
      · rw [base]
        intro _ _
        decide +kernel
      · rw [base]
        exact twoFunds_within _ (.inl rfl)

end Sample

end OrderPlanner

end RebalancerCore
