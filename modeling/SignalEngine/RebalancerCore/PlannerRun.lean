import SignalEngine.RebalancerCore.PlannerSizing

/-! # Runs of the planner

The accepted orders of a plan as a run of the simulated account: what one
accepted order does, and what the two placing loops make of their candidates.
-/

open BrokerAdapters Outcome Text

namespace RebalancerCore

def replayOrder (s : SimState) (o : PlannedOrder) : Except MathError SimState :=
  apply s ⟨o.symbol, o.venue, o.assetClass⟩ o.side o.quantity o.price o.estFee

def replay (s : SimState) (orders : List PlannedOrder) : Except MathError SimState :=
  orders.foldlM replayOrder s

variable [UnicodeCase] [InstantText] [Sha256]

/-- The guard allowed the order at `s`, and applying it gave `s'`. -/
structure Admits (ctx : PlanContext) (s : SimState) (pl : Placed) (s' : SimState) : Prop where
  notional : DecMath.mul pl.order.quantity pl.candidate.price.price = .ok pl.order.notional
  fee : feeFor pl.order.notional ctx.cfg.feeRate = .ok pl.order.estFee
  order : pl.order =
    ctx.order pl.candidate pl.order.quantity pl.order.notional pl.order.estFee
  allowed : ∃ buyingPowerLeft usesMargin, (ctx.verdict s buyingPowerLeft
    (pl.candidate.proposed pl.order.quantity pl.order.estFee usesMargin)).allow = true ∧
      ctx.usesMargin s.account pl.candidate pl.order.quantity pl.order.estFee = .ok usesMargin
  applied : replayOrder s pl.order = .ok s'

/-- A run of admitted orders from one state of the simulation to another. -/
inductive Accepts (ctx : PlanContext) : SimState → List Placed → SimState → Prop
  | nil (s : SimState) : Accepts ctx s [] s
  | cons {s s' s'' : SimState} {pl : Placed} {rest : List Placed} :
      Admits ctx s pl s' → Accepts ctx s' rest s'' → Accepts ctx s (pl :: rest) s''

variable {ctx : PlanContext}

theorem Accepts.append {s s' s'' : SimState} {ps qs : List Placed} (left : Accepts ctx s ps s')
    (right : Accepts ctx s' qs s'') : Accepts ctx s (ps ++ qs) s'' := by
  induction left with
  | nil => exact right
  | cons admits _ ih => exact .cons admits (ih right)

theorem Accepts.replay {s s' : SimState} {ps : List Placed} (accepts : Accepts ctx s ps s') :
    replay s (ps.map Placed.order) = .ok s' := by
  induction accepts with
  | nil => rfl
  | cons admits _ ih =>
      rw [List.map_cons, RebalancerCore.replay, List.foldlM_cons]
      exact bind_eq_ok.2 ⟨_, admits.applied, ih⟩

theorem Accepts.take {s s' : SimState} {ps : List Placed} (accepts : Accepts ctx s ps s') (k : Nat) :
    ∃ t, Accepts ctx s (ps.take k) t := by
  induction accepts generalizing k with
  | nil s => exact ⟨s, by simpa using Accepts.nil s⟩
  | @cons s _ _ pl rest admits _ ih =>
      cases k with
      | zero => exact ⟨s, .nil s⟩
      | succ k =>
          obtain ⟨t, run⟩ := ih k
          exact ⟨t, .cons admits run⟩

/-- What trying one order did to the placing. -/
theorem tryOrder_cases {st st' : Placing} {c : Candidate} {qty : Dec} {accepted : Bool}
    (h : ctx.tryOrder st c qty = .ok (st', accepted)) :
    (accepted = true ∧ st'.closed = st.closed ∧ ∃ order : PlannedOrder, order.quantity = qty ∧
      st'.placed = st.placed ++ [⟨c, order⟩] ∧ Admits ctx st.sim ⟨c, order⟩ st'.sim) ∨
    (accepted = false ∧ st'.closed = st.closed ∧ st'.placed = st.placed ∧ st'.sim = st.sim) := by
  unfold PlanContext.tryOrder at h
  obtain ⟨notional, product, h⟩ := bind_eq_ok.1 h
  obtain ⟨fee, charged, h⟩ := bind_eq_ok.1 h
  obtain ⟨usesMargin, margin, h⟩ := bind_eq_ok.1 h
  rw [lift_eq_ok] at product charged margin
  simp only at h
  split at h
  next allowed =>
      obtain ⟨sim, applied, h⟩ := bind_eq_ok.1 h
      obtain ⟨left, -, h⟩ := bind_eq_ok.1 h
      rw [lift_eq_ok] at applied
      obtain ⟨rfl, rfl⟩ := Prod.mk.inj (Except.ok.inj h)
      refine .inl ⟨rfl, rfl, ctx.order c qty notional fee, rfl, rfl, ?_⟩
      exact ⟨product, charged, rfl, ⟨_, usesMargin, allowed, margin⟩, applied⟩
  next =>
      obtain ⟨rfl, rfl⟩ := Prod.mk.inj (Except.ok.inj h)
      exact .inr ⟨rfl, rfl, rfl, rfl⟩

/-- The reductions: a run over a sublist of the candidates at their full sizes;
    the closed instruments are those of accepted close legs. -/
theorem placeReducers_ok {reducers : List Candidate} {st st' : Placing}
    (h : reducers.foldlM ctx.placeReducer st = .ok st') :
    ∃ ps : List Placed, st'.placed = st.placed ++ ps ∧ Accepts ctx st.sim ps st'.sim ∧
      (ps.map Placed.candidate).Sublist reducers ∧
      (∀ pl ∈ ps, pl.order.quantity = pl.candidate.qty) ∧
      ∀ s ∈ st'.closed, s ∈ st.closed ∨
        ∃ pl ∈ ps, pl.candidate.leg = .close ∧ pl.candidate.m.symbol = s := by
  induction reducers generalizing st with
  | nil =>
      obtain rfl := Except.ok.inj h
      exact ⟨[], by simp, .nil _, by simp, by simp, fun s member => .inl member⟩
  | cons c reducers ih =>
      rw [List.foldlM_cons] at h
      obtain ⟨next, step, rest⟩ := bind_eq_ok.1 h
      obtain ⟨ps, placed, run, sub, sizes, closed⟩ := ih rest
      obtain ⟨⟨tried, accepted⟩, attempt, step⟩ := bind_eq_ok.1 step
      have frame : next.placed = tried.placed ∧ next.sim = tried.sim ∧
          ∀ s ∈ next.closed, s ∈ tried.closed ∨
            (accepted = true ∧ c.leg = .close ∧ c.m.symbol = s) := by
        simp only at step
        split at step
        next follows =>
            obtain rfl := Except.ok.inj step
            simp only [Bool.and_eq_true, decide_eq_true_eq] at follows
            refine ⟨rfl, rfl, ?_⟩
            intro s member
            rw [Std.ExtTreeSet.mem_insert] at member
            obtain same | old := member
            · exact .inr ⟨follows.1, follows.2, Std.LawfulEqCmp.eq_of_compare same⟩
            · exact .inl old
        next =>
            obtain rfl := Except.ok.inj step
            exact ⟨rfl, rfl, fun s member => .inl member⟩
      obtain ⟨samePlaced, sameSim, grows⟩ := frame
      obtain ⟨rfl, keeps, order, size, grown, admits⟩ | ⟨rfl, keeps, grown, stays⟩ :=
        tryOrder_cases attempt
      · refine ⟨⟨c, order⟩ :: ps, ?_, ?_, ?_, ?_, ?_⟩
        · rw [placed, samePlaced, grown, List.append_assoc]
          rfl
        · rw [sameSim] at run
          exact .cons admits run
        · exact sub.cons_cons c
        · intro pl member
          obtain rfl | old := List.mem_cons.1 member
          · exact size
          · exact sizes pl old
        · intro s member
          obtain old | ⟨pl, inside, leg, symbol⟩ := closed s member
          · obtain old | ⟨-, leg, symbol⟩ := grows s old
            · rw [keeps] at old
              exact .inl old
            · exact .inr ⟨⟨c, order⟩, by simp, leg, symbol⟩
          · exact .inr ⟨pl, by simp [inside], leg, symbol⟩
      · refine ⟨ps, ?_, ?_, sub.cons c, sizes, ?_⟩
        · rw [placed, samePlaced, grown]
        · rw [sameSim, stays] at run
          exact run
        · intro s member
          obtain old | found := closed s member
          · obtain old | ⟨impossible, -⟩ := grows s old
            · rw [keeps] at old
              exact .inl old
            · cases impossible
          · exact .inr found

/-- The increases: a run over a sublist of the sized candidates. -/
theorem placeBuys_ok {available : Dec} {sized : List (Candidate × Dec)} {st st' : Placing}
    (h : sized.foldlM (ctx.placeBuy available) st = .ok st') :
    ∃ qs : List Placed, st'.placed = st.placed ++ qs ∧ Accepts ctx st.sim qs st'.sim ∧
      (qs.map fun pl => (pl.candidate, pl.order.quantity)).Sublist sized := by
  induction sized generalizing st with
  | nil =>
      obtain rfl := Except.ok.inj h
      exact ⟨[], by simp, .nil _, by simp⟩
  | cons entry sized ih =>
      rw [List.foldlM_cons] at h
      obtain ⟨next, step, rest⟩ := bind_eq_ok.1 h
      obtain ⟨qs, placed, run, sub⟩ := ih rest
      obtain ⟨c, q⟩ := entry
      unfold PlanContext.placeBuy at step
      simp only at step
      split at step
      next =>
          obtain rfl := Except.ok.inj step
          exact ⟨qs, placed, run, sub.cons _⟩
      next =>
          obtain ⟨⟨tried, accepted⟩, attempt, step⟩ := bind_eq_ok.1 step
          obtain rfl := Except.ok.inj step
          obtain ⟨-, -, order, rfl, grown, admits⟩ | ⟨-, -, grown, stays⟩ := tryOrder_cases attempt
          · refine ⟨⟨c, order⟩ :: qs, ?_, .cons admits run, sub.cons_cons _⟩
            rw [placed, grown, List.append_assoc]
            rfl
          · refine ⟨qs, ?_, ?_, sub.cons _⟩
            · rw [placed, grown]
            · rw [stays] at run
              exact run

omit [UnicodeCase] [InstantText] [Sha256] in
theorem map_fst_zip_sublist {α β : Type} (as : List α) (bs : List β) :
    ((as.zip bs).map Prod.fst).Sublist as := by
  induction as generalizing bs with
  | nil => simp
  | cons a as ih =>
      cases bs with
      | nil => simp
      | cons b bs => exact (ih bs).cons_cons a

/-- The accepted orders of a plan: reductions at full size, then increases at most
    at their wished sizes, an open leg only after its accepted close leg. -/
structure Ordered (ctx : PlanContext) (start : SimState) (reducers increasers : List Candidate)
    (ps qs : List Placed) (mid finish : SimState) : Prop where
  reductions : Accepts ctx start ps mid
  increases : Accepts ctx mid qs finish
  fromReducers : (ps.map Placed.candidate).Sublist reducers
  fromIncreasers : (qs.map Placed.candidate).Sublist increasers
  fullSize : ∀ pl ∈ ps, pl.order.quantity = pl.candidate.qty
  atMost : ∀ pl ∈ qs, 0 < pl.order.quantity.atto →
    pl.order.quantity.atto ≤ pl.candidate.qty.atto
  follows : ∀ pl ∈ qs, pl.candidate.leg = .open →
    ∃ first ∈ ps, first.candidate.leg = .close ∧ first.candidate.m.symbol = pl.candidate.m.symbol

theorem place_ok {capitalBase cash : Dec} {start finish : Placing}
    {reducers increasers : List Candidate} (fresh : start.placed = [] ∧ start.closed = ∅)
    (h : ctx.place capitalBase cash start reducers increasers = .ok finish) :
    ∃ ps qs mid, finish.placed = ps ++ qs ∧
      Ordered ctx start.sim reducers increasers ps qs mid finish.sim := by
  obtain ⟨reduced, reductions, h⟩ := bind_eq_ok.1 h
  obtain ⟨reserve, -, h⟩ := bind_eq_ok.1 h
  obtain ⟨available, -, h⟩ := bind_eq_ok.1 h
  obtain ⟨quantities, sizes, h⟩ := bind_eq_ok.1 h
  obtain ⟨ps, placed, run, sub, fullSize, closed⟩ := placeReducers_ok reductions
  obtain ⟨qs, placed', run', sub'⟩ := placeBuys_ok h
  have candidates : (qs.map Placed.candidate).Sublist
      (increasers.filter (mayFollow reduced.closed)) := by
    have first := sub'.map Prod.fst
    rw [List.map_map] at first
    exact first.trans (map_fst_zip_sublist _ _)
  refine ⟨ps, qs, reduced.sim, ?_, run, run', sub, candidates.trans List.filter_sublist, fullSize,
    ?_, ?_⟩
  · rw [placed', placed, fresh.1, List.nil_append]
  · intro pl member positive
    have entry : (pl.candidate, pl.order.quantity) ∈ List.zip _ quantities :=
      sub'.subset (List.mem_map.2 ⟨pl, member, rfl⟩)
    exact sizeBuys_le sizes _ entry positive
  · intro pl member opens
    have allowed := (List.mem_filter.1 (candidates.subset (List.mem_map.2 ⟨pl, member, rfl⟩))).2
    simp only [mayFollow, opens, ne_eq, not_true_eq_false, decide_false, Bool.false_or] at allowed
    obtain none | found := closed pl.candidate.m.symbol (Std.ExtTreeSet.mem_iff_contains.2 allowed)
    · rw [fresh.2] at none
      simp at none
    · exact found

structure NamedBy (targets : List SleeveTarget) (symbol : String) (m : Managed) : Prop where
  symbol_eq : m.symbol = symbol
  named : ∃ t ∈ targets, (∃ w ∈ t.weights, symbol = upperName w.symbol) ∧
    m.assetClass = lowerName t.assetClass

omit [InstantText] [Sha256] in
theorem aggregate_named {cfg : PlanConfig} {targets : List SleeveTarget}
    {managed : Std.ExtTreeMap String Managed} (h : aggregate targets cfg = .ok managed) :
    ∀ k m, managed[k]? = some m → NamedBy targets k m := by
  refine aggregate_entries h ?_ ?_
  · rintro t _ w _ m weight ⟨symbol, named⟩
    exact ⟨symbol, named⟩
  · intro t target w weight contribution
    exact ⟨rfl, t, target, ⟨w, weight, rfl⟩, rfl⟩

/-- The parts a successful plan is made of. -/
structure PlanParts (targets : List SleeveTarget) (account : AccountView)
    (prices : Std.ExtTreeMap String PricePoint) (book : VenueRuleBook) (policy : Policy)
    (cfg : PlanConfig) (p : OrderPlan) (placed : List Placed)
    (managed : Std.ExtTreeMap String Managed) (sim : AccountView) (proposals : List Proposal)
    (ps qs : List Placed) (mid finish : SimState) : Prop where
  valid : validate targets account cfg = .ok ()
  managed_eq : aggregate targets cfg = .ok managed
  sim_eq : revalue (keyPrices prices) account = .ok sim
  proposed : List.Forall₂ (Proposed cfg account (keyPrices prices)
    (policy.capitalBase account.equity account.ccy)) (inSymbolOrder managed) proposals
  lines_eq : p.lines = proposals.filterMap Proposal.line
  orders_eq : p.orders = placed.map Placed.order
  placed_eq : placed = ps ++ qs
  ordered : Ordered ⟨account.accountId, policy, book, cfg⟩ ⟨sim, cfg.day⟩
    (reducersOf (proposals.flatMap Proposal.candidates))
    (increasersOf (proposals.flatMap Proposal.candidates)) ps qs mid finish

theorem planTraced_ok {targets : List SleeveTarget} {account : AccountView}
    {prices : Std.ExtTreeMap String PricePoint} {book : VenueRuleBook} {policy : Policy}
    {cfg : PlanConfig} {p : OrderPlan} {placed : List Placed}
    (h : planTraced targets account prices book policy cfg = .ok (p, placed)) :
    ∃ managed sim proposals ps qs mid finish,
      PlanParts targets account prices book policy cfg p placed managed sim proposals ps qs mid
        finish := by
  unfold planTraced at h
  obtain ⟨⟨⟩, valid, h⟩ := bind_eq_ok.1 h
  obtain ⟨managed, managed_eq, h⟩ := bind_eq_ok.1 h
  obtain ⟨sim, sim_eq, h⟩ := bind_eq_ok.1 h
  obtain ⟨proposals, proposals_eq, h⟩ := bind_eq_ok.1 h
  obtain ⟨margin, -, h⟩ := bind_eq_ok.1 h
  obtain ⟨placing, placing_eq, h⟩ := bind_eq_ok.1 h
  rw [lift_eq_ok] at sim_eq
  obtain ⟨ps, qs, mid, placed_eq, ordered⟩ := place_ok ⟨rfl, rfl⟩ placing_eq
  simp only at h
  split at h
  next => cases h
  next =>
      obtain ⟨rfl, rfl⟩ := Prod.mk.inj (Except.ok.inj h)
      have proposed := (mapM_eq_ok.1 proposals_eq).imp fun _ _ => propose_ok
      exact ⟨managed, sim, proposals, ps, qs, mid, placing.sim, valid, managed_eq, sim_eq, proposed,
        rfl, rfl, placed_eq, ordered⟩

theorem plan_ok {targets : List SleeveTarget} {account : AccountView}
    {prices : Std.ExtTreeMap String PricePoint} {book : VenueRuleBook} {policy : Policy}
    {cfg : PlanConfig} {p : OrderPlan}
    (h : plan targets account prices book policy cfg = .ok p) :
    ∃ placed, planTraced targets account prices book policy cfg = .ok (p, placed) := by
  obtain ⟨⟨p', placed⟩, traced, h⟩ := bind_eq_ok.1 h
  obtain rfl := Except.ok.inj h
  exact ⟨placed, traced⟩

end RebalancerCore
