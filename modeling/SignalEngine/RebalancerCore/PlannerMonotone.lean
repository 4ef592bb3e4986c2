import SignalEngine.RebalancerCore.PlannerRun

/-! # Plans move toward their targets

Every accepted order of an instrument is on one side, and after each of them the
position is worth something between its starting value and its target.
-/

open BrokerAdapters Outcome Text

namespace RebalancerCore

structure Applied (s s' : SimState) (m : Instrument) (side : Side) (qty price fee : Dec) : Prop where
  positions : ∃ quantity value : Dec, quantity.atto = Side.signed side qty.atto ∧
    value.atto = Side.signed side (valueAt qty.atto price.atto) ∧
    updatePosition m quantity value s.account.positions = .ok s'.account.positions
  cash : s'.account.cash.atto =
    s.account.cash.atto - Side.signed side (valueAt qty.atto price.atto) - fee.atto
  turnover : s'.day.turnoverToday.atto = s.day.turnoverToday.atto + valueAt qty.atto price.atto
  orders : s'.day.ordersToday ≤ s.day.ordersToday + 1
  frame : { s'.account with positions := s.account.positions, cash := s.account.cash } = s.account

theorem apply_ok {s s' : SimState} {m : Instrument} {side : Side} {qty price fee : Dec}
    (h : apply s m side qty price fee = .ok s') : Applied s s' m side qty price fee := by
  obtain ⟨notional, product, h⟩ := bind_eq_ok.1 h
  obtain ⟨quantity, signedQty, h⟩ := bind_eq_ok.1 h
  obtain ⟨value, signedValue, h⟩ := bind_eq_ok.1 h
  obtain ⟨positions, updated, h⟩ := bind_eq_ok.1 h
  obtain ⟨paid, payment, h⟩ := bind_eq_ok.1 h
  obtain ⟨cash, charge, h⟩ := bind_eq_ok.1 h
  obtain ⟨turnover, sum, h⟩ := bind_eq_ok.1 h
  obtain rfl := Except.ok.inj h
  have worth := mul_valueAt product
  constructor
  · refine ⟨quantity, value, Guard.signed_ok signedQty, ?_, updated⟩
    rw [Guard.signed_ok signedValue, worth]
  · rw [DecMath.sub_ok charge, DecMath.sub_ok payment, Guard.signed_ok signedValue, worth]
  · rw [DecMath.add_ok sum, worth]
  · exact Nat.min_le_left ..
  · rfl

def heldIn (positions : List Position) (symbol : String) : Int :=
  match positions.find? fun (p : Position) => eqIgnoreAsciiCase p.symbol symbol with
  | some p => p.quantity.atto
  | none => 0

theorem heldQuantity_atto (account : AccountView) (symbol : String) :
    (account.heldQuantity symbol).atto = heldIn account.positions symbol := by
  unfold AccountView.heldQuantity AccountView.position heldIn
  cases account.positions.find? fun (p : Position) => eqIgnoreAsciiCase p.symbol symbol <;> simp

theorem heldIn_update_same {m : Instrument} {quantity value : Dec} {ps ps' : List Position}
    (h : updatePosition m quantity value ps = .ok ps') :
    heldIn ps' m.symbol = heldIn ps m.symbol + quantity.atto := by
  induction ps generalizing ps' with
  | nil =>
      obtain rfl := Except.ok.inj h
      simp [heldIn]
  | cons p ps ih =>
      unfold updatePosition at h
      split at h
      next same =>
          obtain ⟨q, sum, h⟩ := bind_eq_ok.1 h
          obtain ⟨v, -, h⟩ := bind_eq_ok.1 h
          obtain rfl := Except.ok.inj h
          simp [heldIn, same, DecMath.add_ok sum]
      next other =>
          obtain ⟨rest, tail, h⟩ := bind_eq_ok.1 h
          obtain rfl := Except.ok.inj h
          rw [Bool.not_eq_true] at other
          simpa [heldIn, other] using ih tail

theorem heldIn_update_other {m : Instrument} {quantity value : Dec} {ps ps' : List Position}
    {symbol : String} (apart : eqIgnoreAsciiCase m.symbol symbol = false)
    (h : updatePosition m quantity value ps = .ok ps') : heldIn ps' symbol = heldIn ps symbol := by
  have distinct : ∀ p : Position, eqIgnoreAsciiCase p.symbol m.symbol = true →
      eqIgnoreAsciiCase p.symbol symbol = false := by
    intro p same
    rw [Bool.eq_false_iff]
    intro both
    rw [eqIgnoreAsciiCase_trans (eqIgnoreAsciiCase_symm same) both] at apart
    cases apart
  induction ps generalizing ps' with
  | nil =>
      obtain rfl := Except.ok.inj h
      simp [heldIn, apart]
  | cons p ps ih =>
      unfold updatePosition at h
      split at h
      next same =>
          obtain ⟨q, -, h⟩ := bind_eq_ok.1 h
          obtain ⟨v, -, h⟩ := bind_eq_ok.1 h
          obtain rfl := Except.ok.inj h
          simp [heldIn, distinct p same]
      next =>
          obtain ⟨rest, tail, h⟩ := bind_eq_ok.1 h
          obtain rfl := Except.ok.inj h
          have rest_eq := ih tail
          unfold heldIn at rest_eq ⊢
          cases here : eqIgnoreAsciiCase p.symbol symbol with
          | true => simp [here]
          | false => simpa [here] using rest_eq

def ordersOf (symbol : String) (ps : List Placed) : List Placed :=
  ps.filter fun pl => pl.order.symbol = symbol

def netQty (ps : List Placed) : Int :=
  (ps.map fun pl => Side.signed pl.order.side pl.order.quantity.atto).sum

theorem netQty_cons (pl : Placed) (ps : List Placed) :
    netQty (pl :: ps) = Side.signed pl.order.side pl.order.quantity.atto + netQty ps := by
  simp [netQty]

section Runs

variable [UnicodeCase] [InstantText] [Sha256] {ctx : PlanContext}

/-- Names of instruments, as the planner spells them. -/
def IsKey (symbol : String) : Prop := ∃ s, symbol = upperName s

omit [InstantText] [Sha256] in
theorem IsKey.apart {a b : String} (left : IsKey a) (right : IsKey b) (ne : a ≠ b) :
    eqIgnoreAsciiCase a b = false := by
  obtain ⟨s, rfl⟩ := left
  obtain ⟨t, rfl⟩ := right
  rw [Bool.eq_false_iff]
  intro same
  exact ne (upperName_inj same)

theorem Accepts.held {s s' : SimState} {ps : List Placed} (accepts : Accepts ctx s ps s')
    (keys : ∀ pl ∈ ps, IsKey pl.order.symbol) {symbol : String} (key : IsKey symbol) :
    heldIn s'.account.positions symbol =
      heldIn s.account.positions symbol + netQty (ordersOf symbol ps) := by
  induction accepts with
  | nil => simp [ordersOf, netQty]
  | @cons s s₁ s₂ pl rest admits _ ih =>
      have tail := ih fun pl' member => keys pl' (by simp [member])
      obtain ⟨quantity, value, size, -, updated⟩ := (apply_ok admits.applied).positions
      by_cases same : pl.order.symbol = symbol
      · have head := heldIn_update_same updated
        simp only [same] at head
        have filtered : ordersOf symbol (pl :: rest) = pl :: ordersOf symbol rest := by
          simp [ordersOf, same]
        rw [filtered, netQty_cons, tail, head, size]
        omega
      · have apart := (keys pl (by simp)).apart key same
        have head := heldIn_update_other apart updated
        have filtered : ordersOf symbol (pl :: rest) = ordersOf symbol rest := by
          simp [ordersOf, same]
        rw [filtered, tail, head]

theorem Admits.quantity_pos {s s' : SimState} {pl : Placed} (admits : Admits ctx s pl s') :
    0 < pl.order.quantity.atto := by
  obtain ⟨buyingPowerLeft, usesMargin, allowed, -⟩ := admits.allowed
  have run : ∃ context, (PreTradeGuard.run ctx.policy s.account
      (pl.candidate.proposed pl.order.quantity pl.order.estFee usesMargin) s.day context).allow =
        true := by
    unfold PlanContext.verdict at allowed
    split at allowed
    · exact ⟨_, allowed⟩
    · exact ⟨_, allowed⟩
  obtain ⟨context, allowed⟩ := run
  obtain ⟨_, _, -, -, readable, -⟩ := Guard.run_allow_iff.1 allowed
  exact readable.quantity

structure Drawn (pl : Placed) : Prop where
  symbol : pl.order.symbol = pl.candidate.m.symbol
  assetClass : pl.order.assetClass = pl.candidate.m.assetClass
  side : pl.order.side = pl.candidate.side
  price : pl.order.price = pl.candidate.price.price
  positive : 0 < pl.order.quantity.atto

theorem Admits.drawn {s s' : SimState} {pl : Placed} (admits : Admits ctx s pl s') : Drawn pl := by
  have order := admits.order
  refine ⟨?_, ?_, ?_, ?_, admits.quantity_pos⟩
  all_goals
    rw [order]
    rfl

theorem Accepts.drawn {s s' : SimState} {ps : List Placed} (accepts : Accepts ctx s ps s') :
    ∀ pl ∈ ps, Drawn pl := by
  induction accepts with
  | nil => simp
  | cons admits _ ih =>
      intro pl member
      obtain rfl | tail := List.mem_cons.1 member
      · exact admits.drawn
      · exact ih pl tail

end Runs

section Instruments

theorem mem_inSymbolOrder {managed : Std.ExtTreeMap String Managed} {m : Managed}
    (known : m ∈ inSymbolOrder managed) : ∃ k : String, managed[k]? = some m := by
  rw [inSymbolOrder, List.mem_map] at known
  obtain ⟨⟨k, m'⟩, entry, rfl⟩ := known
  exact ⟨k, Std.ExtTreeMap.mem_toList_iff_getElem?_eq_some.1 entry⟩

theorem inSymbolOrder_nodup {managed : Std.ExtTreeMap String Managed}
    (keyed : ∀ (k : String) (m : Managed), managed[k]? = some m → m.symbol = k) :
    ((inSymbolOrder managed).map fun m => m.symbol).Nodup := by
  have symbols : (inSymbolOrder managed).map (fun m => m.symbol) = managed.keys := by
    rw [inSymbolOrder, List.map_map, ← Std.ExtTreeMap.map_fst_toList_eq_keys]
    apply List.map_congr_left
    rintro ⟨k, m⟩ member
    exact keyed k m (Std.ExtTreeMap.mem_toList_iff_getElem?_eq_some.1 member)
  rw [symbols]
  exact Std.ExtTreeMap.nodup_keys

theorem candidates_of_symbol {ms : List Managed} {prs : List Proposal}
    {R : Managed → Proposal → Prop} (related : List.Forall₂ R ms prs)
    (own : ∀ m pr, R m pr → ∀ c ∈ pr.candidates, c.m = m)
    (distinct : (ms.map fun m => m.symbol).Nodup) :
    ∀ e ∈ ms.zip prs, (prs.flatMap Proposal.candidates).filter
      (fun c => c.m.symbol = e.1.symbol) = e.2.candidates := by
  induction related with
  | nil => simp
  | @cons m pr ms prs head tail ih =>
      obtain ⟨fresh, distinct⟩ := List.nodup_cons.1 distinct
      -- The candidates of the tail belong to its instruments.
      have later : ∀ c ∈ prs.flatMap Proposal.candidates, ∃ m' ∈ ms, c.m = m' := by
        intro c member
        obtain ⟨pr', inside, mine⟩ := List.mem_flatMap.1 member
        obtain ⟨i, bound, rfl⟩ := List.getElem_of_mem inside
        have within : i < ms.length := tail.length_eq ▸ bound
        exact ⟨ms[i], List.getElem_mem within, own _ _ (tail.get within bound) c mine⟩
      intro e member
      rw [List.flatMap_cons, List.filter_append]
      obtain rfl | inside := List.mem_cons.1 member
      · have mine : pr.candidates.filter (fun c => c.m.symbol = m.symbol) = pr.candidates := by
          rw [List.filter_eq_self]
          intro c candidate
          simp [own m pr head c candidate]
        have others : (prs.flatMap Proposal.candidates).filter
            (fun c => c.m.symbol = m.symbol) = [] := by
          rw [List.filter_eq_nil_iff]
          intro c candidate
          obtain ⟨m', known, rfl⟩ := later c candidate
          intro same
          rw [decide_eq_true_eq] at same
          exact fresh (List.mem_map.2 ⟨c.m, known, same⟩)
        rw [mine, others, List.append_nil]
      · have mine : pr.candidates.filter (fun c => c.m.symbol = e.1.symbol) = [] := by
          rw [List.filter_eq_nil_iff]
          intro c candidate same
          rw [own m pr head c candidate, decide_eq_true_eq] at same
          exact fresh (List.mem_map.2 ⟨e.1, (List.of_mem_zip inside).1, same.symm⟩)
        rw [mine, List.nil_append]
        exact ih distinct e inside

theorem candidates_once {ms : List Managed} {prs : List Proposal} {R : Managed → Proposal → Prop}
    (related : List.Forall₂ R ms prs)
    (single : ∀ m pr, pr ∈ prs → R m pr →
      pr.candidates = [] ∨ ∃ c, pr.candidates = [c] ∧ c.m = m) :
    ((prs.flatMap Proposal.candidates).map fun c => c.m.symbol).Sublist
      (ms.map fun m => m.symbol) := by
  induction related with
  | nil => simp
  | @cons m pr ms prs head tail ih =>
      have rest := ih fun m' pr' member => single m' pr' (List.mem_cons_of_mem _ member)
      rw [List.flatMap_cons, List.map_append, List.map_cons]
      obtain none | ⟨c, one, own⟩ := single m pr (by simp) head
      · rw [none]
        exact rest.cons _
      · rw [one, ← own]
        exact rest.cons_cons _

theorem ordersOf_subperm {cs : List Candidate} {keep : Candidate → Bool} {ps : List Placed}
    {s : String} (named : ∀ pl ∈ ps, pl.order.symbol = pl.candidate.m.symbol)
    (sub : (ps.map Placed.candidate).Sublist ((cs.filter keep).insertionSort placingOrder)) :
    ((ordersOf s ps).map Placed.candidate).Subperm
      ((cs.filter fun c => c.m.symbol = s).filter keep) := by
  have bySymbol : (ordersOf s ps).map Placed.candidate =
      (ps.map Placed.candidate).filter fun c => c.m.symbol = s := by
    rw [List.filter_map]
    apply congrArg
    apply List.filter_congr
    intro pl member
    simp [named pl member]
  have sorted : ((cs.filter keep).insertionSort placingOrder).Perm (cs.filter keep) :=
    List.perm_insertionSort ..
  rw [bySymbol, List.filter_comm]
  exact (sub.subperm.trans sorted.subperm).filter _

theorem ordersOf_append (symbol : String) (ps qs : List Placed) :
    ordersOf symbol (ps ++ qs) = ordersOf symbol ps ++ ordersOf symbol qs :=
  List.filter_append ..

theorem ordersOf_starts {symbol : String} {ps qs : List Placed} (h : ps <+: qs) :
    ordersOf symbol ps <+: ordersOf symbol qs :=
  h.filter _

theorem at_most_one {ps : List Placed} {c : Candidate}
    (sub : (ps.map Placed.candidate).Subperm [c]) : ps = [] ∨ ∃ pl, ps = [pl] ∧ pl.candidate = c := by
  have short := sub.length_le
  cases ps with
  | nil => exact .inl rfl
  | cons pl rest =>
      have empty : rest = [] := by
        rw [List.length_map, List.length_cons, List.length_singleton] at short
        exact List.eq_nil_of_length_eq_zero (by omega)
      subst empty
      have inside := sub.subset (List.mem_cons_self ..)
      exact .inr ⟨pl, rfl, by simpa using inside⟩

/-- The orders of one instrument are on one side, and every prefix of them stops
    between the start and the target. -/
structure Walks (h price C T : Int) (orders : List Placed) : Prop where
  oneSide : ∀ a ∈ orders, ∀ b ∈ orders, a.order.side = b.order.side
  between : ∀ taken, taken <+: orders → Between C T (valueAt (h + netQty taken) price)

theorem Walks.nil (h price T : Int) : Walks h price (valueAt h price) T [] := by
  refine ⟨by simp, fun taken start => ?_⟩
  obtain rfl := List.prefix_nil.1 start
  simp [netQty, Between]

theorem Walks.one {h price C T : Int} {pl : Placed} (start : Between C T (valueAt h price))
    (finish : Between C T (valueAt
      (h + Side.signed pl.order.side pl.order.quantity.atto) price)) : Walks h price C T [pl] := by
  refine ⟨by simp, fun taken begins => ?_⟩
  obtain rfl | ⟨rest, rfl, more⟩ := List.prefix_cons_iff.1 begins
  · simpa [netQty] using start
  · obtain rfl := List.prefix_nil.1 more
    simpa [netQty] using finish

theorem Walks.two {h price C T : Int} {first second : Placed}
    (same : second.order.side = first.order.side) (start : Between C T (valueAt h price))
    (middle : Between C T (valueAt
      (h + Side.signed first.order.side first.order.quantity.atto) price))
    (finish : Between C T (valueAt (h + Side.signed first.order.side first.order.quantity.atto +
      Side.signed second.order.side second.order.quantity.atto) price)) :
    Walks h price C T [first, second] := by
  refine ⟨by simp [same], fun taken begins => ?_⟩
  obtain rfl | ⟨rest, rfl, more⟩ := List.prefix_cons_iff.1 begins
  · simpa [netQty] using start
  · obtain rfl | ⟨rest', rfl, most⟩ := List.prefix_cons_iff.1 more
    · simpa [netQty] using middle
    · obtain rfl := List.prefix_nil.1 most
      simpa [netQty, add_assoc] using finish

structure Cut (pl : Placed) : Prop extends Drawn pl where
  small : pl.order.quantity.atto ≤ pl.candidate.qty.atto

theorem Steps.walks {h price C T : Int} {cs : List Candidate} {reductions increases : List Placed}
    (steps : Steps h price C T cs) (start : C = valueAt h price)
    (fromReducers : (reductions.map Placed.candidate).Subperm (cs.filter Candidate.reducing))
    (fromIncreasers : (increases.map Placed.candidate).Subperm (cs.filter fun c => !c.reducing))
    (fullSize : ∀ pl ∈ reductions, pl.order.quantity = pl.candidate.qty)
    (cutReductions : ∀ pl ∈ reductions, Cut pl) (cutIncreases : ∀ pl ∈ increases, Cut pl)
    (follows : ∀ pl ∈ increases, pl.candidate.leg = .open → reductions ≠ []) :
    Walks h price C T (reductions ++ increases) := by
  have here : Between C T (valueAt h price) := by
    rw [start]
    simp [Between]
  have none : Walks h price C T [] := by
    rw [start]
    exact .nil ..
  have none_of_subperm : ∀ {orders : List Placed},
      (orders.map Placed.candidate).Subperm [] → orders = [] := by
    intro orders sub
    simpa using sub.length_le
  -- One order of a candidate that is safe up to its size.
  have one : ∀ (pl : Placed) (c : Candidate), pl.candidate = c → Cut pl →
      (∀ x, 0 ≤ x → x ≤ c.qty.atto → Between C T (valueAt (h + Side.signed c.side x) price)) →
      Walks h price C T [pl] := by
    rintro pl c rfl cut safe
    apply Walks.one here
    rw [cut.side]
    exact safe _ cut.positive.le cut.small
  cases steps with
  | none =>
      obtain rfl := none_of_subperm fromReducers
      obtain rfl := none_of_subperm fromIncreasers
      exact none
  | whole c leg safe =>
      cases flag : c.reducing with
      | true =>
          simp only [List.filter_cons, flag, List.filter_nil, if_true, Bool.not_true,
            Bool.false_eq_true, if_false] at fromReducers fromIncreasers
          obtain rfl := none_of_subperm fromIncreasers
          rw [List.append_nil]
          obtain rfl | ⟨pl, rfl, origin⟩ := at_most_one fromReducers
          · exact none
          · exact one pl c origin (cutReductions pl (by simp)) safe
      | false =>
          simp only [List.filter_cons, flag, List.filter_nil, if_true, Bool.not_false,
            Bool.false_eq_true, if_false] at fromReducers fromIncreasers
          obtain rfl := none_of_subperm fromReducers
          rw [List.nil_append]
          obtain rfl | ⟨pl, rfl, origin⟩ := at_most_one fromIncreasers
          · exact none
          · exact one pl c origin (cutIncreases pl (by simp)) safe
  | close c leg flag safe =>
      simp only [List.filter_cons, flag, List.filter_nil, if_true, Bool.not_true,
        Bool.false_eq_true, if_false] at fromReducers fromIncreasers
      obtain rfl := none_of_subperm fromIncreasers
      rw [List.append_nil]
      obtain rfl | ⟨pl, rfl, origin⟩ := at_most_one fromReducers
      · exact none
      · exact one pl c origin (cutReductions pl (by simp)) safe
  | flip c o closes flag opens flag' side safe safe' =>
      simp only [List.filter_cons, flag, flag', List.filter_nil, if_true, Bool.not_true,
        Bool.not_false, Bool.false_eq_true, if_false] at fromReducers fromIncreasers
      obtain rfl | ⟨second, rfl, origin'⟩ := at_most_one fromIncreasers
      · rw [List.append_nil]
        obtain rfl | ⟨first, rfl, origin⟩ := at_most_one fromReducers
        · exact none
        · exact one first c origin (cutReductions first (by simp)) safe
      · obtain rfl | ⟨first, rfl, origin⟩ := at_most_one fromReducers
        · have needed := follows second (by simp) (by rw [origin', opens])
          exact absurd rfl needed
        · have cut := cutReductions first (by simp)
          have cut' := cutIncreases second (by simp)
          have firstSide := cut.side
          have firstPos := cut.positive
          have secondSide := cut'.side
          have secondLe := cut'.small
          have whole := fullSize first (by simp)
          rw [origin] at firstSide whole
          rw [origin'] at secondSide secondLe
          rw [whole] at firstPos
          refine Walks.two (by rw [firstSide, secondSide, side]) here ?_ ?_
          · rw [firstSide, whole]
            exact safe _ firstPos.le le_rfl
          · rw [firstSide, secondSide, whole]
            exact safe' _ firstPos.le cut'.positive.le secondLe

end Instruments

section Plans

variable [UnicodeCase] [InstantText] [Sha256] {targets : List SleeveTarget} {account : AccountView}
  {prices : Std.ExtTreeMap String PricePoint} {book : VenueRuleBook} {policy : Policy}
  {cfg : PlanConfig} {p : OrderPlan}

omit [InstantText] [Sha256] in
theorem revaluePosition_ok {keyed : Std.ExtTreeMap String PricePoint} {q q' : Position}
    (h : revaluePosition keyed q = .ok q') : ∃ value, q' = { q with marketValue := value } := by
  unfold revaluePosition at h
  split at h
  next =>
      obtain ⟨value, -, h⟩ := bind_eq_ok.1 h
      exact ⟨value, (Except.ok.inj h).symm⟩
  next => exact ⟨q.marketValue, (Except.ok.inj h).symm⟩

omit [InstantText] [Sha256] in
theorem revalued_held {keyed : Std.ExtTreeMap String PricePoint} {before after : List Position}
    (pairs : List.Forall₂ (fun q q' => revaluePosition keyed q = .ok q') before after)
    (symbol : String) : heldIn after symbol = heldIn before symbol := by
  induction pairs with
  | nil => rfl
  | @cons q q' rest rest' head _ ih =>
      obtain ⟨value, rfl⟩ := revaluePosition_ok head
      unfold heldIn at ih ⊢
      cases here : eqIgnoreAsciiCase q.symbol symbol with
      | true => simp [here]
      | false => simpa [here] using ih

omit [InstantText] [Sha256] in
theorem revalue_held {keyed : Std.ExtTreeMap String PricePoint} {sim : AccountView}
    (h : revalue keyed account = .ok sim) (symbol : String) :
    heldIn sim.positions symbol = heldIn account.positions symbol := by
  obtain ⟨positions, valued, h⟩ := bind_eq_ok.1 h
  obtain rfl := Except.ok.inj h
  exact revalued_held (mapM_eq_ok.1 valued) symbol

variable {placed ps qs : List Placed} {managed : Std.ExtTreeMap String Managed} {sim : AccountView}
  {proposals : List Proposal} {mid finish : SimState}

section

variable (parts : PlanParts targets account prices book policy cfg p placed managed sim proposals ps qs mid finish)

include parts

theorem PlanParts.candidate_origin {c : Candidate} (member : c ∈ proposals.flatMap Proposal.candidates) :
    ∃ pr, (c.m, pr) ∈ (inSymbolOrder managed).zip proposals ∧ c ∈ pr.candidates ∧
      Proposed cfg account (keyPrices prices) (policy.capitalBase account.equity account.ccy)
        c.m pr := by
  obtain ⟨pr, inside, mine⟩ := List.mem_flatMap.1 member
  obtain ⟨i, bound, rfl⟩ := List.getElem_of_mem inside
  have within : i < (inSymbolOrder managed).length := parts.proposed.length_eq ▸ bound
  have proposed := parts.proposed.get within bound
  have own := proposed.own c mine
  refine ⟨proposals[i], ?_, mine, ?_⟩
  · rw [own]
    exact List.mem_iff_getElem.2 ⟨i, by simp [within, bound], by simp⟩
  · rw [own]
    exact proposed

theorem PlanParts.reduction {pl : Placed} (member : pl ∈ ps) :
    pl.candidate ∈ proposals.flatMap Proposal.candidates ∧ pl.candidate.reducing = true := by
  have sorted := parts.ordered.fromReducers.subset (List.mem_map.2 ⟨pl, member, rfl⟩)
  rw [reducersOf, List.mem_insertionSort, List.mem_filter] at sorted
  exact sorted

theorem PlanParts.increase {pl : Placed} (member : pl ∈ qs) :
    pl.candidate ∈ proposals.flatMap Proposal.candidates ∧ pl.candidate.reducing = false := by
  have sorted := parts.ordered.fromIncreasers.subset (List.mem_map.2 ⟨pl, member, rfl⟩)
  rw [increasersOf, List.mem_insertionSort, List.mem_filter, Bool.not_eq_true'] at sorted
  exact sorted

theorem PlanParts.cut {pl : Placed} (member : pl ∈ placed) : Cut pl := by
  rw [parts.placed_eq, List.mem_append] at member
  obtain reduction | increase := member
  · have whole := parts.ordered.fullSize pl reduction
    exact ⟨parts.ordered.reductions.drawn pl reduction, by rw [whole]⟩
  · have drawn := parts.ordered.increases.drawn pl increase
    exact ⟨drawn, parts.ordered.atMost pl increase drawn.positive⟩

theorem PlanParts.order_origin {pl : Placed} (member : pl ∈ placed) :
    ∃ pr, (pl.candidate.m, pr) ∈ (inSymbolOrder managed).zip proposals ∧
      pl.candidate ∈ pr.candidates ∧
      Proposed cfg account (keyPrices prices) (policy.capitalBase account.equity account.ccy)
        pl.candidate.m pr := by
  rw [parts.placed_eq, List.mem_append] at member
  obtain reduction | increase := member
  · exact parts.candidate_origin (parts.reduction reduction).1
  · exact parts.candidate_origin (parts.increase increase).1

theorem PlanParts.named {m : Managed} (known : m ∈ inSymbolOrder managed) : NamedBy targets m.symbol m := by
  obtain ⟨k, entry⟩ := mem_inSymbolOrder known
  have found := aggregate_named parts.managed_eq k m entry
  have key := found.symbol_eq
  subst key
  exact found

theorem PlanParts.walks {m : Managed} {pr : Proposal} {h price C T : Int}
    (known : (m, pr) ∈ (inSymbolOrder managed).zip proposals) (steps : Steps h price C T pr.candidates)
    (start : C = valueAt h price) :
    Walks h price C T (ordersOf m.symbol placed) := by
  have distinct := inSymbolOrder_nodup fun k m found =>
    (aggregate_named parts.managed_eq k m found).symbol_eq
  have mine := candidates_of_symbol parts.proposed (fun _ _ proposed => proposed.own) distinct _ known
  have symbols : ∀ pl ∈ placed, pl.order.symbol = pl.candidate.m.symbol :=
    fun pl member => (parts.cut member).symbol
  have inPlaced : ∀ pl, pl ∈ ps ∨ pl ∈ qs → pl ∈ placed := by
    intro pl member
    rw [parts.placed_eq, List.mem_append]
    exact member
  have cut : ∀ orders : List Placed, (∀ pl ∈ orders, pl ∈ placed) →
      ∀ pl ∈ ordersOf m.symbol orders, Cut pl := by
    intro orders inside pl member
    exact parts.cut (inside pl (List.mem_filter.1 member).1)
  have reducers := ordersOf_subperm (s := m.symbol)
    (fun pl member => symbols pl (inPlaced pl (.inl member))) parts.ordered.fromReducers
  have increasers := ordersOf_subperm (s := m.symbol)
    (fun pl member => symbols pl (inPlaced pl (.inr member))) parts.ordered.fromIncreasers
  rw [mine] at reducers increasers
  rw [parts.placed_eq, ordersOf_append]
  apply steps.walks start reducers increasers
  · intro pl member
    exact parts.ordered.fullSize pl (List.mem_filter.1 member).1
  · exact cut ps fun pl member => inPlaced pl (.inl member)
  · exact cut qs fun pl member => inPlaced pl (.inr member)
  · intro pl member opens
    obtain ⟨inside, ours⟩ := List.mem_filter.1 member
    obtain ⟨first, before, -, same⟩ := parts.ordered.follows pl inside opens
    have first_ours : first ∈ ordersOf m.symbol ps := by
      rw [ordersOf, List.mem_filter, symbols first (inPlaced first (.inl before)), same,
        ← symbols pl (inPlaced pl (.inr inside))]
      exact ⟨before, ours⟩
    exact List.ne_nil_of_mem first_ours

end

/-- What a plan promises about its orders; `placed` are the orders with the
    candidates they came from, `start` is the state they are replayed from. -/
structure TowardTargets (targets : List SleeveTarget) (account : AccountView)
    (keyed : Std.ExtTreeMap String PricePoint) (p : OrderPlan) (placed : List Placed)
    (start : SimState) : Prop where
  oneSide : ∀ a ∈ p.orders, ∀ b ∈ p.orders, a.symbol = b.symbol → a.side = b.side
  lined : ∀ o ∈ p.orders, ∃ line ∈ p.lines, line.symbol = o.symbol
  /-- After every order, each position with a line is worth something between its
      starting value and its target. -/
  between : ∀ line ∈ p.lines, ∃ px, keyed[line.symbol]? = some px ∧
    line.held = account.heldQuantity line.symbol ∧
    DecMath.mul line.held px.price = .ok line.currentNotional ∧
    (∀ o ∈ p.orders, o.symbol = line.symbol → o.price = px.price) ∧
    ∀ k, ∃ s, replay start (p.orders.take k) = .ok s ∧
      Between line.currentNotional.atto line.targetNotional.atto
        (valueAt (s.account.heldQuantity line.symbol).atto px.price.atto) ∧
      ∀ v, DecMath.mul (s.account.heldQuantity line.symbol) px.price = .ok v →
        Between line.currentNotional.atto line.targetNotional.atto v.atto
  openAfterClose : ∀ (i : Nat) (pl : Placed), placed[i]? = some pl → pl.candidate.leg = .open →
    ∃ j < i, ∃ first : Placed, placed[j]? = some first ∧ first.candidate.leg = .close ∧
      first.order.symbol = pl.order.symbol
  reductionsFirst : ∀ (i j : Nat) (a b : Placed), placed[i]? = some a → placed[j]? = some b →
    a.candidate.reducing = true → b.candidate.reducing = false → i < j
  flagged : ∀ pl ∈ placed, Flagged (account.heldQuantity pl.order.symbol).atto pl.candidate.leg
    pl.order.side pl.order.quantity.atto pl.candidate.reducing
  named : ∀ o ∈ p.orders, ∃ t ∈ targets, ∃ w ∈ t.weights, o.symbol = upperName w.symbol

theorem PlanParts.held_after (parts : PlanParts targets account prices book policy cfg p
      placed managed sim proposals ps qs mid finish) (k : Nat) :
    ∃ s, replay ⟨sim, cfg.day⟩ (p.orders.take k) = .ok s ∧ ∀ symbol, IsKey symbol →
      (s.account.heldQuantity symbol).atto =
        (account.heldQuantity symbol).atto + netQty (ordersOf symbol (placed.take k)) := by
  have run := parts.ordered.reductions.append parts.ordered.increases
  rw [← parts.placed_eq] at run
  obtain ⟨s, taken⟩ := run.take k
  refine ⟨s, ?_, ?_⟩
  · rw [parts.orders_eq, ← List.map_take]
    exact taken.replay
  · intro symbol key
    rw [heldQuantity_atto, heldQuantity_atto, ← revalue_held parts.sim_eq]
    refine taken.held ?_ key
    intro pl member
    have inside := List.mem_of_mem_take member
    obtain ⟨pr, known, -⟩ := parts.order_origin inside
    obtain ⟨-, -, ⟨w, -, spelled⟩, -⟩ := (parts.named (List.of_mem_zip known).1).named
    rw [(parts.cut inside).symbol]
    exact ⟨_, spelled⟩

omit [UnicodeCase] [InstantText] [Sha256] in
theorem getElem?_append_cases {α : Type} {xs ys : List α} {i : Nat} {a : α}
    (h : (xs ++ ys)[i]? = some a) :
    (i < xs.length ∧ a ∈ xs) ∨ (xs.length ≤ i ∧ a ∈ ys) := by
  rcases lt_or_ge i xs.length with left | right
  · rw [List.getElem?_append_left left] at h
    exact .inl ⟨left, List.mem_of_getElem? h⟩
  · rw [List.getElem?_append_right right] at h
    exact .inr ⟨right, List.mem_of_getElem? h⟩

omit [UnicodeCase] [InstantText] [Sha256] in
theorem Proposed.line_of_candidate {capitalBase : Dec} {m : Managed} {pr : Proposal} {c : Candidate}
    {keyed : Std.ExtTreeMap String PricePoint}
    (proposed : Proposed cfg account keyed capitalBase m pr) (member : c ∈ pr.candidates) :
    ∃ line, pr.line = some line := by
  cases lineEq : pr.line with
  | some line => exact ⟨line, rfl⟩
  | none =>
      rw [proposed.unlined lineEq] at member
      cases member

omit [UnicodeCase] [InstantText] [Sha256] in
theorem Flagged.smaller {held size size' : Int} {leg : Leg} {side : Side} {reducing : Bool}
    (flag : Flagged held leg side size reducing) (le : size' ≤ size) :
    Flagged held leg side size' reducing := by
  refine ⟨fun isReduction => ?_, flag.increase⟩
  obtain ⟨notOpen, against, bound⟩ := flag.reduction isReduction
  exact ⟨notOpen, against, le.trans bound⟩

theorem PlanParts.flagged (parts : PlanParts targets account prices book policy cfg p
      placed managed sim proposals ps qs mid finish) {pl : Placed} (member : pl ∈ placed) :
    ∃ px, (keyPrices prices)[pl.order.symbol]? = some px ∧ pl.order.price = px.price ∧
      Flagged (account.heldQuantity pl.order.symbol).atto pl.candidate.leg pl.order.side
        pl.order.quantity.atto pl.candidate.reducing := by
  obtain ⟨pr, -, mine, proposed⟩ := parts.order_origin member
  obtain ⟨line, lineEq⟩ := proposed.line_of_candidate mine
  obtain ⟨-, held, -, px, quoted, -, -, sized⟩ := proposed.lined line lineEq
  have price := sized.price_eq pl.candidate mine
  have flag := sized.flagged pl.candidate mine
  have cut := parts.cut member
  rw [cut.symbol, cut.side, ← held]
  refine ⟨px, quoted, ?_, flag.smaller cut.small⟩
  rw [cut.price, price]

theorem PlanParts.towardTargets (parts : PlanParts targets account prices book policy cfg p
      placed managed sim proposals ps qs mid finish) :
    TowardTargets targets account (keyPrices prices) p placed ⟨sim, cfg.day⟩ := by
  have origin : ∀ o ∈ p.orders, ∃ pl ∈ placed, pl.order = o := by
    intro o member
    rw [parts.orders_eq, List.mem_map] at member
    exact member
  constructor
  case oneSide =>
      intro a first b second same
      obtain ⟨pl, inside, rfl⟩ := origin a first
      obtain ⟨pl', inside', rfl⟩ := origin b second
      obtain ⟨pr, known, mine, proposed⟩ := parts.order_origin inside
      obtain ⟨line, lineEq⟩ := proposed.line_of_candidate mine
      obtain ⟨-, -, -, px, -, -, worth, sized⟩ := proposed.lined line lineEq
      have symbol := (parts.cut inside).symbol
      have walk := parts.walks known sized.steps (mul_valueAt worth)
      apply walk.oneSide
      · simp [ordersOf, inside, symbol]
      · simp [ordersOf, inside', ← same, symbol]
  case lined =>
      intro o member
      obtain ⟨pl, inside, rfl⟩ := origin o member
      obtain ⟨pr, known, mine, proposed⟩ := parts.order_origin inside
      obtain ⟨line, lineEq⟩ := proposed.line_of_candidate mine
      refine ⟨line, ?_, ?_⟩
      · rw [parts.lines_eq, List.mem_filterMap]
        exact ⟨pr, (List.of_mem_zip known).2, lineEq⟩
      · rw [(proposed.lined line lineEq).1, (parts.cut inside).symbol]
  case between =>
      intro line member
      rw [parts.lines_eq, List.mem_filterMap] at member
      obtain ⟨pr, inside, lineEq⟩ := member
      obtain ⟨i, bound, rfl⟩ := List.getElem_of_mem inside
      have within : i < (inSymbolOrder managed).length := parts.proposed.length_eq ▸ bound
      have known : ((inSymbolOrder managed)[i], proposals[i]) ∈
          (inSymbolOrder managed).zip proposals :=
        List.mem_iff_getElem.2 ⟨i, by simp [within, bound], by simp⟩
      obtain ⟨symbol, held, -, px, quoted, positive, worth, sized⟩ :=
        (parts.proposed.get within bound).lined line lineEq
      simp only [List.get_eq_getElem] at symbol held quoted
      have walk := parts.walks known sized.steps (mul_valueAt worth)
      rw [← symbol] at held quoted walk
      refine ⟨px, quoted, held, worth, ?_, ?_⟩
      · intro o ordered same
        obtain ⟨pl, mine, rfl⟩ := origin o ordered
        obtain ⟨px', quoted', price, -⟩ := parts.flagged mine
        rw [same, quoted] at quoted'
        rw [price, Option.some.inj quoted']
      · intro k
        obtain ⟨s, replayed, after⟩ := parts.held_after k
        obtain ⟨-, -, ⟨w, -, spelled⟩, -⟩ := (parts.named (List.of_mem_zip known).1).named
        rw [← symbol] at spelled
        have position := after line.symbol ⟨_, spelled⟩
        have between := walk.between _ (ordersOf_starts (List.take_prefix k placed))
        rw [held, ← position] at between
        refine ⟨s, replayed, between, ?_⟩
        intro v product
        rw [mul_valueAt product]
        exact between
  case openAfterClose =>
      intro i pl found opens
      rw [parts.placed_eq] at found
      obtain ⟨-, reduction⟩ | ⟨late, increase⟩ := getElem?_append_cases found
      · have inside : pl ∈ placed := by simp [parts.placed_eq, reduction]
        obtain ⟨-, -, -, flag⟩ := parts.flagged inside
        exact absurd opens (flag.reduction (parts.reduction reduction).2).1
      · obtain ⟨first, before, closes, same⟩ := parts.ordered.follows pl increase opens
        obtain ⟨j, bound, rfl⟩ := List.getElem_of_mem before
        refine ⟨j, by omega, ps[j], ?_, closes, ?_⟩
        · rw [parts.placed_eq, List.getElem?_append_left bound, List.getElem?_eq_getElem bound]
        · rw [(parts.cut (by simp [parts.placed_eq, before])).symbol, same,
            (parts.cut (by simp [parts.placed_eq, increase])).symbol]
  case reductionsFirst =>
      intro i j a b foundA foundB reducing increasing
      rw [parts.placed_eq] at foundA foundB
      obtain ⟨early, -⟩ | ⟨-, increase⟩ := getElem?_append_cases foundA
      · obtain ⟨-, reduction⟩ | ⟨late, -⟩ := getElem?_append_cases foundB
        · rw [(parts.reduction reduction).2] at increasing
          cases increasing
        · omega
      · rw [(parts.increase increase).2] at reducing
        cases reducing
  case flagged =>
      intro pl member
      obtain ⟨-, -, -, flag⟩ := parts.flagged member
      exact flag
  case named =>
      intro o member
      obtain ⟨pl, inside, rfl⟩ := origin o member
      obtain ⟨pr, known, -⟩ := parts.order_origin inside
      obtain ⟨t, target, ⟨w, weight, spelled⟩, -⟩ := (parts.named (List.of_mem_zip known).1).named
      refine ⟨t, target, w, weight, ?_⟩
      rw [(parts.cut inside).symbol, spelled]

end Plans

namespace OrderPlanner

/-- Every plan moves each of its instruments toward its target and never past it:
    the orders of an instrument are on one side, the position after any number of
    the plan's orders is worth something between its start and its target, an open
    leg follows its accepted close leg, reductions precede increases, and only
    instruments of a sleeve are traded. -/
theorem plan_moves_toward_targets [UnicodeCase] [InstantText] [Sha256]
    (targets : List SleeveTarget) (account : AccountView)
    (prices : Std.ExtTreeMap String PricePoint) (book : VenueRuleBook) (policy : Policy)
    (cfg : PlanConfig) (p : OrderPlan)
    (planned : plan targets account prices book policy cfg = .ok p) :
    ∃ placed sim, planTraced targets account prices book policy cfg = .ok (p, placed) ∧
      p.orders = placed.map Placed.order ∧ revalue (keyPrices prices) account = .ok sim ∧
      TowardTargets targets account (keyPrices prices) p placed ⟨sim, cfg.day⟩ := by
  obtain ⟨placed, traced⟩ := plan_ok planned
  obtain ⟨managed, sim, proposals, ps, qs, mid, finish, parts⟩ := planTraced_ok traced
  exact ⟨placed, sim, traced, parts.orders_eq, parts.sim_eq, parts.towardTargets⟩

section Sample

open Amount (cents)

/-- The hashes of the two tags and of the inputs of the plan below. -/
@[reducible] private def flipHash : Sha256 where
  hexDigest text :=
    if text = "rebalance:acct:19700101T000000Z:trend:BTC:sell:close" then
      "1f4505853d54f9368a16f69f5a225b1dcc3178769ea9110525c9fd68daa363b0"
    else if text = "rebalance:acct:19700101T000000Z:trend:BTC:sell" then
      "dc5dab93a504551c4af64ebfa04aff2626ee4354f7edffae88e80ccb758c44d4"
    else "91df017182928bd35f2f2167c9809f590b7e85c8fe295479eb4e18b36e1df67f"

attribute [local instance] asciiCase epochText flipHash

/-- Shorts are allowed, gross exposure may reach twice the base of 1000. -/
private def longShort : Policy where
  bodyHash := "0"
  envelope := some ⟨1, .active, 0, 31536000000000000⟩
  maxPriceAgeSecs := ⟨300, fiveMinutes_fits⟩
  body := .valid
    { ccy := "USD"
      allocated := cents 100000
      minCashReserve := cents 10
      instrumentAllow := .ofList ["BTC"]
      instrumentDeny := ∅
      venues := .ofList ["kraken"]
      assetClasses := .ofList ["crypto"]
      shorting := true
      derivatives := false
      leverageMaxGross := cents 200
      maxPosition := cents 100
      maxAssetClass := ∅
      maxGross := cents 200
      maxNet := cents 200
      maxOrderNotional := cents 100000
      maxOrdersPerDay := 10
      maxTurnoverPerDay := cents 200
      classes_lower := noClasses_lower }

private def longBitcoin : AccountView where
  accountId := "acct"
  ccy := "USD"
  equity := cents 120000
  cash := cents 100000
  positions := [⟨"BTC", "kraken", "crypto", cents 200, cents 20000⟩]
  halted := false
  now := 0

private def bitcoinAt100 : Std.ExtTreeMap String PricePoint :=
  (∅ : Std.ExtTreeMap String PricePoint).insert "BTC" ⟨cents 10000, 0⟩

private def kraken : VenueRuleBook where
  byVenue := .ofList [("kraken", VenueRules.anySize)]
  instruments := { InstrumentRules.empty with
    rules := InstrumentRules.empty.rules.insert ("kraken", "BTC") ⟨.allowed, none, none⟩ }

/-- Half of the capital short, from two bitcoin long. -/
private def halfShort : List SleeveTarget :=
  [⟨"trend", Dec.one, "kraken", "crypto", [⟨"BTC", ⟨⟨-5, Dec.fits_neg_five⟩, 1, Dec.scale_one⟩⟩]⟩]

private def signedRun : PlanConfig where
  scheduledFor := 0
  riskScale := Dec.one
  minTradeAbs := Dec.zero
  minTradePct := Dec.zero
  feeRate := Dec.zero
  creditSellProceeds := true
  day := ⟨0, Dec.zero⟩
  signedSleeves := .ofList [("trend", Dec.one)]
  buyingPower := some (cents 200000)

/-- Two long become five short: a close leg of two, then an open leg of five. -/
theorem flip_moves_toward_target :
    ∃ p, plan halfShort longBitcoin bitcoinAt100 kraken longShort signedRun = .ok p ∧
      (p.orders.map fun o => (o.side, o.quantity.atto)) =
        [(.sell, 2 * 10 ^ 18), (.sell, 5 * 10 ^ 18)] ∧
      ∃ placed sim, TowardTargets halfShort longBitcoin (keyPrices bitcoinAt100) p placed
        ⟨sim, signedRun.day⟩ := by
  have sizes : (plan halfShort longBitcoin bitcoinAt100 kraken longShort signedRun).map
      (fun p => p.orders.map fun o => (o.side, o.quantity.atto)) =
        .ok [(.sell, 2 * 10 ^ 18), (.sell, 5 * 10 ^ 18)] := by decide +kernel
  cases planned : plan halfShort longBitcoin bitcoinAt100 kraken longShort signedRun with
  | error e =>
      rw [planned] at sizes
      cases sizes
  | ok p =>
      rw [planned] at sizes
      obtain ⟨placed, sim, -, -, -, toward⟩ := plan_moves_toward_targets halfShort longBitcoin
        bitcoinAt100 kraken longShort signedRun p planned
      exact ⟨p, rfl, Except.ok.inj sizes, placed, sim, toward⟩

end Sample

end OrderPlanner

end RebalancerCore
