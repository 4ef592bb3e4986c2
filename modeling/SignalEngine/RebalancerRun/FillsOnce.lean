import SignalEngine.RebalancerRun.Pipeline
import Mathlib.Algebra.BigOperators.Group.Finset.Basic
import Mathlib.Data.Finset.Filter

/-! # Every fill counts once

`afterOrders` adds the distinct fills of the orders to a baseline, whatever their
order and however often one is reported. The orders of a run go through a filter
before: the fills they still owe the baseline arrive only when none of their
reports is applied already.
-/

open BrokerAdapters Text RebalancerCore.DecMath Outcome

namespace RebalancerRun

open Run

/-- A report, with the upper-case symbol and the side of the order it stands in. -/
structure Fill where
  symbol : String
  side : Side
  report : OrderReport
  deriving DecidableEq

namespace Fill

def id (f : Fill) : String := f.report.brokerOrderId

def executed (f : Fill) : Bool := f.report.executedQuantity.isPositive

def cost (f : Fill) : Int := ((ReconBaseline.costOf f.report).getD Dec.zero).atto

def fee (f : Fill) : Int := (f.report.fee.getD Dec.zero).atto

def cashChange (f : Fill) : Int :=
  match f.side with
  | .buy => -(f.cost + f.fee)
  | .sell => f.cost - f.fee

def quantityChange (f : Fill) : Int :=
  match f.side with
  | .buy => f.report.executedQuantity.atto
  | .sell => -f.report.executedQuantity.atto

end Fill

namespace ReconBaseline

def held (b : ReconBaseline) (symbol : String) : Int := (b.holdings[symbol]?.getD Dec.zero).atto

/-- The second baseline is the first plus the fills. -/
structure Plus (b : ReconBaseline) (fills : Finset Fill) (b' : ReconBaseline) : Prop where
  cash : b'.cash.atto = b.cash.atto + ∑ f ∈ fills, f.cashChange
  held : ∀ symbol, b'.held symbol = b.held symbol + ∑ f ∈ fills with f.symbol = symbol, f.quantityChange
  listed : ∀ symbol, symbol ∈ b'.holdings ↔ symbol ∈ b.holdings ∨ ∃ f ∈ fills, f.symbol = symbol
  marks : b'.marks = b.marks

theorem Plus.refl (b : ReconBaseline) : b.Plus ∅ b := ⟨by simp, by simp, by simp, rfl⟩

/-! ## One fill -/

theorem costOf_cost {f : Fill} {cost : Dec} (found : costOf f.report = some cost) : f.cost = cost.atto := by
  rw [Fill.cost, found, Option.getD_some]

theorem held_insert {b : ReconBaseline} {cash quantity : Dec} {symbol : String} {change : Int}
    (same : quantity.atto = b.held symbol + change) (other : String) :
    ReconBaseline.held { b with cash := cash, holdings := b.holdings.insert symbol quantity } other =
      b.held other + if symbol = other then change else 0 := by
  simp only [held, Std.ExtTreeMap.getElem?_insert, Std.LawfulEqCmp.compare_eq_iff_eq]
  by_cases here : symbol = other
  · subst here
    simpa [held] using same
  · simp [here]

structure AfterFill (b : ReconBaseline) (f : Fill) (b' : ReconBaseline) : Prop where
  cash : b'.cash.atto = b.cash.atto + f.cashChange
  held : ∀ symbol, b'.held symbol = b.held symbol + if f.symbol = symbol then f.quantityChange else 0
  listed : ∀ symbol, symbol ∈ b'.holdings ↔ symbol ∈ b.holdings ∨ f.symbol = symbol
  marks : b'.marks = b.marks

theorem Plus.insert {b c c' : ReconBaseline} {fills : Finset Fill} {f : Fill} (plus : b.Plus fills c)
    (after : c.AfterFill f c') (new : f ∉ fills) : b.Plus (insert f fills) c' where
  cash := by
    rw [after.cash, plus.cash, Finset.sum_insert new]
    omega
  held := by
    intro symbol
    rw [after.held, plus.held, Finset.filter_insert]
    split
    · rw [Finset.sum_insert (mt (fun member => (Finset.mem_filter.1 member).1) new)]
      omega
    · omega
  listed := by
    intro symbol
    rw [after.listed, plus.listed]
    simp only [Finset.mem_insert, exists_eq_or_imp, or_assoc]
    rw [or_comm (a := f.symbol = symbol)]
  marks := after.marks.trans plus.marks

structure Agrees (b b' : ReconBaseline) : Prop where
  cash : b.cash.atto = b'.cash.atto
  held : ∀ symbol, b.held symbol = b'.held symbol
  listed : ∀ symbol, symbol ∈ b.holdings ↔ symbol ∈ b'.holdings

theorem Plus.agrees {b c c' : ReconBaseline} {fills : Finset Fill} (plus : b.Plus fills c)
    (plus' : b.Plus fills c') : c.Agrees c' where
  cash := plus.cash.trans plus'.cash.symm
  held symbol := (plus.held symbol).trans (plus'.held symbol).symm
  listed symbol := (plus.listed symbol).trans (plus'.listed symbol).symm

/-! ## Duplicates within an order -/

theorem mem_of_mem_unseenReports {rs : List OrderReport} : ∀ {seen : Std.ExtTreeSet String} {r : OrderReport},
    r ∈ unseenReports seen rs → r ∈ rs := by
  induction rs with
  | nil =>
      intro seen r member
      cases member
  | cons q rs ih =>
      intro seen r member
      rw [unseenReports] at member
      split at member
      · exact List.mem_cons_of_mem _ (ih member)
      · rcases List.mem_cons.1 member with rfl | later
        · exact List.mem_cons_self
        · exact List.mem_cons_of_mem _ (ih later)

theorem exists_mem_unseenReports {rs : List OrderReport} : ∀ {seen : Std.ExtTreeSet String} {r : OrderReport},
    r ∈ rs → seen.contains r.brokerOrderId = false →
      ∃ q ∈ unseenReports seen rs, q.brokerOrderId = r.brokerOrderId := by
  induction rs with
  | nil =>
      intro seen r member
      cases member
  | cons p rs ih =>
      intro seen r member unseen
      rw [unseenReports]
      rcases List.mem_cons.1 member with rfl | later
      · rw [if_neg (by simp [unseen])]
        exact ⟨r, List.mem_cons_self, rfl⟩
      · split
        · exact ih later unseen
        · by_cases same : p.brokerOrderId = r.brokerOrderId
          · exact ⟨p, List.mem_cons_self, same⟩
          · have unseen' : (seen.insert p.brokerOrderId).contains r.brokerOrderId = false := by
              simp [Std.ExtTreeSet.contains_insert, unseen, same]
            obtain ⟨q, member, found⟩ := ih later unseen'
            exact ⟨q, List.mem_cons_of_mem _ member, found⟩

def NamedById (fills : Finset Fill) : Prop := ∀ f ∈ fills, ∀ g ∈ fills, f.id = g.id → f = g

theorem NamedById.subset {fills fills' : Finset Fill} (named : NamedById fills') (subset : fills ⊆ fills') :
    NamedById fills := fun f member g member' same => named f (subset member) g (subset member') same

end ReconBaseline

theorem mem_unapplied {applied : Std.ExtTreeSet String} {expected : List ExpectedOrder} {o : ExpectedOrder} :
    o ∈ unapplied applied expected ↔
      o ∈ expected ∧ o.expectExists = true ∧ ∀ r ∈ o.reports, applied.contains r.brokerOrderId = false := by
  simp [unapplied, List.mem_filter]

section Casing

variable [UnicodeCase]

def ExpectedOrder.fill (o : ExpectedOrder) (r : OrderReport) : Fill := ⟨toUppercase o.symbol, o.side, r⟩

def reportedFills (orders : List ExpectedOrder) : List Fill := orders.flatMap fun o => o.reports.map o.fill

/-- Equal broker ids carry equal reports, on the same symbol and side. -/
def CoherentReports (orders : List ExpectedOrder) : Prop :=
  ∀ f ∈ reportedFills orders, ∀ g ∈ reportedFills orders, f.id = g.id → f = g

def distinctFills (orders : List ExpectedOrder) : Finset Fill :=
  (reportedFills orders).toFinset.filter fun f => f.executed = true

namespace ReconBaseline

variable {b : ReconBaseline} {orders : List ExpectedOrder}

theorem afterFill_some {b' : ReconBaseline} {o : ExpectedOrder} {r : OrderReport}
    (h : b.afterFill o.symbol o.side r = some b') : b.AfterFill (o.fill r) b' := by
  obtain ⟨cost, found, h⟩ := Option.bind_eq_some_iff.1 h
  have priced := @costOf_cost (o.fill r) cost found
  have listed (b : ReconBaseline) (quantity : Dec) (symbol : String) :
      symbol ∈ b.holdings.insert (toUppercase o.symbol) quantity ↔
        symbol ∈ b.holdings ∨ (o.fill r).symbol = symbol := by
    rw [Std.ExtTreeMap.mem_insert, Std.LawfulEqCmp.compare_eq_iff_eq, or_comm]
    rfl
  cases side : o.side with
  | buy =>
      simp only [side] at h
      obtain ⟨quantity, added, h⟩ := Option.bind_eq_some_iff.1 h
      obtain ⟨spent, summed, h⟩ := Option.bind_eq_some_iff.1 h
      obtain ⟨cash, subtracted, h⟩ := Option.bind_eq_some_iff.1 h
      cases h
      constructor
      case cash =>
        rw [sub_ok (toOption_eq_some.1 subtracted), add_ok (toOption_eq_some.1 summed), Fill.cashChange, priced]
        simp only [ExpectedOrder.fill, side, Fill.fee]
        omega
      case held =>
        refine held_insert ?_
        rw [add_ok (toOption_eq_some.1 added), Fill.quantityChange]
        simp only [ExpectedOrder.fill, side]
        rfl
      case listed => exact listed b quantity
      case marks => rfl
  | sell =>
      simp only [side] at h
      obtain ⟨quantity, removed, h⟩ := Option.bind_eq_some_iff.1 h
      obtain ⟨received, net, h⟩ := Option.bind_eq_some_iff.1 h
      obtain ⟨cash, added, h⟩ := Option.bind_eq_some_iff.1 h
      cases h
      constructor
      case cash =>
        rw [add_ok (toOption_eq_some.1 added), sub_ok (toOption_eq_some.1 net), Fill.cashChange, priced]
        simp only [ExpectedOrder.fill, side, Fill.fee]
      case held =>
        refine held_insert ?_
        rw [sub_ok (toOption_eq_some.1 removed), Fill.quantityChange]
        simp only [ExpectedOrder.fill, side]
        rw [sub_eq_add_neg]
        rfl
      case listed => exact listed b quantity
      case marks => rfl

/-! ## A list of reports -/

/-- The ids seen are those of the reports so far, and the baseline has their executed fills. -/
structure Counted (b : ReconBaseline) (reported : Finset Fill) (a : Applied) : Prop where
  seen : ∀ id, a.1.contains id = true ↔ ∃ f ∈ reported, f.id = id
  plus : b.Plus (reported.filter fun f => f.executed = true) a.2

theorem Counted.applyReport {reported : Finset Fill} {a a' : Applied} {o : ExpectedOrder} {r : OrderReport}
    (counted : b.Counted reported a) (named : NamedById (insert (o.fill r) reported))
    (h : ReconBaseline.applyReport o a r = some a') : b.Counted (insert (o.fill r) reported) a' := by
  have grows (id : String) : (a.1.insert r.brokerOrderId).contains id = true ↔
      ∃ f ∈ insert (o.fill r) reported, f.id = id := by
    simp only [Std.ExtTreeSet.contains_insert, Bool.or_eq_true, beq_iff_eq, Std.LawfulEqCmp.compare_eq_iff_eq, counted.seen,
      Finset.mem_insert, exists_eq_or_imp]
    rfl
  unfold ReconBaseline.applyReport at h
  split at h
  next seen =>
    cases h
    obtain ⟨g, member, same⟩ := (counted.seen _).1 seen
    obtain rfl := named _ (Finset.mem_insert_self _ _) g (Finset.mem_insert_of_mem member) same.symm
    rwa [Finset.insert_eq_of_mem member]
  next unseen =>
    have new : o.fill r ∉ reported := fun member => unseen ((counted.seen _).2 ⟨_, member, rfl⟩)
    split at h
    next idle =>
      cases h
      refine ⟨grows, ?_⟩
      rw [Finset.filter_insert, if_neg (by simpa [Fill.executed, ExpectedOrder.fill] using idle)]
      exact counted.plus
    next executed =>
      obtain ⟨next, filled, rfl⟩ := Option.map_eq_some_iff.1 h
      refine ⟨grows, ?_⟩
      rw [Finset.filter_insert, if_pos (by simpa [Fill.executed, ExpectedOrder.fill] using executed)]
      exact counted.plus.insert (afterFill_some filled) (mt (fun member => (Finset.mem_filter.1 member).1) new)

theorem Counted.applyReports {o : ExpectedOrder} {rs : List OrderReport} :
    ∀ {reported : Finset Fill} {a a' : Applied}, b.Counted reported a →
      NamedById (reported ∪ (rs.map o.fill).toFinset) → rs.foldlM (ReconBaseline.applyReport o) a = some a' →
        b.Counted (reported ∪ (rs.map o.fill).toFinset) a' := by
  induction rs with
  | nil =>
      intro reported a a' counted named h
      cases h
      simpa using counted
  | cons r rs ih =>
      intro reported a a' counted named h
      rw [List.foldlM_cons] at h
      obtain ⟨next, applied, h⟩ := Option.bind_eq_some_iff.1 h
      have split : reported ∪ ((r :: rs).map o.fill).toFinset =
          insert (o.fill r) reported ∪ (rs.map o.fill).toFinset := by
        rw [List.map_cons, List.toFinset_cons, Finset.union_insert, Finset.insert_union]
      rw [split] at named ⊢
      exact ih (counted.applyReport (named.subset Finset.subset_union_left) applied) named h

def uniqueFills (orders : List ExpectedOrder) : List Fill := orders.flatMap fun o => (uniqueReports o).map o.fill

theorem Counted.applyOrders :
    ∀ {reported : Finset Fill} {a a' : Applied}, b.Counted reported a →
      NamedById (reported ∪ (uniqueFills orders).toFinset) →
        orders.foldlM (fun a o => (uniqueReports o).foldlM (ReconBaseline.applyReport o) a) a = some a' →
          b.Counted (reported ∪ (uniqueFills orders).toFinset) a' := by
  induction orders with
  | nil =>
      intro reported a a' counted named h
      cases h
      simpa [uniqueFills] using counted
  | cons o orders ih =>
      intro reported a a' counted named h
      rw [List.foldlM_cons] at h
      obtain ⟨next, applied, h⟩ := Option.bind_eq_some_iff.1 h
      have split : reported ∪ (uniqueFills (o :: orders)).toFinset =
          reported ∪ ((uniqueReports o).map o.fill).toFinset ∪ (uniqueFills orders).toFinset := by
        rw [uniqueFills, List.flatMap_cons, List.toFinset_append, Finset.union_assoc]
        rfl
      rw [split] at named ⊢
      exact ih (counted.applyReports (named.subset Finset.subset_union_left) applied) named h

theorem mem_reportedFills {f : Fill} : f ∈ reportedFills orders ↔ ∃ o ∈ orders, ∃ r ∈ o.reports, o.fill r = f := by
  simp [reportedFills]

theorem uniqueFills_toFinset (coherent : CoherentReports orders) :
    (uniqueFills orders).toFinset = (reportedFills orders).toFinset := by
  ext f
  simp only [List.mem_toFinset, mem_reportedFills, uniqueFills, List.mem_flatMap, List.mem_map]
  constructor
  · rintro ⟨o, placed, r, member, rfl⟩
    exact ⟨o, placed, r, mem_of_mem_unseenReports member, rfl⟩
  · rintro ⟨o, placed, r, member, rfl⟩
    have fresh : (∅ : Std.ExtTreeSet String).contains r.brokerOrderId = false := by simp
    obtain ⟨q, kept, same⟩ := exists_mem_unseenReports member fresh
    refine ⟨o, placed, q, kept, ?_⟩
    exact coherent _ (mem_reportedFills.2 ⟨o, placed, q, mem_of_mem_unseenReports kept, rfl⟩) _
      (mem_reportedFills.2 ⟨o, placed, r, member, rfl⟩) same

theorem afterOrders_plus {b' : ReconBaseline} {orders : List ExpectedOrder} (coherent : CoherentReports orders)
    (h : b.afterOrders orders = some b') : b.Plus (distinctFills orders) b' := by
  obtain ⟨a, folded, rfl⟩ := Option.map_eq_some_iff.1 h
  have start : b.Counted ∅ (∅, b) := ⟨by simp, by simpa using Plus.refl b⟩
  have named : NamedById (∅ ∪ (uniqueFills orders).toFinset) := by
    rw [Finset.empty_union, uniqueFills_toFinset coherent]
    intro f member g member' same
    exact coherent f (List.mem_toFinset.1 member) g (List.mem_toFinset.1 member') same
  have counted := (start.applyOrders named folded).plus
  rwa [Finset.empty_union, uniqueFills_toFinset coherent] at counted

end ReconBaseline

/-! ## The orders of a run -/

/-- Every order whose fills the baseline still lacks arrives: an executed report that is
    not applied stands in an order that was sent and none of whose reports is applied. -/
def Separated (applied : Std.ExtTreeSet String) (expected : List ExpectedOrder) : Prop :=
  ∀ f ∈ distinctFills expected, applied.contains f.id = false →
    ∃ o ∈ expected, o.expectExists = true ∧ (∀ r ∈ o.reports, applied.contains r.brokerOrderId = false) ∧
      ∃ r ∈ o.reports, o.fill r = f

/-- The fills counted after a run are those not applied before. -/
def CountsOwed (applied : Std.ExtTreeSet String) (expected : List ExpectedOrder) : Prop :=
  ∀ f ∈ distinctFills expected, f ∈ distinctFills (unapplied applied expected) ↔ applied.contains f.id = false

theorem mem_distinctFills {orders : List ExpectedOrder} {f : Fill} :
    f ∈ distinctFills orders ↔ (∃ o ∈ orders, ∃ r ∈ o.reports, o.fill r = f) ∧ f.executed = true := by
  rw [distinctFills, Finset.mem_filter, List.mem_toFinset, ReconBaseline.mem_reportedFills]

variable {applied : Std.ExtTreeSet String} {expected : List ExpectedOrder}

theorem countsOwed_iff : CountsOwed applied expected ↔ Separated applied expected := by
  constructor
  · intro counts f member owed
    obtain ⟨⟨o, kept, r, reported, same⟩, -⟩ := mem_distinctFills.1 ((counts f member).2 owed)
    obtain ⟨placed, sent, none⟩ := mem_unapplied.1 kept
    exact ⟨o, placed, sent, none, r, reported, same⟩
  · intro separated f member
    constructor
    · intro counted
      obtain ⟨⟨o, kept, r, reported, rfl⟩, -⟩ := mem_distinctFills.1 counted
      exact (mem_unapplied.1 kept).2.2 r reported
    · intro owed
      obtain ⟨o, placed, sent, none, r, reported, same⟩ := separated f member owed
      refine mem_distinctFills.2 ⟨⟨o, mem_unapplied.2 ⟨placed, sent, none⟩, r, reported, same⟩, ?_⟩
      exact (mem_distinctFills.1 member).2

/-- The same reports stand in the same orders, in any order and any number of times. -/
def SameReports (orders orders' : List ExpectedOrder) : Prop := ∀ f, f ∈ reportedFills orders ↔ f ∈ reportedFills orders'

theorem SameReports.distinctFills {orders orders' : List ExpectedOrder} (same : SameReports orders orders') :
    distinctFills orders = distinctFills orders' := by
  ext f
  simp only [RebalancerRun.distinctFills, Finset.mem_filter, List.mem_toFinset, same f]

theorem SameReports.coherent {orders orders' : List ExpectedOrder} (same : SameReports orders orders')
    (coherent : CoherentReports orders) : CoherentReports orders' :=
  fun f member g member' ids => coherent f ((same f).2 member) g ((same g).2 member') ids

theorem coherent_unapplied (coherent : CoherentReports expected) : CoherentReports (unapplied applied expected) := by
  intro f member g member' same
  rw [ReconBaseline.mem_reportedFills] at member member'
  obtain ⟨o, kept, reported⟩ := member
  obtain ⟨o', kept', reported'⟩ := member'
  exact coherent f (ReconBaseline.mem_reportedFills.2 ⟨o, (mem_unapplied.1 kept).1, reported⟩) g
    (ReconBaseline.mem_reportedFills.2 ⟨o', (mem_unapplied.1 kept').1, reported'⟩) same

theorem mem_of_mem_unapplied {f : Fill} (member : f ∈ distinctFills (unapplied applied expected)) :
    f ∈ distinctFills expected := by
  obtain ⟨⟨o, kept, reported⟩, executed⟩ := mem_distinctFills.1 member
  exact mem_distinctFills.2 ⟨⟨o, (mem_unapplied.1 kept).1, reported⟩, executed⟩

/-- The baseline after a list of orders is the one before plus their distinct fills, however
    they are listed. After a run it takes in the fills not applied before, each once, exactly
    when these stand apart from the applied ones. -/
theorem fills_count_once (coherent : CoherentReports expected) (applied : Std.ExtTreeSet String) (b : ReconBaseline) :
    (∀ after, b.afterOrders expected = some after → b.Plus (distinctFills expected) after ∧
      ∀ orders after', SameReports expected orders → b.afterOrders orders = some after' → after.Agrees after') ∧
    (∀ after, b.afterOrders (unapplied applied expected) = some after →
      b.Plus (distinctFills (unapplied applied expected)) after ∧
        (Separated applied expected →
          b.Plus ((distinctFills expected).filter fun f => applied.contains f.id = false) after)) ∧
    (CountsOwed applied expected ↔ Separated applied expected) := by
  refine ⟨?_, ?_, countsOwed_iff⟩
  · intro after h
    have plus := ReconBaseline.afterOrders_plus coherent h
    refine ⟨plus, fun orders after' same h' => ?_⟩
    have plus' := ReconBaseline.afterOrders_plus (same.coherent coherent) h'
    rw [← same.distinctFills] at plus'
    exact plus.agrees plus'
  · intro after h
    have plus := ReconBaseline.afterOrders_plus (coherent_unapplied coherent) h
    refine ⟨plus, fun separated => ?_⟩
    have counts := countsOwed_iff.2 separated
    have owed : distinctFills (unapplied applied expected) =
        (distinctFills expected).filter fun f => applied.contains f.id = false := by
      ext f
      rw [Finset.mem_filter]
      constructor
      · intro member
        exact ⟨mem_of_mem_unapplied member, (counts f (mem_of_mem_unapplied member)).1 member⟩
      · rintro ⟨member, free⟩
        exact (counts f member).2 free
    rwa [← owed]

end Casing

/-! ## A tag reported twice -/

namespace Resumed

attribute [local instance] asciiCase

private def units (n : Fin (10 ^ 9)) : Dec := ⟨⟨n, by have := n.2; unfold MachineInt.Fits; omega⟩, 0, Dec.scale_zero⟩

private def bought (id : String) : OrderReport :=
  ⟨id, some "tag", "BTC/USD", some .buy, .filled, units 1, units 1, some (units 100), some (units 100), none⟩

private def order (reports : List OrderReport) : ExpectedOrder where
  tag := "tag"
  symbol := "BTC/USD"
  side := .buy
  plannedQuantity := units 1
  brokerOrderId := some "A"
  reports := reports
  anomalies := []
  expectExists := true

private def crashed : Std.ExtTreeSet String := Std.ExtTreeSet.ofList ["A"]

private def flat : ReconBaseline := ⟨units 1000, ∅, ∅⟩

private theorem bought_coherent {orders : List ExpectedOrder}
    (fills : reportedFills orders = [(order []).fill (bought "A"), (order []).fill (bought "B")]) :
    CoherentReports orders := by
  intro f member g member' same
  rw [fills] at member member'
  simp only [List.mem_cons, List.not_mem_nil, or_false] at member member'
  rcases member with rfl | rfl
  · rcases member' with rfl | rfl
    · rfl
    · exact absurd same (by decide)
  · rcases member' with rfl | rfl
    · exact absurd same (by decide)
    · rfl

/-- One tag with an applied report and a new one: the new fill is left out of the cash. -/
theorem new_fill_of_applied_tag_lost :
    CoherentReports [order [bought "A", bought "B"]] ∧
      (order []).fill (bought "B") ∈ distinctFills [order [bought "A", bought "B"]] ∧
      crashed.contains "B" = false ∧
      (flat.afterOrders (unapplied crashed [order [bought "A", bought "B"]])).map (fun b => b.cash.atto) =
        some (1000 * 10 ^ maxScale) ∧
      ¬ CountsOwed crashed [order [bought "A", bought "B"]] := by
  have reported : (order []).fill (bought "B") ∈ distinctFills [order [bought "A", bought "B"]] :=
    mem_distinctFills.2 ⟨⟨_, List.mem_singleton_self _, bought "B", by simp [order], rfl⟩, by decide⟩
  have left : unapplied crashed [order [bought "A", bought "B"]] = [] := by decide +kernel
  refine ⟨bought_coherent rfl, reported, by decide +kernel, ?_, ?_⟩
  · rw [left]
    decide +kernel
  · intro counts
    have counted := (counts _ reported).2 (by decide +kernel)
    rw [left] at counted
    simp [distinctFills, reportedFills] at counted

/-- Two tags of which one is applied: the fill of the other one counts. -/
theorem fills_count_once_apart :
    CountsOwed crashed [order [bought "A"], order [bought "B"]] := by
  refine (fills_count_once (bought_coherent rfl) crashed flat).2.2.2 ?_
  intro f member free
  obtain ⟨⟨o, placed, r, reported, rfl⟩, -⟩ := mem_distinctFills.1 member
  simp only [List.mem_cons, List.not_mem_nil, or_false] at placed
  rcases placed with rfl | rfl
  · rw [List.mem_singleton.1 reported] at free
    exact absurd free (by decide +kernel)
  · refine ⟨order [bought "B"], by simp, rfl, ?_, r, reported, rfl⟩
    intro q member
    rw [List.mem_singleton.1 member]
    decide +kernel

end Resumed

end RebalancerRun
