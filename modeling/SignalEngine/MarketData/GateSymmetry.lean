import SignalEngine.MarketData.Gate
import Mathlib.Algebra.Order.Group.Abs
import Mathlib.Data.List.Perm.Basic

/-! # Symmetry of the data gate

Swapping the two sources changes no verdict: what one source contributes to the
comparison dates, the other contributes after the swap, and every check leaves
the same reasons in another order.
-/

namespace MarketData

/-! ## Verdicts -/

instance : RightCommutative worse := ⟨by
  intro a b c
  cases a <;> cases b <;> cases c <;> rfl⟩

theorem worst_perm {rs rs' : List GateReason} (same : rs.Perm rs') : worst rs = worst rs' := by
  unfold worst
  exact (same.map GateReason.verdict).foldl_eq _

/-! ## Dates -/

theorem unite_comm (p s : List Date) : unite p s = unite s p := by
  unfold unite
  congr 1
  apply Std.ExtTreeSet.ext_mem
  intro d
  simp only [Std.ExtTreeSet.mem_insertMany_list, Std.ExtTreeSet.mem_ofList]
  exact or_comm

theorem comparisonDates_comm [ReferenceRules] (kind : SleeveKind) (window : Nat) (asOf : Date)
    (p s : Option PriceSeries) (pDd sDd : Option Date) :
    comparisonDates kind window asOf p s pDd sDd = comparisonDates kind window asOf s p sDd pDd := by
  cases kind with
  | etfTrend => simp only [comparisonDates, unite_comm (monthEnds window p pDd)]
  | etfMomentum => simp only [comparisonDates, unite_comm (momentumPair window p pDd)]
  | cryptoTrend => rfl

theorem mismatch_comm (p s : Option Date) : mismatch p s = mismatch s p := by
  cases p with
  | none =>
      cases s with
      | none => rfl
      | some s => rfl
  | some p =>
      cases s with
      | none => rfl
      | some s => simp only [mismatch, ne_comm, max_comm]

theorem decisionDates_swap [ReferenceRules] (kind : SleeveKind) (symbols : List String) (asOf : Date)
    (primary secondary : Panel) :
    (decisionDates kind symbols asOf secondary primary).1 =
        (decisionDates kind symbols asOf primary secondary).1.swap ∧
      (decisionDates kind symbols asOf secondary primary).2.Perm
        (decisionDates kind symbols asOf primary secondary).2 := by
  cases kind with
  | etfTrend =>
      refine ⟨rfl, ?_⟩
      simp only [decisionDates]
      rw [mismatch_comm]
      exact List.perm_append_comm.append_right _
  | etfMomentum =>
      refine ⟨rfl, ?_⟩
      simp only [decisionDates]
      rw [mismatch_comm]
  | cryptoTrend => exact ⟨rfl, .refl _⟩

theorem windowTo_comm (asOf : Date) (p s : Option PriceSeries) : windowTo asOf p s = windowTo asOf s p := by
  cases p with
  | none => simp [windowTo]
  | some p =>
      cases s with
      | none => simp [windowTo]
      | some s => simp [windowTo, List.max?_cons, max_comm]

/-! ## One instrument -/

theorem diffBps_comm (a b : ℚ) : diffBps a b = diffBps b a := by
  simp only [diffBps, abs_sub_comm a b, min_comm a b]

def GateComparison.shared (c : GateComparison) :
    (String × Date × BarPosition) × Option ℚ × GateVerdict :=
  ((c.symbol, c.date, c.position), c.diffBps, c.verdict)

theorem compareBar_swap (policy : Policy) (sym : String) (p s : Option PriceSeries) (entry : Date × BarPosition) :
    (compareBar policy sym s p entry).2 = (compareBar policy sym p s entry).2 ∧
      (compareBar policy sym s p entry).1.shared = (compareBar policy sym p s entry).1.shared := by
  obtain ⟨date, position⟩ := entry
  simp only [compareBar]
  cases closeAt p date with
  | none =>
      cases closeAt s date with
      | none => exact ⟨rfl, rfl⟩
      | some b => exact ⟨rfl, rfl⟩
  | some a =>
      cases closeAt s date with
      | none => exact ⟨rfl, rfl⟩
      | some b =>
          simp only [diffBps_comm b a]
          split
          · exact ⟨rfl, rfl⟩
          split
          · exact ⟨rfl, rfl⟩
          · exact ⟨rfl, rfl⟩

theorem betweenBars_swap [ReferenceRules] (kind : SleeveKind) (policy : Policy) (asOf : Date) (sym : String)
    (p s : Option PriceSeries) (dates : List (Date × BarPosition)) :
    (betweenBars kind policy asOf sym s p dates).Perm (betweenBars kind policy asOf sym p s dates) := by
  unfold betweenBars
  rw [windowTo_comm asOf s p]
  split
  next =>
    refine .append ?_ List.perm_append_comm
    split
    · exact .refl _
    · exact List.perm_append_comm
  next => exact .refl _

theorem newestSession_comm (sym : String) (p s : Option PriceSeries) :
    newestSession sym p s = newestSession sym s p := by
  cases p with
  | none =>
      cases s with
      | none => rfl
      | some s => rfl
  | some p =>
      cases s with
      | none => rfl
      | some s => simp only [newestSession, ne_comm, max_comm]

/-- What the report says about an instrument, but for which close is whose. -/
def GateInstrument.shared (i : GateInstrument) :
    String × GateVerdict × Option ℚ × List ((String × Date × BarPosition) × Option ℚ × GateVerdict) :=
  (i.symbol, i.verdict, i.maxDiffBps, i.comparisons.map GateComparison.shared)

theorem compareInstrument_swap [ReferenceRules] (kind : SleeveKind) (window : Nat) (asOf : Date) (policy : Policy)
    (primary secondary : Panel) (dds : Option Date × Option Date) (sym : String) :
    (compareInstrument kind window asOf policy secondary primary dds.swap sym).1.shared =
        (compareInstrument kind window asOf policy primary secondary dds sym).1.shared ∧
      (compareInstrument kind window asOf policy secondary primary dds.swap sym).2.Perm
        (compareInstrument kind window asOf policy primary secondary dds sym).2 := by
  simp only [compareInstrument, Prod.fst_swap, Prod.snd_swap]
  rw [comparisonDates_comm kind window asOf (secondary.get sym)]
  generalize primary.get sym = p, secondary.get sym = s
  generalize comparisonDates kind window asOf p s dds.1 dds.2 = dates
  have reasons : (dates.map (compareBar policy sym s p)).flatMap Prod.snd =
      (dates.map (compareBar policy sym p s)).flatMap Prod.snd := by
    rw [List.flatMap_map, List.flatMap_map]
    exact List.flatMap_congr fun entry _ => (compareBar_swap policy sym p s entry).1
  have comparisons : ((dates.map (compareBar policy sym s p)).map Prod.fst).map GateComparison.shared =
      ((dates.map (compareBar policy sym p s)).map Prod.fst).map GateComparison.shared := by
    rw [List.map_map, List.map_map, List.map_map, List.map_map]
    exact List.map_congr_left fun entry _ => (compareBar_swap policy sym p s entry).2
  have mine : ((dates.map (compareBar policy sym s p)).flatMap Prod.snd ++ betweenBars kind policy asOf sym s p dates ++
      newestSession sym s p).Perm ((dates.map (compareBar policy sym p s)).flatMap Prod.snd ++
        betweenBars kind policy asOf sym p s dates ++ newestSession sym p s) := by
    rw [reasons, newestSession_comm sym s p]
    exact ((betweenBars_swap kind policy asOf sym p s dates).append_left _).append_right _
  refine ⟨?_, mine⟩
  have diffs : ∀ cs : List GateComparison,
      maxDiff cs = ((cs.map GateComparison.shared).filterMap fun c => c.2.1).max? := by
    intro cs
    rw [maxDiff, List.filterMap_map]
    rfl
  simp only [GateInstrument.shared, worst_perm mine, diffs, comparisons]

/-- The gate does not tell its sources apart: the verdicts, the largest differences, the
    comparison dates and the reasons are those of the swapped sources. -/
theorem compareWith_swap [ReferenceRules] (kind : SleeveKind) (symbols : List String) (window : Nat) (asOf : Date)
    (primary secondary : Panel) (policy : Policy) :
    let there := compareWith kind symbols window asOf primary secondary policy
    let back := compareWith kind symbols window asOf secondary primary policy
    back.verdict = there.verdict ∧
      back.instruments.map GateInstrument.shared = there.instruments.map GateInstrument.shared ∧
      back.reasons.Perm there.reasons ∧ back.primaryDecisionDate = there.secondaryDecisionDate ∧
      back.secondaryDecisionDate = there.primaryDecisionDate := by
  obtain ⟨swapped, undatable⟩ := decisionDates_swap kind symbols asOf primary secondary
  simp only [compareWith]
  rw [swapped]
  generalize (decisionDates kind symbols asOf primary secondary).1 = dds
  have reasons : (lateBars asOf secondary ++ lateBars asOf primary ++
      (decisionDates kind symbols asOf secondary primary).2 ++
        (symbols.map (compareInstrument kind window asOf policy secondary primary dds.swap)).flatMap Prod.snd).Perm
      (lateBars asOf primary ++ lateBars asOf secondary ++ (decisionDates kind symbols asOf primary secondary).2 ++
        (symbols.map (compareInstrument kind window asOf policy primary secondary dds)).flatMap Prod.snd) := by
    refine (List.perm_append_comm.append undatable).append ?_
    rw [List.flatMap_map, List.flatMap_map]
    exact List.Perm.flatMap_left _ fun sym _ =>
      (compareInstrument_swap kind window asOf policy primary secondary dds sym).2
  refine ⟨worst_perm reasons, ?_, reasons, rfl, rfl⟩
  rw [List.map_map, List.map_map, List.map_map, List.map_map]
  exact List.map_congr_left fun sym _ =>
    (compareInstrument_swap kind window asOf policy primary secondary dds sym).1

end MarketData
