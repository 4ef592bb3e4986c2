import SignalEngine.HostBuilder.FillLedger
import Mathlib.Algebra.Order.Field.Basic
import Mathlib.Tactic.Ring

/-! # Fees and financing

Both ride on new quantity: of the reports about an order only those that bring some are
recorded, and a figure that a venue sends later, for the same quantity, is dropped.
-/

namespace HostBuilder

structure Report where
  cumQty : ℚ
  cumAvgPrice : ℚ
  cumFee : Option ℚ
  cumFinancing : Option ℚ
  deriving DecidableEq

namespace Report

def notional (r : Report) : ℚ := r.cumQty * r.cumAvgPrice

def call (key : OrderKey) (r : Report) : LedgerCall ℚ :=
  .applyCumulative key r.cumQty r.cumAvgPrice r.cumFee r.cumFinancing

def valid (r : Report) : Bool :=
  0 ≤ r.cumQty && 0 ≤ r.cumAvgPrice && (r.cumQty ≤ 0 || 0 < r.cumAvgPrice) && r.cumFee.all fun f => 0 ≤ f

def fits (size : Option ℚ) (r : Report) : Bool :=
  size.all fun size => r.cumQty ≤ size * (1 + OVERFILL_REL_TOL) + QTY_EPS

/-- The report brings quantity, and value, beyond the last one that did. -/
def isNews (size : Option ℚ) (qty notional : ℚ) (r : Report) : Bool :=
  r.valid && r.fits size && qty < r.cumQty && !sameQty r.cumQty qty && notional < r.notional

/-- The reports that each bring more than the last one that did. -/
def news (size : Option ℚ) : (qty notional : ℚ) → List Report → List Report
  | _, _, [] => []
  | qty, notional, r :: rest =>
      if r.isNews size qty notional then r :: news size r.cumQty r.notional rest else news size qty notional rest

end Report

def largestFee (reports : List Report) : ℚ := (reports.filterMap Report.cumFee).max?.getD 0

def lastFinancing (reports : List Report) : ℚ := (reports.filterMap Report.cumFinancing).getLast?.getD 0

namespace FillLedger

def recordedFee (l : FillLedger ℚ) (key : OrderKey) : ℚ := ((l.recorded key).map fun (_, _, fee) => fee).getD 0

/-- What a ledger records of an order is all that its reports say of fees and financing. -/
structure RecordsInFull (l : FillLedger ℚ) (key : OrderKey) (reports : List Report) : Prop where
  fee : (l.run (reports.map (Report.call key))).recordedFee key = largestFee reports
  financing : (l.run (reports.map (Report.call key))).financingPnl key = lastFinancing reports
  fees : ((fillsOf key l (reports.map (Report.call key))).map FillDelta.fee).sum = largestFee reports
  financings : ((fillsOf key l (reports.map (Report.call key))).map FillDelta.financing).sum = lastFinancing reports

end FillLedger

/-! ## One report -/

def OrderState.take (st : OrderState ℚ) (r : Report) : OrderState ℚ :=
  { st with
    qty := r.cumQty
    notional := r.notional
    fee := (r.cumFee.map (max st.fee)).getD st.fee
    financing := r.cumFinancing.getD st.financing }

theorem OrderState.take_fee (st : OrderState ℚ) (r : Report) :
    st.fee + (r.cumFee.map fun f => max (f - st.fee) 0).getD 0 = (st.take r).fee := by
  unfold OrderState.take
  cases r.cumFee with
  | none => exact add_zero _
  | some f =>
      change st.fee + max (f - st.fee) 0 = max st.fee f
      rw [← max_add_add_left, add_sub_cancel, add_zero, max_comm]

theorem OrderState.take_financing (st : OrderState ℚ) (r : Report) :
    st.financing + (r.cumFinancing.map fun f => f - st.financing).getD 0 = (st.take r).financing := by
  unfold OrderState.take
  cases r.cumFinancing with
  | none => exact add_zero _
  | some f => exact add_sub_cancel st.financing f

theorem sameQty_self (q : ℚ) : sameQty q q = true := by
  unfold sameQty
  rw [sub_self, FloatLike.abs_rat, abs_zero, decide_eq_true_eq]
  exact le_max_of_le_left (by norm_num [QTY_EPS])

/-- A usable report is recorded exactly when it is news. -/
theorem advance_report (st : OrderState ℚ) {r : Report} (valid : r.valid = true) :
    (r.isNews st.expectedQty st.qty st.notional = true →
      ∃ delta, advance st r.cumQty r.notional r.cumFee r.cumFinancing = (.fill delta, st.take r) ∧
        delta.fee = (st.take r).fee - st.fee ∧ delta.financing = (st.take r).financing - st.financing) ∧
    (r.isNews st.expectedQty st.qty st.notional = false →
      ∃ applied, advance st r.cumQty r.notional r.cumFee r.cumFinancing = (applied, st) ∧ applied.delta? = none) := by
  have oversized : (st.expectedQty.any fun size => size * (1 + OVERFILL_REL_TOL) + QTY_EPS < r.cumQty) =
      !r.fits st.expectedQty := by
    unfold Report.fits
    cases st.expectedQty <;> simp [← not_lt]
  rw [advance_exact]
  unfold Report.isNews
  rw [oversized, valid]
  cases r.fits st.expectedQty with
  | false => exact ⟨fun news => (by simp at news), fun _ => ⟨_, rfl, rfl⟩⟩
  | true =>
      cases same : sameQty r.cumQty st.qty with
      | true => exact ⟨fun news => (by simp at news), fun _ => ⟨_, rfl, rfl⟩⟩
      | false =>
          by_cases smaller : r.cumQty < st.qty
          · refine ⟨fun news => ?_, fun _ => ⟨.stale, by simp [smaller], rfl⟩⟩
            simp [not_lt.2 smaller.le] at news
          · have different : r.cumQty ≠ st.qty := fun equal => by simp [equal, sameQty_self] at same
            have larger : st.qty < r.cumQty := lt_of_le_of_ne (not_lt.1 smaller) (Ne.symm different)
            have price : (r.notional - st.notional) / (r.cumQty - st.qty) ≤ 0 ↔ ¬ st.notional < r.notional := by
              rw [← not_lt, div_pos_iff_of_pos_right (sub_pos.2 larger), sub_pos]
            by_cases worth : st.notional < r.notional
            · refine ⟨fun _ => ?_, fun news => (by simp [larger, worth] at news)⟩
              simp only [Bool.not_true, Bool.false_eq_true, if_false, smaller, price, worth, not_true_eq_false]
              refine ⟨_, congrArg (Prod.mk _) ?_, ?_, ?_⟩
              · rw [st.take_fee r, st.take_financing r]
                rfl
              · rw [← st.take_fee r, add_sub_cancel_left]
              · rw [← st.take_financing r, add_sub_cancel_left]
            · refine ⟨fun news => (by simp [worth] at news), fun _ => ⟨.rejected .inconsistentPrice, ?_, rfl⟩⟩
              simp [smaller, price, worth]

namespace FillLedger

variable {l : FillLedger ℚ} {key : OrderKey}

theorem valid_iff (r : Report) :
    r.valid = true ↔ validCumulative r.cumQty r.cumAvgPrice r.cumFee r.cumFinancing = true := by
  have fees : (r.cumFee.all fun f => 0 ≤ f) = true ↔ ∀ f, r.cumFee = some f → 0 ≤ f := by
    rw [Option.all_eq_true]
    simp only [decide_eq_true_eq]
  rw [validCumulative_exact, ← fees]
  simp [Report.valid, imp_iff_not_or, and_assoc]

theorem step_call (l : FillLedger ℚ) (key : OrderKey) (r : Report) :
    l.step (r.call key) =
      if r.valid then
        let (applied, st) := advance (l.entry key) r.cumQty r.notional r.cumFee r.cumFinancing
        (applied.delta?, l.put key st)
      else (none, l) := by
  simp only [Report.call, step, applyCumulative]
  by_cases valid : r.valid = true
  · rw [if_pos valid, (valid_iff r).1 valid]
    rfl
  · rw [if_neg valid]
    rw [valid_iff, Bool.not_eq_true] at valid
    rw [valid]
    rfl

theorem step_report (l : FillLedger ℚ) (key : OrderKey) (r : Report) :
    let st := l.entry key
    let st' := (l.step (r.call key)).2.entry key
    st' = (if r.isNews st.expectedQty st.qty st.notional then st.take r else st) ∧
      ((l.step (r.call key)).1.toList.map FillDelta.fee).sum = st'.fee - st.fee ∧
      ((l.step (r.call key)).1.toList.map FillDelta.financing).sum = st'.financing - st.financing := by
  intro st st'
  cases valid : r.valid with
  | false =>
      have unusable : l.step (r.call key) = (none, l) := by
        rw [step_call, valid]
        rfl
      have same : st' = st := congrArg (fun result => entry result.2 key) unusable
      rw [unusable, same]
      simp [Report.isNews, valid]
  | true =>
      have usable : l.step (r.call key) =
          ((advance st r.cumQty r.notional r.cumFee r.cumFinancing).1.delta?,
            l.put key (advance st r.cumQty r.notional r.cumFee r.cumFinancing).2) := by
        rw [step_call, valid]
        rfl
      have left : st' = (advance st r.cumQty r.notional r.cumFee r.cumFinancing).2 := by
        change (l.step (r.call key)).2.entry key = _
        rw [usable, entry_put, if_pos rfl]
      obtain ⟨recorded, dropped⟩ := advance_report st valid
      rw [usable]
      cases news : r.isNews st.expectedQty st.qty st.notional with
      | true =>
          obtain ⟨delta, advanced, fee, financing⟩ := recorded news
          rw [advanced] at left
          rw [left, advanced]
          simp [Applied.delta?, fee, financing]
      | false =>
          obtain ⟨applied, advanced, none⟩ := dropped news
          rw [advanced] at left
          rw [left, advanced]
          simp [none]

/-! ## Runs of reports -/

/-- What some reports leave of their order, and what they give. -/
structure Carried (l : FillLedger ℚ) (key : OrderKey) (reports : List Report) : Prop where
  fee : ((l.run (reports.map (Report.call key))).entry key).fee =
    ((Report.news (l.entry key).expectedQty (l.entry key).qty (l.entry key).notional reports).filterMap
      Report.cumFee).foldl max (l.entry key).fee
  financing : ((l.run (reports.map (Report.call key))).entry key).financing =
    ((Report.news (l.entry key).expectedQty (l.entry key).qty (l.entry key).notional reports).filterMap
      Report.cumFinancing).getLast?.getD (l.entry key).financing
  fees : ((fillsOf key l (reports.map (Report.call key))).map FillDelta.fee).sum =
    ((l.run (reports.map (Report.call key))).entry key).fee - (l.entry key).fee
  financings : ((fillsOf key l (reports.map (Report.call key))).map FillDelta.financing).sum =
    ((l.run (reports.map (Report.call key))).entry key).financing - (l.entry key).financing

theorem run_carried {reports : List Report} : ∀ {l : FillLedger ℚ}, Carried l key reports := by
  induction reports with
  | nil =>
      intro l
      exact ⟨rfl, rfl, (sub_self _).symm, (sub_self _).symm⟩
  | cons r rest ih =>
      intro l
      obtain ⟨left, fee, financing⟩ := step_report l key r
      have later := @ih (l.step (r.call key)).2
      have run : l.run ((r :: rest).map (Report.call key)) =
          (l.step (r.call key)).2.run (rest.map (Report.call key)) := rfl
      have fills : fillsOf key l ((r :: rest).map (Report.call key)) =
          (l.step (r.call key)).1.toList ++ fillsOf key (l.step (r.call key)).2 (rest.map (Report.call key)) := by
        rw [List.map_cons, fillsOf]
        exact congrArg (· ++ _) (if_pos rfl)
      constructor
      case fees =>
        rw [fills, run, List.map_append, List.sum_append, fee, later.fees]
        ring
      case financings =>
        rw [fills, run, List.map_append, List.sum_append, financing, later.financings]
        ring
      case fee =>
        rw [run, later.fee, left, Report.news]
        split
        next => cases given : r.cumFee <;> simp [given, OrderState.take]
        next => rfl
      case financing =>
        rw [run, later.financing, left, Report.news]
        split
        next => cases given : r.cumFinancing <;> simp [given, OrderState.take, List.getLast?_cons]
        next => rfl

end FillLedger

theorem news_fees {size : Option ℚ} {reports : List Report} : ∀ {qty notional : ℚ},
    ∀ fee ∈ (Report.news size qty notional reports).filterMap Report.cumFee, 0 ≤ fee := by
  induction reports with
  | nil => exact fun fee member => nomatch member
  | cons r rest ih =>
      intro qty notional fee member
      rw [Report.news] at member
      split at member
      next news =>
        rw [List.mem_filterMap] at member
        obtain ⟨r', isNews, given⟩ := member
        rcases List.mem_cons.1 isNews with rfl | later
        · simp only [Report.isNews, Report.valid, given, Bool.and_eq_true] at news
          exact of_decide_eq_true news.1.1.1.1.2
        · exact ih fee (List.mem_filterMap.2 ⟨r', later, given⟩)
      next => exact ih fee member

theorem foldl_max_zero {fees : List ℚ} (charged : ∀ fee ∈ fees, 0 ≤ fee) : fees.foldl max 0 = fees.max?.getD 0 := by
  cases fees with
  | nil => rfl
  | cons fee rest =>
      rw [List.foldl_cons, max_eq_right (charged fee (by simp)), List.max?_cons']
      rfl

namespace FillLedger

variable {l : FillLedger ℚ} {key : OrderKey}

/-- Fees and financing of an order are recorded in full exactly when the largest fee and the
    last financing are among the reports that bring quantity. -/
theorem recordsInFull_iff (reports : List Report)
    (fresh : (l.entry key).qty = 0 ∧ (l.entry key).notional = 0 ∧ (l.entry key).fee = 0 ∧ (l.entry key).financing = 0) :
    RecordsInFull l key reports ↔
      largestFee (Report.news (l.entry key).expectedQty 0 0 reports) = largestFee reports ∧
        lastFinancing (Report.news (l.entry key).expectedQty 0 0 reports) = lastFinancing reports := by
  obtain ⟨qty, notional, noFee, noFinancing⟩ := fresh
  obtain ⟨fee, financing, fees, financings⟩ := @run_carried key reports l
  rw [qty, notional, noFee, foldl_max_zero news_fees] at fee
  rw [qty, notional, noFinancing] at financing
  rw [fee, noFee, sub_zero] at fees
  rw [financing, noFinancing, sub_zero] at financings
  have recordedFee : ∀ l : FillLedger ℚ, l.recordedFee key = (l.entry key).fee := by
    intro l
    unfold FillLedger.recordedFee recorded entry
    cases l.orders.get key <;> rfl
  have recordedFinancing : ∀ l : FillLedger ℚ, l.financingPnl key = (l.entry key).financing := by
    intro l
    unfold financingPnl entry
    cases l.orders.get key <;> rfl
  constructor
  · rintro ⟨allFees, allFinancing, -, -⟩
    rw [recordedFee, fee] at allFees
    rw [recordedFinancing, financing] at allFinancing
    exact ⟨allFees, allFinancing⟩
  · rintro ⟨allFees, allFinancing⟩
    constructor
    case fee => rw [recordedFee, fee, ← allFees]; rfl
    case financing => rw [recordedFinancing, financing, ← allFinancing]; rfl
    case fees => rw [fees, ← allFees]; rfl
    case financings => rw [financings, ← allFinancing]; rfl

namespace LateFees

def order : OrderKey := ⟨1, "alpaca", "ord-1"⟩

def prompt : List Report := [⟨4, 100, some (1 / 2), none⟩, ⟨4, 100, some (1 / 2), none⟩, ⟨10, 101, some 1, some (-2)⟩]

theorem prompt_recorded : RecordsInFull .new order prompt :=
  (recordsInFull_iff prompt (by decide +kernel)).2 (by decide +kernel)

def late : List Report := [⟨10, 100, none, none⟩, ⟨10, 100, some 1, none⟩, ⟨10, 100, some 1, some (-2)⟩]

/-- Quantities and fees do not fall, and neither the fee nor the financing is recorded. -/
theorem late_lost :
    (late.map Report.cumQty).Pairwise (· ≤ ·) ∧ (late.filterMap Report.cumFee).Pairwise (· ≤ ·) ∧
      FillLedger.recordedFee (FillLedger.new.run (late.map (Report.call order))) order = 0 ∧ largestFee late = 1 ∧
      FillLedger.financingPnl (FillLedger.new.run (late.map (Report.call order))) order = 0 ∧
        lastFinancing late = -2 ∧ ¬ RecordsInFull .new order late := by
  refine ⟨by decide +kernel, by decide +kernel, by decide +kernel, by decide +kernel, by decide +kernel,
    by decide +kernel, fun recorded => ?_⟩
  exact absurd recorded.fee (by decide +kernel)

end LateFees

end FillLedger

end HostBuilder
