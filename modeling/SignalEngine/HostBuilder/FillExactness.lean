import SignalEngine.HostBuilder.FillLedger
import Mathlib.Algebra.Order.BigOperators.Group.List
import Mathlib.Algebra.Order.Ring.Abs
import Mathlib.Tactic.Ring

/-! # Fills are exact

What is recorded of an order is always what some of its trades come to, so the
new fills add up to the whole once a report of the whole, or every trade, arrived.
-/

namespace HostBuilder

structure Trade where
  id : String
  qty : ℚ
  price : ℚ
  deriving DecidableEq

def qtyOf (trades : List Trade) : ℚ := (trades.map Trade.qty).sum

def notionalOf (trades : List Trade) : ℚ := (trades.map fun t => t.qty * t.price).sum

/-- How far apart two quantities up to `total` may be and still count as the same. -/
def tolerance (total : ℚ) : ℚ := max QTY_EPS (QTY_REL_EPS * total)

structure History where
  trades : List Trade
  step : ℚ
  distinct : (trades.map Trade.id).Nodup
  priced : ∀ t ∈ trades, 0 < t.price
  /-- Quantities are positive multiples of the step. -/
  sized : ∀ t ∈ trades, ∃ k : ℕ, 0 < k ∧ t.qty = k * step
  /-- Different quantities are told apart. -/
  coarse : tolerance (qtyOf trades) < step

/-! ## Parts of a history -/

namespace History

variable (h : History)

theorem step_pos : 0 < h.step := by
  refine lt_of_lt_of_le ?_ (le_of_lt h.coarse)
  exact lt_max_of_lt_left (by norm_num [QTY_EPS])

theorem qty_pos {t : Trade} (member : t ∈ h.trades) : 0 < t.qty := by
  obtain ⟨k, positive, sized⟩ := h.sized t member
  rw [sized]
  exact mul_pos (by exact_mod_cast positive) h.step_pos

theorem notional_pos {t : Trade} (member : t ∈ h.trades) : 0 < t.qty * t.price :=
  mul_pos (h.qty_pos member) (h.priced t member)

end History

theorem sum_sublist_lt {α : Type} {f : α → ℚ} {part whole : List α} (sub : part.Sublist whole)
    (positive : ∀ a ∈ whole, 0 < f a) :
    (part.map f).sum ≤ (whole.map f).sum ∧ (part ≠ whole → (part.map f).sum < (whole.map f).sum) := by
  induction sub with
  | slnil => simp
  | @cons part whole a sub ih =>
      obtain ⟨le, -⟩ := ih fun b member => positive b (by simp [member])
      have here := positive a (by simp)
      simp only [List.map_cons, List.sum_cons]
      exact ⟨by linarith, fun _ => by linarith⟩
  | @cons_cons part whole a sub ih =>
      obtain ⟨le, lt⟩ := ih fun b member => positive b (by simp [member])
      simp only [List.map_cons, List.sum_cons]
      refine ⟨by linarith, fun different => ?_⟩
      have rest := lt fun same => different (by rw [same])
      linarith

namespace History

variable {h : History} {part : List Trade}

theorem qtyOf_le (sub : part.Sublist h.trades) : qtyOf part ≤ qtyOf h.trades :=
  (sum_sublist_lt sub fun _ => h.qty_pos).1

theorem whole_of_qty (sub : part.Sublist h.trades) (all : qtyOf part = qtyOf h.trades) : part = h.trades := by
  by_contra different
  exact absurd all ((sum_sublist_lt sub fun _ => h.qty_pos).2 different).ne

theorem notionalOf_lt (sub : part.Sublist h.trades) (different : part ≠ h.trades) :
    notionalOf part < notionalOf h.trades :=
  (sum_sublist_lt (f := fun t : Trade => t.qty * t.price) sub fun _ => h.notional_pos).2 different

theorem multiple (sub : part.Sublist h.trades) : ∃ k : ℕ, qtyOf part = k * h.step := by
  have sized : ∀ t ∈ part, ∃ k : ℕ, 0 < k ∧ t.qty = k * h.step := fun t member => h.sized t (sub.subset member)
  clear sub
  induction part with
  | nil => exact ⟨0, by simp [qtyOf]⟩
  | cons t part ih =>
      obtain ⟨k, -, here⟩ := sized t (by simp)
      obtain ⟨m, rest⟩ := ih fun t' member => sized t' (by simp [member])
      refine ⟨k + m, ?_⟩
      have split : qtyOf (t :: part) = t.qty + qtyOf part := by simp [qtyOf]
      rw [split, here, rest]
      push_cast
      ring

theorem qtyOf_nonneg (sub : part.Sublist h.trades) : 0 ≤ qtyOf part := by
  obtain ⟨k, multiple⟩ := h.multiple sub
  rw [multiple]
  exact mul_nonneg (Nat.cast_nonneg k) h.step_pos.le

theorem sameQty_iff {part' : List Trade} (sub : part.Sublist h.trades) (sub' : part'.Sublist h.trades) :
    sameQty (qtyOf part) (qtyOf part') = true ↔ qtyOf part = qtyOf part' := by
  constructor
  · intro same
    simp only [sameQty, decide_eq_true_eq] at same
    -- the difference is a multiple of the step, and smaller than it
    have small : |qtyOf part - qtyOf part'| < h.step := by
      refine lt_of_le_of_lt same (lt_of_le_of_lt ?_ h.coarse)
      refine max_le_max (le_refl _) ?_
      have larger : max |qtyOf part| |qtyOf part'| ≤ qtyOf h.trades := by
        rw [abs_of_nonneg (h.qtyOf_nonneg sub), abs_of_nonneg (h.qtyOf_nonneg sub')]
        exact max_le (h.qtyOf_le sub) (h.qtyOf_le sub')
      exact mul_le_mul_of_nonneg_left larger (by norm_num [QTY_REL_EPS])
    obtain ⟨k, left⟩ := h.multiple sub
    obtain ⟨m, right⟩ := h.multiple sub'
    rw [left, right, ← sub_mul, abs_mul, abs_of_pos h.step_pos] at small
    have close : |(k : ℚ) - m| < 1 := by
      by_contra far
      rw [not_lt] at far
      have := mul_le_mul_of_nonneg_right far h.step_pos.le
      linarith
    have equal : |(k : ℤ) - m| < 1 := by exact_mod_cast close
    rw [Int.abs_lt_one_iff, sub_eq_zero] at equal
    have nat : k = m := by exact_mod_cast equal
    rw [left, right, nat]
  · intro equal
    simp [sameQty, equal, QTY_EPS]

end History

/-! ## What is recorded -/

/-- The recorded amounts are those of a part of the trades, and the single trades
    seen so far add up. -/
structure Reflects (h : History) (st : OrderState ℚ) : Prop where
  part : ∃ part, part.Sublist h.trades ∧ st.qty = qtyOf part ∧ st.notional = notionalOf part
  streamQty : st.streamQty = qtyOf (h.trades.filter (·.id ∈ st.seenTrades))
  streamNotional : st.streamNotional = notionalOf (h.trades.filter (·.id ∈ st.seenTrades))
  /-- Once every trade was seen, all is recorded. -/
  whole : (∀ t ∈ h.trades, t.id ∈ st.seenTrades) → st.qty = qtyOf h.trades
  expected : ∀ size, st.expectedQty = some size → qtyOf h.trades ≤ size

structure Adds (delta : Option (FillDelta ℚ)) (st st' : OrderState ℚ) : Prop where
  qty : st'.qty = st.qty + (delta.map FillDelta.qty).getD 0
  notional : st'.notional = st.notional + (delta.map fun d => d.qty * d.price).getD 0
  positive : ∀ d, delta = some d → 0 < d.qty ∧ 0 < d.price

theorem Adds.nothing {st st' : OrderState ℚ} (qty : st'.qty = st.qty) (notional : st'.notional = st.notional) :
    Adds none st st' := ⟨by simp [qty], by simp [notional], by simp⟩

/-- What a report does: nothing new, or the whole difference. -/
theorem advance_cases {st st' : OrderState ℚ} {q n : ℚ} {cumFee cumFinancing : Option ℚ} {applied : Applied ℚ}
    (advanced : advance st q n cumFee cumFinancing = (applied, st')) :
    (applied.delta? = none ∧ st' = st ∧
      ((∃ size, st.expectedQty = some size ∧ size * (1 + OVERFILL_REL_TOL) + QTY_EPS < q) ∨
        sameQty q st.qty = true ∨ q < st.qty ∨ st.qty < q ∧ (n - st.notional) / (q - st.qty) ≤ 0)) ∨
    (∃ fee financing, applied = .fill ⟨q - st.qty, (n - st.notional) / (q - st.qty), fee, financing⟩ ∧
      st.qty < q ∧ 0 < (n - st.notional) / (q - st.qty) ∧
      st' = { st with qty := q, notional := n, fee := st.fee + fee, financing := st.financing + financing }) := by
  have apart (different : ¬ sameQty q st.qty = true) : q ≠ st.qty := by
    rintro rfl
    exact different (by simp [sameQty, QTY_EPS])
  rw [advance_exact] at advanced
  split at advanced
  next overfull =>
    cases advanced
    simp only [Option.any_eq_true, decide_eq_true_eq] at overfull
    exact .inl ⟨rfl, rfl, .inl overfull⟩
  split at advanced
  next same =>
    cases advanced
    exact .inl ⟨rfl, rfl, .inr (.inl same)⟩
  next different =>
    split at advanced
    next less =>
      cases advanced
      exact .inl ⟨rfl, rfl, .inr (.inr (.inl less))⟩
    next more =>
      have grown : st.qty < q := lt_of_le_of_ne (not_lt.1 more) (Ne.symm (apart different))
      split at advanced
      next poor =>
        cases advanced
        exact .inl ⟨rfl, rfl, .inr (.inr (.inr ⟨grown, poor⟩))⟩
      next fair =>
        cases advanced
        exact .inr ⟨_, _, rfl, grown, not_le.1 fair, rfl⟩

theorem advance_reflects {h : History} {st st' : OrderState ℚ} {part : List Trade} {cumFee cumFinancing : Option ℚ}
    {applied : Applied ℚ}
    (recorded : ∃ before, before.Sublist h.trades ∧ st.qty = qtyOf before ∧ st.notional = notionalOf before)
    (expected : ∀ size, st.expectedQty = some size → qtyOf h.trades ≤ size) (sub : part.Sublist h.trades)
    (advanced : advance st (qtyOf part) (notionalOf part) cumFee cumFinancing = (applied, st')) :
    (∃ after, after.Sublist h.trades ∧ st'.qty = qtyOf after ∧ st'.notional = notionalOf after) ∧
      Adds applied.delta? st st' ∧ (part = h.trades → st'.qty = qtyOf h.trades) ∧
      st.qty ≤ st'.qty ∧ st'.expectedQty = st.expectedQty ∧ st'.seenTrades = st.seenTrades ∧
      st'.streamQty = st.streamQty ∧ st'.streamNotional = st.streamNotional := by
  obtain ⟨before, within, qty, notional⟩ := recorded
  rcases advance_cases advanced with ⟨none, rfl, why⟩ | ⟨fee, financing, rfl, grown, fair, rfl⟩
  · rw [none]
    refine ⟨⟨before, within, qty, notional⟩, .nothing rfl rfl, ?_, le_refl _, rfl, rfl, rfl, rfl⟩
    rintro rfl
    -- a report of the whole is only passed over when the whole is recorded
    rcases why with ⟨size, registered, overfull⟩ | same | less | ⟨more, poor⟩
    · have fits := expected size registered
      have nonneg : 0 ≤ size := (h.qtyOf_nonneg (List.Sublist.refl _)).trans fits
      simp only [OVERFILL_REL_TOL, QTY_EPS] at overfull
      linarith
    · rw [qty] at same ⊢
      exact ((h.sameQty_iff (List.Sublist.refl _) within).1 same).symm
    · rw [qty] at less
      exact absurd (h.qtyOf_le within) (not_le.2 less)
    · rw [qty] at more
      have notWhole : before ≠ h.trades := by
        rintro rfl
        exact lt_irrefl _ more
      have dearer := h.notionalOf_lt within notWhole
      rw [notional, qty] at poor
      exact absurd (div_pos (sub_pos.2 dearer) (sub_pos.2 more)) (not_lt.2 poor)
  · have positive : 0 < qtyOf part - st.qty := sub_pos.2 grown
    refine ⟨⟨part, sub, rfl, rfl⟩, ⟨?_, ?_, ?_⟩, ?_, grown.le, rfl, rfl, rfl, rfl⟩
    · simp [Applied.delta?]
    · simp only [Applied.delta?, Option.map_some, Option.getD_some]
      rw [mul_div_cancel₀ _ positive.ne']
      ring
    · rintro d ⟨⟩
      exact ⟨positive, fair⟩
    · rintro rfl
      rfl

/-! ## Deliveries -/

/-- The calls for one order: reports of its first trades, its trades, and sizes it stays within. -/
inductive Delivers (h : History) (key : OrderKey) : LedgerCall ℚ → Prop where
  | report (n : ℕ) (avgPrice : ℚ) (fee financing : Option ℚ)
      (average : qtyOf (h.trades.take n) * avgPrice = notionalOf (h.trades.take n)) :
      Delivers h key (.applyCumulative key (qtyOf (h.trades.take n)) avgPrice fee financing)
  | trade {t : Trade} (member : t ∈ h.trades) (fee financing : ℚ) :
      Delivers h key (.applyTrade key t.id t.qty t.price fee financing)
  | register {size : ℚ} (fits : qtyOf h.trades ≤ size) : Delivers h key (.registerOrder key size)

def LedgerCall.Charged : LedgerCall ℚ → Prop
  | .applyCumulative _ _ _ cumFee _ => ∀ fee, cumFee = some fee → 0 ≤ fee
  | .applyTrade _ _ _ _ fee _ => 0 ≤ fee
  | .registerOrder _ _ | .seed _ _ _ _ _ => True

def LedgerCall.Whole (h : History) : LedgerCall ℚ → Prop
  | .applyCumulative _ cumQty _ _ _ => cumQty = qtyOf h.trades
  | _ => False

def LedgerCall.Reports (t : Trade) : LedgerCall ℚ → Prop
  | .applyTrade _ tradeId _ _ _ _ => tradeId = t.id
  | _ => False

/-- What a delivery leaves of the state of its order. -/
structure Delivered (h : History) (call : LedgerCall ℚ) (delta : Option (FillDelta ℚ)) (st st' : OrderState ℚ) : Prop where
  reflects : Reflects h st'
  adds : Adds delta st st'
  kept : st.seenTrades ⊆ st'.seenTrades
  whole : call.Whole h → st'.qty = qtyOf h.trades
  seen : ∀ t, call.Reports t → t.id ∈ st'.seenTrades

section Deliveries

variable {h : History} {key : OrderKey} {l : FillLedger ℚ}

theorem Reflects.qty_bounds {st : OrderState ℚ} (reflects : Reflects h st) : 0 ≤ st.qty ∧ st.qty ≤ qtyOf h.trades := by
  obtain ⟨part, sub, qty, -⟩ := reflects.part
  rw [qty]
  exact ⟨h.qtyOf_nonneg sub, h.qtyOf_le sub⟩

theorem report_delivered (reflects : Reflects h (l.entry key)) (n : ℕ) {avgPrice : ℚ} {fee financing : Option ℚ}
    (average : qtyOf (h.trades.take n) * avgPrice = notionalOf (h.trades.take n))
    (charged : ∀ f, fee = some f → 0 ≤ f) :
    Delivered h (.applyCumulative key (qtyOf (h.trades.take n)) avgPrice fee financing)
      (l.step (.applyCumulative key (qtyOf (h.trades.take n)) avgPrice fee financing)).1 (l.entry key)
      ((l.step (.applyCumulative key (qtyOf (h.trades.take n)) avgPrice fee financing)).2.entry key) := by
  have sub := List.take_sublist n h.trades
  have nonneg := h.qtyOf_nonneg sub
  have priced : 0 < qtyOf (h.trades.take n) → 0 < avgPrice := by
    intro traded
    have nonempty : [] ≠ h.trades.take n := by
      intro nil
      rw [← nil] at traded
      exact lt_irrefl _ traded
    have worth : 0 < notionalOf (h.trades.take n) :=
      (sum_sublist_lt (f := fun t : Trade => t.qty * t.price) (List.nil_sublist _)
        fun t member => h.notional_pos (sub.subset member)).2 nonempty
    rw [← average] at worth
    exact (mul_pos_iff_of_pos_left traded).1 worth
  simp only [FillLedger.step, FillLedger.applyCumulative]
  split
  next invalid =>
    -- only a report of nothing can carry such a price
    refine ⟨reflects, .nothing rfl rfl, Finset.Subset.refl _, fun whole => ?_, (fun _ reports => reports.elim)⟩
    rw [Bool.not_eq_true', ← Bool.not_eq_true, validCumulative_exact] at invalid
    have nothing : qtyOf (h.trades.take n) = 0 := by
      by_contra some
      have traded := lt_of_le_of_ne nonneg (Ne.symm some)
      exact invalid ⟨nonneg, (priced traded).le, priced, charged⟩
    obtain ⟨low, high⟩ := reflects.qty_bounds
    rw [← whole, nothing] at high ⊢
    exact le_antisymm high low
  next =>
    rw [average]
    obtain ⟨applied, st', advanced⟩ : ∃ applied st',
        advance (l.entry key) (qtyOf (h.trades.take n)) (notionalOf (h.trades.take n)) fee financing = (applied, st') :=
      ⟨_, _, rfl⟩
    obtain ⟨part, adds, whole, grown, expected, seen, streamQty, streamNotional⟩ :=
      advance_reflects reflects.part reflects.expected sub advanced
    simp only [advanced, FillLedger.entry_put, if_true]
    refine ⟨⟨part, ?_, ?_, ?_, ?_⟩, adds, ?_, ?_, (fun _ reports => reports.elim)⟩
    · rw [streamQty, seen]
      exact reflects.streamQty
    · rw [streamNotional, seen]
      exact reflects.streamNotional
    · rw [seen]
      intro all
      obtain ⟨after, within, qty, -⟩ := part
      refine le_antisymm ?_ ((reflects.whole all).symm.le.trans grown)
      rw [qty]
      exact h.qtyOf_le within
    · rw [expected]
      exact reflects.expected
    · rw [seen]
    · exact fun all => whole (h.whole_of_qty sub all)

theorem sum_filter_insert {f : Trade → ℚ} {trades : List Trade} {t : Trade} {seen : Finset String}
    (distinct : (trades.map Trade.id).Nodup) (member : t ∈ trades) (new : t.id ∉ seen) :
    ((trades.filter (·.id ∈ insert t.id seen)).map f).sum = ((trades.filter (·.id ∈ seen)).map f).sum + f t := by
  induction trades with
  | nil => simp at member
  | cons head trades ih =>
      rw [List.map_cons, List.nodup_cons] at distinct
      rcases List.mem_cons.1 member with rfl | later
      · have others : trades.filter (·.id ∈ insert t.id seen) = trades.filter (·.id ∈ seen) := by
          refine List.filter_congr fun t' among => ?_
          have other : t'.id ≠ t.id := by
            intro same
            exact distinct.1 (same ▸ List.mem_map_of_mem among)
          simp [other]
        rw [List.filter_cons_of_pos (by simp), List.filter_cons_of_neg (by simpa using new), others, List.map_cons,
          List.sum_cons, add_comm]
      · have other : head.id ≠ t.id := by
          intro same
          exact distinct.1 (same ▸ List.mem_map_of_mem later)
        have rest := ih distinct.2 later
        by_cases known : head.id ∈ seen
        · simp [known, other] at rest ⊢
          rw [rest, add_assoc]
        · simpa [known, other] using rest

theorem trade_delivered (reflects : Reflects h (l.entry key)) {t : Trade} (member : t ∈ h.trades)
    (named : t.id ≠ "") {fee financing : ℚ} (charged : 0 ≤ fee) :
    Delivered h (.applyTrade key t.id t.qty t.price fee financing)
      (l.step (.applyTrade key t.id t.qty t.price fee financing)).1 (l.entry key)
      ((l.step (.applyTrade key t.id t.qty t.price fee financing)).2.entry key) := by
  have accepted : FillLedger.validTrade t.id t.qty t.price fee financing = true :=
    validTrade_exact.2 ⟨named, h.qty_pos member, h.priced t member, charged⟩
  simp only [FillLedger.step, FillLedger.applyTrade, accepted, Bool.not_true, Bool.false_eq_true, if_false]
  by_cases again : t.id ∈ (l.entry key).seenTrades
  · simp only [again, if_true, FillLedger.entry_put]
    refine ⟨reflects, .nothing rfl rfl, Finset.Subset.refl _, (fun whole => whole.elim), fun t' reports => ?_⟩
    rw [← reports]
    exact again
  · simp only [again, if_false]
    generalize l.entry key = st at reflects again ⊢
    generalize noted : st.noteTrade t.id t.qty t.price fee financing = st₁
    have seenNow : st₁.seenTrades = insert t.id st.seenTrades := by
      rw [← noted]
      rfl
    have qtyNow : st₁.streamQty = qtyOf (h.trades.filter (·.id ∈ st₁.seenTrades)) := by
      rw [seenNow, qtyOf, sum_filter_insert h.distinct member again, ← qtyOf, ← reflects.streamQty, ← noted]
      rfl
    have notionalNow : st₁.streamNotional = notionalOf (h.trades.filter (·.id ∈ st₁.seenTrades)) := by
      rw [seenNow, notionalOf, sum_filter_insert h.distinct member again, ← notionalOf, ← reflects.streamNotional,
        ← noted]
      rfl
    have before : ∃ part, part.Sublist h.trades ∧ st₁.qty = qtyOf part ∧ st₁.notional = notionalOf part := by
      rw [← noted]
      exact reflects.part
    have size : ∀ size, st₁.expectedQty = some size → qtyOf h.trades ≤ size := by
      rw [← noted]
      exact reflects.expected
    obtain ⟨applied, st', advanced⟩ : ∃ applied st', advance st₁ st₁.streamQty st₁.streamNotional (some st₁.streamFee)
        (some st₁.streamFinancing) = (applied, st') := ⟨_, _, rfl⟩
    simp only [advanced, FillLedger.entry_put, if_true]
    rw [qtyNow, notionalNow] at advanced
    obtain ⟨part, adds, whole, -, expected, seen, streamQty, streamNotional⟩ :=
      advance_reflects before size List.filter_sublist advanced
    refine ⟨⟨part, ?_, ?_, ?_, ?_⟩, ?_, ?_, (fun whole => whole.elim), fun t' reports => ?_⟩
    · rw [streamQty, seen]
      exact qtyNow
    · rw [streamNotional, seen]
      exact notionalNow
    · rw [seen]
      intro all
      exact whole (List.filter_eq_self.2 fun t' among => decide_eq_true (all t' among))
    · rw [expected]
      exact size
    · rw [← noted] at adds
      exact ⟨adds.qty, adds.notional, adds.positive⟩
    · rw [seen, seenNow]
      exact Finset.subset_insert _ _
    · rw [seen, seenNow, ← reports]
      exact Finset.mem_insert_self _ _

theorem register_delivered (reflects : Reflects h (l.entry key)) {size : ℚ} (fits : qtyOf h.trades ≤ size) :
    Delivered h (.registerOrder key size) (l.step (.registerOrder key size)).1 (l.entry key)
      ((l.step (.registerOrder key size)).2.entry key) := by
  simp only [FillLedger.step, FillLedger.registerOrder]
  split
  · simp only [FillLedger.entry_put, if_true]
    refine ⟨⟨reflects.part, reflects.streamQty, reflects.streamNotional, reflects.whole, ?_⟩, .nothing rfl rfl,
      Finset.Subset.refl _, (fun whole => whole.elim), (fun _ reports => reports.elim)⟩
    rintro _ ⟨⟩
    exact fits
  · exact ⟨reflects, .nothing rfl rfl, Finset.Subset.refl _, (fun whole => whole.elim),
      (fun _ reports => reports.elim)⟩

theorem call_delivered (named : ∀ t ∈ h.trades, t.id ≠ "") (reflects : Reflects h (l.entry key)) {call : LedgerCall ℚ}
    (delivers : Delivers h key call) (charged : call.Charged) :
    Delivered h call (l.step call).1 (l.entry key) ((l.step call).2.entry key) := by
  cases delivers with
  | report n avgPrice fee financing average => exact report_delivered reflects n average charged
  | trade member fee financing => exact trade_delivered reflects member (named _ member) charged
  | register fits => exact register_delivered reflects fits

/-- What a run of deliveries leaves of the state of its order. -/
structure Brought (h : History) (key : OrderKey) (l : FillLedger ℚ) (calls : List (LedgerCall ℚ)) : Prop where
  reflects : Reflects h ((l.run calls).entry key)
  qty : ((l.run calls).entry key).qty =
    (l.entry key).qty + ((FillLedger.fillsOf key l calls).map FillDelta.qty).sum
  notional : ((l.run calls).entry key).notional =
    (l.entry key).notional + ((FillLedger.fillsOf key l calls).map fun d => d.qty * d.price).sum
  positive : ∀ d ∈ FillLedger.fillsOf key l calls, 0 < d.qty ∧ 0 < d.price
  kept : (l.entry key).seenTrades ⊆ ((l.run calls).entry key).seenTrades
  whole : (∃ call ∈ calls, call.key = key ∧ call.Whole h) → ((l.run calls).entry key).qty = qtyOf h.trades
  seen : ∀ t, (∃ call ∈ calls, call.key = key ∧ call.Reports t) → t.id ∈ ((l.run calls).entry key).seenTrades

theorem run_brought (named : ∀ t ∈ h.trades, t.id ≠ "") {calls : List (LedgerCall ℚ)} : ∀ {l : FillLedger ℚ},
    (∀ call ∈ calls, call.key = key → Delivers h key call ∧ call.Charged) → Reflects h (l.entry key) →
      Brought h key l calls := by
  induction calls with
  | nil =>
      intro l _ reflects
      exact ⟨reflects, by simp [FillLedger.run, FillLedger.fillsOf], by simp [FillLedger.run, FillLedger.fillsOf],
        by simp [FillLedger.fillsOf], Finset.Subset.refl _, by simp, by simp⟩
  | cons call calls ih =>
      intro l own reflects
      by_cases its : call.key = key
      · obtain ⟨delivers, charged⟩ := own call (by simp) its
        have first := call_delivered named reflects delivers charged
        have rest := ih (fun call member => own call (by simp [member])) first.reflects
        have fills : FillLedger.fillsOf key l (call :: calls) =
            (l.step call).1.toList ++ FillLedger.fillsOf key (l.step call).2 calls := by
          rw [FillLedger.fillsOf, if_pos its]
        have later : 0 ≤ ((FillLedger.fillsOf key (l.step call).2 calls).map FillDelta.qty).sum := by
          apply List.sum_nonneg
          intro q among
          obtain ⟨d, member, rfl⟩ := List.mem_map.1 among
          exact (rest.positive d member).1.le
        refine ⟨rest.reflects, ?_, ?_, ?_, first.kept.trans rest.kept, ?_, ?_⟩
        · rw [fills, FillLedger.run, List.foldl_cons, ← FillLedger.run, rest.qty, first.adds.qty]
          cases (l.step call).1 <;> simp [add_assoc]
        · rw [fills, FillLedger.run, List.foldl_cons, ← FillLedger.run, rest.notional, first.adds.notional]
          cases (l.step call).1 <;> simp [add_assoc]
        · intro d among
          rw [fills, List.mem_append, Option.mem_toList] at among
          rcases among with now | afterwards
          · exact first.adds.positive d now
          · exact rest.positive d afterwards
        · rintro ⟨call', member, own', whole⟩
          rcases List.mem_cons.1 member with rfl | among
          · have all := rest.qty
            rw [first.whole whole] at all
            refine le_antisymm rest.reflects.qty_bounds.2 ?_
            rw [FillLedger.run, List.foldl_cons, ← FillLedger.run, all]
            linarith
          · exact rest.whole ⟨call', among, own', whole⟩
        · rintro t ⟨call', member, own', reports⟩
          rcases List.mem_cons.1 member with rfl | among
          · exact rest.kept (first.seen t reports)
          · exact rest.seen t ⟨call', among, own', reports⟩
      · have same := FillLedger.entry_step_other its (l := l)
        have rest := ih (l := (l.step call).2) (fun call member => own call (by simp [member]))
          (by rw [same]; exact reflects)
        have fills : FillLedger.fillsOf key l (call :: calls) = FillLedger.fillsOf key (l.step call).2 calls := by
          rw [FillLedger.fillsOf, if_neg its, List.nil_append]
        have elsewhere {P : LedgerCall ℚ → Prop} (found : ∃ call' ∈ call :: calls, call'.key = key ∧ P call') :
            ∃ call' ∈ calls, call'.key = key ∧ P call' := by
          obtain ⟨call', member, own', holds⟩ := found
          rcases List.mem_cons.1 member with rfl | among
          · exact absurd own' its
          · exact ⟨call', among, own', holds⟩
        have qty := rest.qty
        have notional := rest.notional
        have kept := rest.kept
        rw [same] at qty notional kept
        refine ⟨rest.reflects, ?_, ?_, ?_, kept, fun found => rest.whole (elsewhere found),
          fun t found => rest.seen t (elsewhere found)⟩
        · rw [fills]
          exact qty
        · rw [fills]
          exact notional
        · rw [fills]
          exact rest.positive

theorem fresh_reflects (fresh : l.orders.get key = none) : Reflects h (l.entry key) := by
  have new : l.entry key = OrderState.new := by
    rw [FillLedger.entry, fresh, Option.getD_none]
  rw [new]
  have none (trades : List Trade) : trades.filter (·.id ∈ (∅ : Finset String)) = [] := by simp
  refine ⟨⟨[], List.nil_sublist _, rfl, rfl⟩, ?_, ?_, ?_, by simp [OrderState.new]⟩
  · rw [OrderState.new, none]
    rfl
  · rw [OrderState.new, none]
    rfl
  · intro all
    have empty : h.trades = [] := by
      refine List.eq_nil_iff_forall_not_mem.2 fun t member => ?_
      simpa [OrderState.new] using all t member
    rw [empty]
    rfl

/-- However the reports of an order arrive, once the whole is among them the new
    fills come to exactly what was executed. -/
theorem fills_are_exact (named : ∀ t ∈ h.trades, t.id ≠ "") (fresh : l.orders.get key = none)
    {calls : List (LedgerCall ℚ)} (own : ∀ call ∈ calls, call.key = key → Delivers h key call ∧ call.Charged)
    (complete : (∃ call ∈ calls, call.key = key ∧ call.Whole h) ∨
      ∀ t ∈ h.trades, ∃ call ∈ calls, call.key = key ∧ call.Reports t) :
    ((FillLedger.fillsOf key l calls).map FillDelta.qty).sum = qtyOf h.trades ∧
      ((FillLedger.fillsOf key l calls).map fun d => d.qty * d.price).sum = notionalOf h.trades ∧
      (∀ d ∈ FillLedger.fillsOf key l calls, 0 < d.qty ∧ 0 < d.price) ∧
      (∀ first second, calls = first ++ second →
        ((FillLedger.fillsOf key l first).map FillDelta.qty).sum ≤ qtyOf h.trades) ∧
      ∀ other, other ≠ key →
        FillLedger.fillsOf other l calls = FillLedger.fillsOf other l (calls.filter (·.key ≠ key)) ∧
          (l.run calls).orders.get other = (l.run (calls.filter (·.key ≠ key))).orders.get other := by
  have start : Reflects h (l.entry key) := fresh_reflects fresh
  have zero : (l.entry key).qty = 0 ∧ (l.entry key).notional = 0 := by
    rw [FillLedger.entry, fresh, Option.getD_none]
    exact ⟨rfl, rfl⟩
  have brought := run_brought named own start
  have qty : ((l.run calls).entry key).qty = qtyOf h.trades := by
    rcases complete with whole | every
    · exact brought.whole whole
    · exact brought.reflects.whole fun t member => brought.seen t (every t member)
  refine ⟨?_, ?_, brought.positive, ?_, fun other distinct => FillLedger.run_others (fun _ _ => rfl) other distinct⟩
  · have total := brought.qty
    rw [qty, zero.1, zero_add] at total
    exact total.symm
  · obtain ⟨part, sub, its, notional⟩ := brought.reflects.part
    rw [h.whole_of_qty sub (its.symm.trans qty)] at notional
    have total := brought.notional
    rw [notional, zero.2, zero_add] at total
    exact total.symm
  · rintro first second rfl
    have early : Brought h key l first :=
      run_brought named (fun call member => own call (List.mem_append_left _ member)) start
    have total := early.qty
    rw [zero.1, zero_add] at total
    rw [← total]
    exact early.reflects.qty_bounds.2

end Deliveries

/-! ## Deliveries that are turned away -/

namespace TurnedAway

private def order : OrderKey := ⟨1, "alpaca", "ord-1"⟩

private def single (id : String) : History where
  trades := [⟨id, 1, 100⟩]
  step := 1
  distinct := by simp
  priced := by simp
  sized := by
    intro t member
    obtain rfl := List.mem_singleton.1 member
    exact ⟨1, by norm_num, by norm_num⟩
  coarse := by
    norm_num [tolerance, qtyOf, QTY_EPS, QTY_REL_EPS]

/-- A trade without an id, or one that pays a rebate, is never recorded. -/
theorem unnamed_or_rebate_lost :
    (∃ h calls, (∀ call ∈ calls, Delivers h order call) ∧
      (∀ t ∈ h.trades, ∃ call ∈ calls, call.key = order ∧ call.Reports t) ∧ (∀ call ∈ calls, call.Charged) ∧
        FillLedger.fillsOf order (.new : FillLedger ℚ) calls = [] ∧ qtyOf h.trades = 1) ∧
    (∃ h calls, (∀ call ∈ calls, Delivers h order call) ∧
      (∀ t ∈ h.trades, ∃ call ∈ calls, call.key = order ∧ call.Reports t) ∧ (∀ t ∈ h.trades, t.id ≠ "") ∧
        FillLedger.fillsOf order (.new : FillLedger ℚ) calls = [] ∧ qtyOf h.trades = 1) := by
  refine ⟨⟨single "", [.applyTrade order "" 1 100 0 0], ?_, ?_, ?_, by decide +kernel, by decide +kernel⟩,
    ⟨single "t1", [.applyTrade order "t1" 1 100 (-1 / 100) 0], ?_, ?_, ?_, by decide +kernel, by decide +kernel⟩⟩
  · intro call member
    obtain rfl := List.mem_singleton.1 member
    exact .trade (t := ⟨"", 1, 100⟩) (by simp [single]) 0 0
  · simp [single, LedgerCall.key, LedgerCall.Reports]
  · simp [LedgerCall.Charged]
  · intro call member
    obtain rfl := List.mem_singleton.1 member
    exact .trade (t := ⟨"t1", 1, 100⟩) (by simp [single]) _ _
  · simp [single, LedgerCall.key, LedgerCall.Reports]
  · simp [single]

private def pair : History where
  trades := [⟨"t1", 1, 100⟩, ⟨"t2", 3, 110⟩]
  step := 1
  distinct := by simp
  priced := by simp
  sized := by
    intro t member
    rcases List.mem_cons.1 member with rfl | member
    · exact ⟨1, by norm_num, by norm_num⟩
    · obtain rfl := List.mem_singleton.1 member
      exact ⟨3, by norm_num, by norm_num⟩
  coarse := by
    norm_num [tolerance, qtyOf, QTY_EPS, QTY_REL_EPS]

/-- The second trade comes first, then a late report of the first one, and that one itself. -/
private def disordered : List (LedgerCall ℚ) :=
  [.applyTrade order "t2" 3 110 (1 / 2) 0, .applyCumulative order 1 100 none none,
    .applyTrade order "t1" 1 100 (1 / 2) 0]

theorem disordered_trades_exact :
    FillLedger.fillsOf order .new disordered = [⟨3, 110, 1 / 2, 0⟩, ⟨1, 100, 1 / 2, 0⟩] ∧
      ((FillLedger.fillsOf order .new disordered).map FillDelta.qty).sum = qtyOf pair.trades := by
  refine ⟨by decide +kernel, (fills_are_exact (h := pair) (by simp [pair]) (by rfl) ?_ (.inr ?_)).1⟩
  · intro call member _
    rcases List.mem_cons.1 member with rfl | member
    · exact ⟨.trade (t := ⟨"t2", 3, 110⟩) (by simp [pair]) _ _, by norm_num [LedgerCall.Charged]⟩
    rcases List.mem_cons.1 member with rfl | member
    · have one : qtyOf (pair.trades.take 1) = 1 := by decide +kernel
      refine ⟨?_, by simp [LedgerCall.Charged]⟩
      rw [← one]
      exact .report 1 100 none none (by decide +kernel)
    · obtain rfl := List.mem_singleton.1 member
      exact ⟨.trade (t := ⟨"t1", 1, 100⟩) (by simp [pair]) _ _, by norm_num [LedgerCall.Charged]⟩
  · simp [pair, disordered, LedgerCall.key, LedgerCall.Reports]

end TurnedAway

end HostBuilder
