import SignalEngine.HostBuilder.FillLedger
import SignalEngine.Lib.Runs

/-! # Rejected reports

A rejected report leaves the ledger as it was, but for two cases. A trade whose numbers
are accepted is noted, with its id and its totals, before the report is refused, and a
corrected delivery of it is taken for a repetition. And a cumulative report of an unknown
order gives it an empty state before its price is found to be infinite or zero.
-/

namespace HostBuilder

namespace FillLedger

variable {F : Type} [FloatLike F]

def answer (l : FillLedger F) : LedgerCall F → Option (Applied F)
  | .registerOrder _ _ | .seed _ _ _ _ _ => none
  | .applyCumulative key cumQty cumAvgPrice cumFee cumFinancing =>
      some (l.applyCumulative key cumQty cumAvgPrice cumFee cumFinancing).1
  | .applyTrade key tradeId qty price fee financing =>
      some (l.applyTrade key tradeId qty price fee financing).1

def after (l : FillLedger F) (call : LedgerCall F) : FillLedger F := (l.step call).2

/-- Whatever is called from now on, the answers and the records are the same. -/
def Alike (l l' : FillLedger F) : Prop :=
  ∀ calls, Runs.answers after answer l calls = Runs.answers after answer l' calls ∧
    ∀ key, (l.run calls).recorded key = (l'.run calls).recorded key ∧
      (l.run calls).financingPnl key = (l'.run calls).financingPnl key

/-- Nothing is noted of the report before it is refused: its numbers are not accepted, or it
    is a cumulative one of an order that has a state. -/
def NothingNoted (l : FillLedger F) : LedgerCall F → Prop
  | .registerOrder _ _ | .seed _ _ _ _ _ => True
  | .applyCumulative key cumQty cumAvgPrice cumFee cumFinancing =>
      validCumulative cumQty cumAvgPrice cumFee cumFinancing = false ∨ (l.orders.get key).isSome
  | .applyTrade _ tradeId qty price fee financing => validTrade tradeId qty price fee financing = false

/-! ## Ledgers with the same orders -/

def SameOrders (l l' : FillLedger F) : Prop := ∀ key, l.orders.get key = l'.orders.get key

theorem answer_congr {l l' : FillLedger F} {call : LedgerCall F}
    (same : l.orders.get call.key = l'.orders.get call.key) : l.answer call = l'.answer call := by
  have entry : l.entry call.key = l'.entry call.key := by
    unfold FillLedger.entry
    rw [same]
  cases call with
  | registerOrder key expectedQty => rfl
  | seed key qty notional fee financing => rfl
  | applyCumulative key cumQty cumAvgPrice cumFee cumFinancing =>
      simp only [LedgerCall.key] at entry
      simp only [answer, applyCumulative, entry, Option.some.injEq]
      split
      · rfl
      · rfl
  | applyTrade key tradeId qty price fee financing =>
      simp only [LedgerCall.key] at entry
      simp only [answer, applyTrade, entry, Option.some.injEq]
      split
      · rfl
      split
      · rfl
      · rfl

theorem SameOrders.after {l l' : FillLedger F} (same : SameOrders l l') (call : LedgerCall F) :
    SameOrders (l.after call) (l'.after call) := by
  intro key
  by_cases own : call.key = key
  · subst own
    exact (step_congr (same call.key)).2
  · unfold FillLedger.after
    rw [get_step_other own, get_step_other own]
    exact same key

theorem SameOrders.alike {l l' : FillLedger F} (same : SameOrders l l') : Alike l l' := by
  intro calls
  obtain ⟨answers, final⟩ := @Runs.answers_related _ _ FillLedger.after _ answer SameOrders
    (fun _ _ call related => ⟨answer_congr (related call.key), related.after call⟩) calls _ _ same
  refine ⟨answers, fun key => ?_⟩
  have here : (l.run calls).orders.get key = (l'.run calls).orders.get key := final key
  unfold recorded financingPnl
  rw [here]
  exact ⟨rfl, rfl⟩

omit [FloatLike F] in
theorem sameOrders_put {l : FillLedger F} {key : OrderKey} {st : OrderState F} (known : l.orders.get key = some st) :
    SameOrders (l.put key st) l := by
  intro key'
  rw [get_put]
  split
  next same => rw [same, known]
  next => rfl

end FillLedger

/-! ## What a rejection leaves -/

section Advance

variable {F : Type} [FloatLike F] {st : OrderState F} {q n : F} {cumFee cumFinancing : Option F}

theorem advance_rejected {reason : RejectReason}
    (rejected : (advance st q n cumFee cumFinancing).1 = .rejected reason) :
    (advance st q n cumFee cumFinancing).2 = st := by
  unfold advance at rejected ⊢
  split at rejected
  next overfull => rw [if_pos overfull]
  next fits =>
    rw [if_neg fits]
    split at rejected
    · cases rejected
    next different =>
      rw [if_neg different]
      split at rejected
      · cases rejected
      next more =>
        rw [if_neg more]
        dsimp only at rejected ⊢
        split at rejected
        next poor => rw [if_pos poor]
        next => cases rejected

theorem advance_seenTrades : (advance st q n cumFee cumFinancing).2.seenTrades = st.seenTrades := by
  unfold advance
  split
  · rfl
  split
  · rfl
  split
  · rfl
  dsimp only
  split
  · rfl
  · rfl

end Advance

namespace FillLedger

variable {F : Type} [FloatLike F] {l : FillLedger F} {key : OrderKey} {reason : RejectReason}

theorem cumulative_ignored {cumQty cumAvgPrice : F} {cumFee cumFinancing : Option F}
    (invalid : validCumulative cumQty cumAvgPrice cumFee cumFinancing = false) :
    (l.applyCumulative key cumQty cumAvgPrice cumFee cumFinancing).2 = l := by
  rw [applyCumulative, invalid]
  rfl

theorem trade_ignored {tradeId : String} {qty price fee financing : F}
    (invalid : validTrade tradeId qty price fee financing = false) :
    (l.applyTrade key tradeId qty price fee financing).2 = l := by
  rw [applyTrade, invalid]
  rfl

theorem cumulative_rejected {cumQty cumAvgPrice : F} {cumFee cumFinancing : Option F}
    (valid : validCumulative cumQty cumAvgPrice cumFee cumFinancing = true)
    (rejected : (l.applyCumulative key cumQty cumAvgPrice cumFee cumFinancing).1 = .rejected reason) :
    (l.applyCumulative key cumQty cumAvgPrice cumFee cumFinancing).2 = l.put key (l.entry key) := by
  rw [applyCumulative, valid] at rejected ⊢
  exact congrArg (l.put key) (advance_rejected rejected)

theorem applyTrade_valid {tradeId : String} {qty price fee financing : F}
    (valid : validTrade tradeId qty price fee financing = true) :
    l.applyTrade key tradeId qty price fee financing =
      if tradeId ∈ (l.entry key).seenTrades then (.duplicate, l.put key (l.entry key))
      else
        let noted := (l.entry key).noteTrade tradeId qty price fee financing
        let (applied, st) := advance noted noted.streamQty noted.streamNotional (some noted.streamFee)
          (some noted.streamFinancing)
        (applied, l.put key st) := by
  rw [applyTrade, valid]
  rfl

/-- A trade that is refused although its numbers are accepted is noted. -/
theorem trade_noted {tradeId : String} {qty price fee financing : F}
    (valid : validTrade tradeId qty price fee financing = true)
    (rejected : (l.applyTrade key tradeId qty price fee financing).1 = .rejected reason) :
    ((l.applyTrade key tradeId qty price fee financing).2.applyTrade key tradeId qty price fee financing).1 =
      .duplicate := by
  have noted : tradeId ∈ ((l.applyTrade key tradeId qty price fee financing).2.entry key).seenTrades := by
    rw [applyTrade_valid valid] at rejected ⊢
    split at rejected
    · cases rejected
    next fresh =>
      rw [if_neg fresh]
      simp only [entry_put, if_true, advance_seenTrades, OrderState.noteTrade, Finset.mem_insert_self]
  generalize (l.applyTrade key tradeId qty price fee financing).2 = l' at noted ⊢
  rw [applyTrade_valid valid, if_pos noted]

/-- A rejected report changes nothing, now or later, exactly when nothing was noted of it. -/
theorem rejected_unchanged_iff {call : LedgerCall F} (rejected : l.answer call = some (.rejected reason)) :
    Alike (l.after call) l ↔ l.NothingNoted call := by
  cases call with
  | registerOrder key expectedQty => cases rejected
  | seed key qty notional fee financing => cases rejected
  | applyCumulative key cumQty cumAvgPrice cumFee cumFinancing =>
      cases valid : validCumulative cumQty cumAvgPrice cumFee cumFinancing with
      | false =>
          refine iff_of_true (SameOrders.alike fun _ => ?_) (.inl valid)
          exact congrArg (fun l : FillLedger F => l.orders.get _) (cumulative_ignored valid)
      | true =>
          have left := cumulative_rejected valid (Option.some.inj rejected)
          have noted : l.after (.applyCumulative key cumQty cumAvgPrice cumFee cumFinancing) = l.put key (l.entry key) := left
          cases known : l.orders.get key with
          | some st =>
              have entry : l.entry key = st := by rw [FillLedger.entry, known, Option.getD_some]
              rw [noted, entry]
              refine iff_of_true (sameOrders_put known).alike (.inr ?_)
              rw [known]
              rfl
          | none =>
              -- the order has got an empty record
              refine iff_of_false (fun alike => ?_) ?_
              · have recorded := ((alike []).2 key).1
                rw [noted] at recorded
                simp [run, FillLedger.recorded, get_put, known] at recorded
              · rintro (invalid | some)
                · rw [valid] at invalid
                  cases invalid
                · rw [known] at some
                  cases some
  | applyTrade key tradeId qty price fee financing =>
      cases valid : validTrade tradeId qty price fee financing with
      | false =>
          refine iff_of_true (SameOrders.alike fun _ => ?_) valid
          exact congrArg (fun l : FillLedger F => l.orders.get _) (trade_ignored valid)
      | true =>
          refine iff_of_false (fun alike => ?_) (by simp [NothingNoted, valid])
          -- the same delivery once more tells the two apart
          have again := (alike [.applyTrade key tradeId qty price fee financing]).1
          have repeated := trade_noted valid (Option.some.inj rejected)
          simp only [Runs.answers, rejected, List.cons.injEq, and_true] at again
          have duplicate : (l.after (.applyTrade key tradeId qty price fee financing)).answer
              (.applyTrade key tradeId qty price fee financing) = some .duplicate := congrArg some repeated
          rw [duplicate] at again
          cases again

end FillLedger

/-! ## Reports that are refused and leave something -/

namespace Refused

open Double

private def order : OrderKey := ⟨1, "alpaca", "ord-1"⟩

private def ledger : FillLedger Double := FillLedger.new.run [.registerOrder order (finite 10)]

private def tooMany : LedgerCall Double := .applyTrade order "t1" (finite 20) (finite 100) 0 0

private def huge : LedgerCall Double := .applyCumulative order (nearest (10 ^ 200)) (nearest (10 ^ 200)) none none

/-- The corrected trade is taken for a repetition, and its ten units are not recorded; and an
    unknown order of which a report is refused is known from then on. -/
theorem corrected_trade_lost :
    (¬ ∀ (l : FillLedger Double) (call : LedgerCall Double) (reason : RejectReason),
      l.answer call = some (.rejected reason) → FillLedger.Alike (l.after call) l) ∧
    FillLedger.new.answer huge = some (.rejected .inconsistentPrice) ∧
      (FillLedger.new.after huge).recorded order = some (0, 0, 0) ∧
      (FillLedger.new : FillLedger Double).recorded order = none := by
  refine ⟨fun unchanged => ?_, by decide +kernel, by decide +kernel, rfl⟩
  have alike := unchanged ledger tooMany .overFill (by decide +kernel)
  have again := (alike [.applyTrade order "t1" (finite 10) (finite 100) 0 0]).1
  revert again
  decide +kernel

/-- A cumulative quantity beyond the size of the order. -/
theorem overfull_report_unchanged :
    FillLedger.Alike (ledger.after (.applyCumulative order (finite 20) (finite 100) none none)) ledger := by
  have rejected : ledger.answer (.applyCumulative order (finite 20) (finite 100) none none) =
      some (.rejected .overFill) := by decide +kernel
  exact (FillLedger.rejected_unchanged_iff rejected).2 (.inr (by decide +kernel))

end Refused

end HostBuilder
