import SignalEngine.Lib.FloatLike
import SignalEngine.Lib.Registry
import Mathlib.Data.Finset.Insert

/-! # Fill ledger

Reports about an order, of its cumulative quantity or of single trades, become the
new quantity to record. Amounts are floats, of which only the operations are used.
-/

namespace HostBuilder

open FloatLike

/-- Absolute floor for "same quantity" comparisons. -/
def QTY_EPS : ℚ := 1 / 10 ^ 12

/-- Relative tolerance for "same quantity" comparisons. -/
def QTY_REL_EPS : ℚ := 1 / 10 ^ 9

/-- Relative tolerance against the order size. -/
def OVERFILL_REL_TOL : ℚ := 1 / 10 ^ 6

structure OrderKey where
  deploymentId : Nat
  exchange : String
  orderId : String
  deriving DecidableEq

structure FillDelta (F : Type) where
  qty : F
  price : F
  fee : F
  /-- Carry, kept apart from the fee. -/
  financing : F
  deriving DecidableEq

inductive RejectReason where
  | invalidNumber
  | overFill
  | inconsistentPrice
  deriving DecidableEq

inductive Applied (F : Type) where
  | fill (delta : FillDelta F)
  | duplicate
  | stale
  /-- The recorded amounts are unchanged. -/
  | rejected (reason : RejectReason)
  deriving DecidableEq

structure OrderState (F : Type) where
  qty : F
  notional : F
  fee : F
  financing : F
  /-- The order size, once it is known. -/
  expectedQty : Option F
  /-- What the single trades came to. -/
  seenTrades : Finset String
  streamQty : F
  streamNotional : F
  streamFee : F
  streamFinancing : F
  deriving DecidableEq

structure FillLedger (F : Type) where
  orders : Registry OrderKey (OrderState F)

section Operations

variable {F : Type} [FloatLike F]

def OrderState.new : OrderState F := ⟨0, 0, 0, 0, none, ∅, 0, 0, 0, 0⟩

/-- The state once the trade is among those seen. -/
def OrderState.noteTrade (st : OrderState F) (tradeId : String) (qty price fee financing : F) : OrderState F :=
  { st with
    seenTrades := insert tradeId st.seenTrades
    streamQty := st.streamQty + qty
    streamNotional := st.streamNotional + qty * price
    streamFee := st.streamFee + fee
    streamFinancing := st.streamFinancing + financing }

def sameQty (a b : F) : Bool :=
  FloatLike.abs (a - b) ≤ max (ofRat QTY_EPS) (ofRat QTY_REL_EPS * max (FloatLike.abs a) (FloatLike.abs b))

def validQty (q : F) : Bool := isFinite q && 0 ≤ q

/-- What a cumulative quantity adds to the record. -/
def advance (st : OrderState F) (cumQty cumNotional : F) (cumFee cumFinancing : Option F) : Applied F × OrderState F :=
  if st.expectedQty.any fun expected => expected * (ofRat 1 + ofRat OVERFILL_REL_TOL) + ofRat QTY_EPS < cumQty then
    (.rejected .overFill, st)
  else if sameQty cumQty st.qty then (.duplicate, st)
  else if cumQty < st.qty then (.stale, st)
  else
    let dq := cumQty - st.qty
    let dn := cumNotional - st.notional
    let price := dn / dq
    if !isFinite price || price ≤ 0 then (.rejected .inconsistentPrice, st)
    else
      let fee := (cumFee.map fun f => max (f - st.fee) 0).getD 0
      -- Financing is signed, so it is not floored.
      let financing := (cumFinancing.map fun f => f - st.financing).getD 0
      (.fill ⟨dq, price, fee, financing⟩,
        { st with qty := cumQty, notional := cumNotional, fee := st.fee + fee, financing := st.financing + financing })

namespace FillLedger

def new : FillLedger F := ⟨.empty⟩

/-- The state of an order, a new one if it has none. -/
def entry (l : FillLedger F) (key : OrderKey) : OrderState F := (l.orders.get key).getD OrderState.new

def put (l : FillLedger F) (key : OrderKey) (st : OrderState F) : FillLedger F := ⟨l.orders.insert key st⟩

def recorded (l : FillLedger F) (key : OrderKey) : Option (F × F × F) :=
  (l.orders.get key).map fun st => (st.qty, st.notional, st.fee)

def financingPnl (l : FillLedger F) (key : OrderKey) : F := ((l.orders.get key).map OrderState.financing).getD 0

def registerOrder (l : FillLedger F) (key : OrderKey) (expectedQty : F) : FillLedger F :=
  if isFinite expectedQty && 0 < expectedQty then l.put key { l.entry key with expectedQty := some expectedQty } else l

def seed (l : FillLedger F) (key : OrderKey) (qty notional fee financing : F) : FillLedger F :=
  if validQty qty && validQty notional && validQty fee && isFinite financing then
    l.put key { l.entry key with qty, notional, fee, financing }
  else l

/-- The figures of a cumulative report can be used. -/
def validCumulative (cumQty cumAvgPrice : F) (cumFee cumFinancing : Option F) : Bool :=
  !(!validQty cumQty || !isFinite cumAvgPrice || cumAvgPrice < 0) &&
    !(0 < cumQty && cumAvgPrice ≤ 0) &&
    !(cumFee.any fun f => !validQty f) &&
    !(cumFinancing.any fun f => !isFinite f)

def applyCumulative (l : FillLedger F) (key : OrderKey) (cumQty cumAvgPrice : F) (cumFee cumFinancing : Option F) :
    Applied F × FillLedger F :=
  if !validCumulative cumQty cumAvgPrice cumFee cumFinancing then (.rejected .invalidNumber, l)
  else
    let (applied, st) := advance (l.entry key) cumQty (cumQty * cumAvgPrice) cumFee cumFinancing
    (applied, l.put key st)

/-- A trade has an id, and its figures can be used. -/
def validTrade (tradeId : String) (qty price fee financing : F) : Bool :=
  !(tradeId.isEmpty || !validQty qty || qty ≤ 0 || !isFinite price || price ≤ 0 || !validQty fee || !isFinite financing)

def applyTrade (l : FillLedger F) (key : OrderKey) (tradeId : String) (qty price fee financing : F) :
    Applied F × FillLedger F :=
  if !validTrade tradeId qty price fee financing then (.rejected .invalidNumber, l)
  else
    let st := l.entry key
    if tradeId ∈ st.seenTrades then (.duplicate, l.put key st)
    else
      let noted := st.noteTrade tradeId qty price fee financing
      let (applied, st) := advance noted noted.streamQty noted.streamNotional (some noted.streamFee)
        (some noted.streamFinancing)
      (applied, l.put key st)

end FillLedger

end Operations

/-! ## Runs -/

inductive LedgerCall (F : Type) where
  | registerOrder (key : OrderKey) (expectedQty : F)
  | seed (key : OrderKey) (qty notional fee financing : F)
  | applyCumulative (key : OrderKey) (cumQty cumAvgPrice : F) (cumFee cumFinancing : Option F)
  | applyTrade (key : OrderKey) (tradeId : String) (qty price fee financing : F)
  deriving DecidableEq

section Runs

variable {F : Type} [FloatLike F]

def LedgerCall.key : LedgerCall F → OrderKey
  | registerOrder key _ | seed key _ _ _ _ | applyCumulative key _ _ _ _ | applyTrade key _ _ _ _ _ => key

def Applied.delta? : Applied F → Option (FillDelta F)
  | fill delta => some delta
  | _ => none

namespace FillLedger

/-- A call, the new fill it gives, and the ledger it leaves. -/
def step (l : FillLedger F) : LedgerCall F → Option (FillDelta F) × FillLedger F
  | .registerOrder key expectedQty => (none, l.registerOrder key expectedQty)
  | .seed key qty notional fee financing => (none, l.seed key qty notional fee financing)
  | .applyCumulative key cumQty cumAvgPrice cumFee cumFinancing =>
      let (applied, l') := l.applyCumulative key cumQty cumAvgPrice cumFee cumFinancing
      (applied.delta?, l')
  | .applyTrade key tradeId qty price fee financing =>
      let (applied, l') := l.applyTrade key tradeId qty price fee financing
      (applied.delta?, l')

def run (l : FillLedger F) (calls : List (LedgerCall F)) : FillLedger F := calls.foldl (fun l call => (l.step call).2) l

/-- The new fills of one order, in the order they were given. -/
def fillsOf (key : OrderKey) : FillLedger F → List (LedgerCall F) → List (FillDelta F)
  | _, [] => []
  | l, call :: calls => (if call.key = key then (l.step call).1.toList else []) ++ fillsOf key (l.step call).2 calls

end FillLedger

/-! ## Orders do not meet -/

namespace FillLedger

theorem entry_put (l : FillLedger F) (key key' : OrderKey) (st : OrderState F) :
    (l.put key st).entry key' = if key' = key then st else l.entry key' := by
  unfold entry put
  rw [Registry.get_insert]
  split <;> rfl

omit [FloatLike F] in
theorem get_put (l : FillLedger F) (key key' : OrderKey) (st : OrderState F) :
    (l.put key st).orders.get key' = if key' = key then some st else l.orders.get key' := Registry.get_insert ..

theorem step_put (l : FillLedger F) (call : LedgerCall F) :
    (l.step call).2 = l ∨ ∃ st, (l.step call).2 = l.put call.key st := by
  cases call with
  | registerOrder key expectedQty =>
      simp only [step, registerOrder]
      split
      · exact .inr ⟨_, rfl⟩
      · exact .inl rfl
  | seed key qty notional fee financing =>
      simp only [step, seed]
      split
      · exact .inr ⟨_, rfl⟩
      · exact .inl rfl
  | applyCumulative key cumQty cumAvgPrice cumFee cumFinancing =>
      simp only [step, applyCumulative]
      split
      · exact .inl rfl
      · exact .inr ⟨_, rfl⟩
  | applyTrade key tradeId qty price fee financing =>
      simp only [step, applyTrade]
      split
      · exact .inl rfl
      split
      · exact .inr ⟨_, rfl⟩
      · exact .inr ⟨_, rfl⟩

theorem get_step_other {l : FillLedger F} {call : LedgerCall F} {key : OrderKey} (other : call.key ≠ key) :
    (l.step call).2.orders.get key = l.orders.get key := by
  rcases l.step_put call with same | ⟨st, put⟩
  · rw [same]
  · rw [put, get_put, if_neg (Ne.symm other)]

theorem entry_step_other {l : FillLedger F} {call : LedgerCall F} {key : OrderKey} (other : call.key ≠ key) :
    (l.step call).2.entry key = l.entry key := by
  unfold entry
  rw [get_step_other other]

theorem step_congr {l l' : FillLedger F} {call : LedgerCall F} (same : l.orders.get call.key = l'.orders.get call.key) :
    (l.step call).1 = (l'.step call).1 ∧
      (l.step call).2.orders.get call.key = (l'.step call).2.orders.get call.key := by
  have entry : l.entry call.key = l'.entry call.key := by
    unfold FillLedger.entry
    rw [same]
  cases call with
  | registerOrder key expectedQty =>
      simp only [LedgerCall.key] at same entry ⊢
      simp only [step, registerOrder, entry]
      split
      · simp [get_put]
      · exact ⟨trivial, same⟩
  | seed key qty notional fee financing =>
      simp only [LedgerCall.key] at same entry ⊢
      simp only [step, seed, entry]
      split
      · simp [get_put]
      · exact ⟨trivial, same⟩
  | applyCumulative key cumQty cumAvgPrice cumFee cumFinancing =>
      simp only [LedgerCall.key] at same entry ⊢
      simp only [step, applyCumulative, entry]
      split
      · exact ⟨rfl, same⟩
      · simp [get_put]
  | applyTrade key tradeId qty price fee financing =>
      simp only [LedgerCall.key] at same entry ⊢
      simp only [step, applyTrade, entry]
      split
      · exact ⟨rfl, same⟩
      split
      · simp [get_put]
      · simp [get_put]

theorem run_others {key : OrderKey} {calls : List (LedgerCall F)} : ∀ {l l' : FillLedger F},
    (∀ other, other ≠ key → l.orders.get other = l'.orders.get other) → ∀ other, other ≠ key →
      fillsOf other l calls = fillsOf other l' (calls.filter (·.key ≠ key)) ∧
        (l.run calls).orders.get other = (l'.run (calls.filter (·.key ≠ key))).orders.get other := by
  induction calls with
  | nil => exact fun same other distinct => ⟨rfl, same other distinct⟩
  | cons call calls ih =>
      intro l l' same other distinct
      by_cases own : call.key = key
      · -- an own call is left out on the right
        have after : ∀ other, other ≠ key → (l.step call).2.orders.get other = l'.orders.get other := by
          intro other distinct
          rw [get_step_other (by rw [own]; exact Ne.symm distinct)]
          exact same other distinct
        obtain ⟨fills, states⟩ := ih after other distinct
        have skipped : (call :: calls).filter (·.key ≠ key) = calls.filter (·.key ≠ key) := by
          rw [List.filter_cons_of_neg (by simp [own])]
        rw [skipped]
        refine ⟨?_, states⟩
        rw [fillsOf, if_neg (by rw [own]; exact Ne.symm distinct), List.nil_append]
        exact fills
      · obtain ⟨given, left⟩ := step_congr (same call.key own)
        have after : ∀ other, other ≠ key →
            (l.step call).2.orders.get other = (l'.step call).2.orders.get other := by
          intro other distinct
          by_cases its : call.key = other
          · rw [← its]
            exact left
          · rw [get_step_other its, get_step_other its]
            exact same other distinct
        obtain ⟨fills, states⟩ := ih after other distinct
        have kept : (call :: calls).filter (·.key ≠ key) = call :: calls.filter (·.key ≠ key) := by
          rw [List.filter_cons_of_pos (by simp [own])]
        rw [kept]
        refine ⟨?_, states⟩
        rw [fillsOf, fillsOf, given, fills]

end FillLedger

end Runs

/-! ## Exact amounts -/

theorem validCumulative_exact {cumQty cumAvgPrice : ℚ} {cumFee cumFinancing : Option ℚ} :
    FillLedger.validCumulative cumQty cumAvgPrice cumFee cumFinancing = true ↔
      0 ≤ cumQty ∧ 0 ≤ cumAvgPrice ∧ (0 < cumQty → 0 < cumAvgPrice) ∧ ∀ f, cumFee = some f → 0 ≤ f := by
  simp only [FillLedger.validCumulative, validQty, isFinite_rat, Bool.true_and, Bool.not_true, Bool.or_false,
    Bool.and_eq_true, Bool.not_eq_true', Bool.or_eq_false_iff, Bool.and_eq_false_iff, Bool.not_eq_false',
    decide_eq_true_eq, decide_eq_false_iff_not, not_le, not_lt, Option.any_eq_false]
  simp [imp_iff_not_or, and_assoc]

theorem validTrade_exact {tradeId : String} {qty price fee financing : ℚ} :
    FillLedger.validTrade tradeId qty price fee financing = true ↔ tradeId ≠ "" ∧ 0 < qty ∧ 0 < price ∧ 0 ≤ fee := by
  simp only [FillLedger.validTrade, validQty, isFinite_rat, Bool.true_and, Bool.not_true, Bool.or_false,
    Bool.not_eq_true', Bool.or_eq_false_iff, Bool.not_eq_false', decide_eq_true_eq, decide_eq_false_iff_not, not_le,
    String.isEmpty_eq_false_iff]
  exact ⟨fun ⟨⟨⟨⟨named, _⟩, sized⟩, priced⟩, charged⟩ => ⟨named, sized, priced, charged⟩,
    fun ⟨named, sized, priced, charged⟩ => ⟨⟨⟨⟨named, sized.le⟩, sized⟩, priced⟩, charged⟩⟩

theorem advance_exact (st : OrderState ℚ) (cumQty cumNotional : ℚ) (cumFee cumFinancing : Option ℚ) :
    advance st cumQty cumNotional cumFee cumFinancing =
      if st.expectedQty.any fun expected => expected * (1 + OVERFILL_REL_TOL) + QTY_EPS < cumQty then
        (.rejected .overFill, st)
      else if sameQty cumQty st.qty then (.duplicate, st)
      else if cumQty < st.qty then (.stale, st)
      else if (cumNotional - st.notional) / (cumQty - st.qty) ≤ 0 then (.rejected .inconsistentPrice, st)
      else
        let fee := (cumFee.map fun f => max (f - st.fee) 0).getD 0
        let financing := (cumFinancing.map fun f => f - st.financing).getD 0
        (.fill ⟨cumQty - st.qty, (cumNotional - st.notional) / (cumQty - st.qty), fee, financing⟩,
          { st with
            qty := cumQty, notional := cumNotional, fee := st.fee + fee, financing := st.financing + financing }) := by
  simp only [advance, isFinite_rat, Bool.not_true, Bool.false_or, decide_eq_true_eq]
  rfl

end HostBuilder
