import SignalEngine.RebalancerRun.FlattenRuns
import SignalEngine.RebalancerRun.FlattenVerdict

/-! # Covers are bounded

Within one call flatten buys back no more of a symbol than the short first seen
for it, as long as the broker's last word on a cover is right: an ended order is
reported with what it executed, an order that is still live is not reported as
partly executed, and an order whose placement is unknown is found. The allowance
counts a live order by what it has executed and a lost one by nothing.
-/

open BrokerAdapters Interaction Text

namespace RebalancerRun

open RebalancerCore (Instant Sha256)
open RebalancerCore.DecMath (add add_fits sub_ok)
open MachineInt (Fits)

/-- What the order has executed and may still execute. -/
def OwnOrder.potential (o : OwnOrder) : Int := o.filled + o.remaining

/-! ## What the call is doing -/

inductive CoverPhase where
  | clear
  /-- Our open orders were listed; the next reading starts a round. -/
  | listed
  /-- The cover with this id was sent and is being settled. -/
  | settling (id : String)
  /-- The placement of a cover is unknown; whether it reached the broker. -/
  | doubt (sent : Bool)
  deriving DecidableEq

structure CoverNotes where
  phase : CoverPhase
  /-- The symbols that were to be covered, as they are spelled. -/
  symbols : List String
  /-- The magnitude of the short first seen, by upper-case symbol. -/
  firstSeen : String → Option Int

def CoverNotes.start : CoverNotes := ⟨.clear, [], fun _ => none⟩

section Notes

variable [UnicodeCase]

/-- The shorts of a reading, in the order flatten looks at them. -/
def noteShorts (firstSeen : String → Option Int) (snap : BrokerSnapshot) : String → Option Int :=
  (snap.holdings.insertionSort fun a b => a.symbol ≤ b.symbol).foldl
    (fun seen h =>
      if h.quantity.isNegative && (seen (toUppercase h.symbol)).isNone then
        Function.update seen (toUppercase h.symbol) (some (-h.quantity.atto))
      else seen) firstSeen

/-- How a call and its answer move the notes; `sent` tells whether a request of
    unknown outcome reached the broker. -/
def CoverNotes.next (spec : FlattenSpec) (venue : String) (sent : Bool) (n : CoverNotes) :
    (op : BrokerOp) → op.Answer → CoverNotes
  | .openOrders, .ok _ => { n with phase := .listed }
  | .openOrders, .error _ => { n with phase := .clear }
  | .snapshot _, .ok snap =>
      { phase := .clear
        symbols :=
          if n.phase = .listed then n.symbols ++ (planSells spec venue snap).covers.map Close.symbol else n.symbols
        firstSeen := noteShorts n.firstSeen snap }
  | .snapshot _, .error _ => { n with phase := .clear }
  | .place req, .ok (.accepted id _ _ _) => { n with phase := if req.side = .buy then .settling id else .clear }
  | .place req, .ok (.unknownOutcome _ _) => { n with phase := if req.side = .buy then .doubt sent else .clear }
  | .place _, _ => { n with phase := .clear }
  | .findByTag _, answer =>
      match n.phase, answer with
      | .doubt _, .ok (found :: _) => { n with phase := .settling found.brokerOrderId }
      | .doubt _, _ => { n with phase := .clear }
      | _, _ => n
  | .getOrder id, .ok r => if n.phase = .settling id ∧ r.status.isTerminal then { n with phase := .clear } else n
  | .cancelAndSettle id, _ => if n.phase = .settling id then { n with phase := .clear } else n
  | _, _ => n

def sendsCover (sent : Bool) : (op : BrokerOp) → op.Answer → Option OrderRequest
  | .place req, .ok (.accepted _ _ _ _) => if req.side = .buy then some req else none
  | .place req, .ok (.unknownOutcome _ _) => if req.side = .buy ∧ sent then some req else none
  | _, _ => none

def finalReport (phase : CoverPhase) : (op : BrokerOp) → op.Answer → Option OrderReport
  | .getOrder id, .ok r => if phase = .settling id ∧ r.status.isTerminal then some r else none
  | .cancelAndSettle id, .ok (_, r) => if phase = .settling id then some r else none
  | _, _ => none

end Notes

/-! ## The broker's side -/

structure CoverWorld where
  orders : List OwnOrder
  notes : CoverNotes
  /-- Whether a request whose outcome stays unknown reaches the broker. -/
  reached : Bool

namespace CoverWorld

def start : CoverWorld := ⟨[], .start, true⟩

def move (w : CoverWorld) : AccountMove → Option CoverWorld
  | .fill index amount => do
      let o ← w.orders[index]?
      if 0 < amount ∧ amount ≤ o.remaining then
        some { w with orders := w.orders.set index { o with filled := o.filled + amount } }
      else none
  | .finish index => do
      let o ← w.orders[index]?
      some { w with orders := w.orders.set index { o with live := false } }
  | .connect reached => some { w with reached }

variable [UnicodeCase]

def asOrder (req : OrderRequest) : OwnOrder := ⟨toUppercase req.symbol, .buy, req.quantity.atto, 0, true⟩

/-- Any answer can be given; covers and readings leave a trace. -/
def reply (spec : FlattenSpec) (venue : String) (w : CoverWorld) (op : BrokerOp) (answer : op.Answer) :
    Option CoverWorld :=
  some { w with
    orders := w.orders ++ ((sendsCover w.reached op answer).map asOrder).toList
    notes := w.notes.next spec venue w.reached op answer }

def total (w : CoverWorld) (key : String) : Int :=
  (w.orders.map fun o => if o.key = key then o.potential else 0).sum

end CoverWorld

section Condition

variable [UnicodeCase]

/-- The covers of a round that starts with this reading: spellings of one symbol
    differ in ASCII letters only, and the first cover of a symbol is not larger
    than the short first seen for it and not too large to add up. -/
def coversFit (spec : FlattenSpec) (venue : String) (n : CoverNotes) (snap : BrokerSnapshot) : Bool :=
  let covers := (planSells spec venue snap).covers
  let symbols := n.symbols ++ covers.map Close.symbol
  (symbols.all fun s => symbols.all fun t => toUppercase s != toUppercase t || eqIgnoreAsciiCase s t) &&
    covers.all fun c =>
      n.symbols.any (toUppercase · == toUppercase c.symbol) ||
        covers.find? (fun c' => toUppercase c'.symbol == toUppercase c.symbol) != some c ||
        decide (c.quantity.atto ≤ (noteShorts n.firstSeen snap (toUppercase c.symbol)).getD 0 ∧
          Fits 128 c.quantity.atto)

/-- The last word on the cover `o`: an ended order with what it executed, or a live
    one that has executed nothing or all it can. -/
def rightReport (r : OrderReport) (o : OwnOrder) : Bool :=
  if r.status.isTerminal then !o.live && o.filled == r.executedQuantity.atto
  else !r.executedQuantity.isPositive || o.potential == r.executedQuantity.atto

/-- What a look-up or a reading may answer in a phase: an unknown cover is found
    exactly when it exists, and the covers of a round fit. -/
def rightAnswer (spec : FlattenSpec) (venue : String) (n : CoverNotes) : (op : BrokerOp) → op.Answer → Bool
  | .findByTag _, .ok found => n.phase != .doubt found.isEmpty
  | .findByTag _, .error _ => n.phase != .doubt true
  | .snapshot _, .ok snap => n.phase != .listed || coversFit spec venue n snap
  | _, _ => true

/-- What the broker may do: covers are for something, and its last word on a cover
    and its other answers are right. -/
def honest (spec : FlattenSpec) (venue : String) (w : CoverWorld) (op : BrokerOp) (answer : op.Answer) : Bool :=
  (sendsCover w.reached op answer).all (fun req => decide (0 ≤ req.quantity.atto)) &&
    (finalReport w.notes.phase op answer).all (fun r => w.orders.getLast?.all (rightReport r)) &&
    rightAnswer spec venue w.notes op answer

end Condition

abbrev CoverEvent := Event BrokerOp BrokerOp.Answer AccountMove Empty

/-- One call of flatten, and what the broker does with its covers. -/
def coverMachine [UnicodeCase] (spec : FlattenSpec) (venue : String) :
    Machine BrokerOp BrokerOp.Answer CoverWorld AccountMove Empty FlattenReport where
  reply := CoverWorld.reply spec venue
  move := CoverWorld.move
  start s := s.elim

def HonestStep [UnicodeCase] (spec : FlattenSpec) (venue : String) (w : CoverWorld) : CoverEvent → Prop
  | .reply op answer => honest spec venue w op answer = true
  | _ => True

instance [UnicodeCase] (spec : FlattenSpec) (venue : String) (w : CoverWorld) :
    ∀ event, Decidable (HonestStep spec venue w event)
  | .reply op answer => inferInstanceAs (Decidable (honest spec venue w op answer = true))
  | .move _ | .restart _ => isTrue trivial

/-! ## The log of the covers -/

structure Promise where
  key : String
  quantity : Int
  bound : Int

structure CoverLog where
  entries : List Promise
  notes : CoverNotes

def totalOf (entries : List Promise) (key : String) : Int :=
  (entries.map fun e => if e.key = key then e.bound else 0).sum

def settleLast (executed : Int) (entries : List Promise) : List Promise :=
  entries.dropLast ++ (entries.getLast?.map fun e => { e with bound := executed }).toList

/-- Whether a report bounds what the order can come to. -/
def OrderReport.bounds (r : OrderReport) : Bool := r.status.isTerminal || r.executedQuantity.isPositive

def settledEntries (g : CoverLog) (op : BrokerOp) (answer : op.Answer) : List Promise :=
  match (finalReport g.notes.phase op answer).filter OrderReport.bounds with
  | some r => settleLast r.executedQuantity.atto g.entries
  | none => g.entries

section Log

variable [UnicodeCase]

def asPromise (req : OrderRequest) : Promise := ⟨toUppercase req.symbol, req.quantity.atto, req.quantity.atto⟩

def CoverLog.next (spec : FlattenSpec) (venue : String) (sent : Bool) (g : CoverLog) (op : BrokerOp)
    (answer : op.Answer) : CoverLog where
  entries := settledEntries g op answer ++ ((sendsCover sent op answer).map asPromise).toList
  notes := g.notes.next spec venue sent op answer

def Fair (spec : FlattenSpec) (venue : String) (sent : Bool) (g : CoverLog) (op : BrokerOp) (answer : op.Answer) :
    Prop :=
  (∀ req, sendsCover sent op answer = some req → 0 ≤ req.quantity.atto) ∧
  (∀ r, finalReport g.notes.phase op answer = some r → OrderReport.bounds r = true → ∀ e,
    g.entries.getLast? = some e → 0 ≤ r.executedQuantity.atto ∧ r.executedQuantity.atto ≤ e.quantity) ∧
  rightAnswer spec venue g.notes op answer = true

/-- A cover may be sent when it fits beside what was sent before. -/
def coverLaw (spec : FlattenSpec) (venue : String) : Law BrokerOp BrokerOp.Answer CoverLog where
  allowed g op := ∀ req, op = .place req → req.side = .buy →
    totalOf g.entries (toUppercase req.symbol) + req.quantity.atto ≤
      (g.notes.firstSeen (toUppercase req.symbol)).getD 0
  next g op answer g' := ∃ sent, Fair spec venue sent g op answer ∧ g' = g.next spec venue sent op answer

end Log

/-! ## The log fits the broker -/

/-- The order is the one that was promised and comes to no more. -/
structure OwnOrder.HeldTo (o : OwnOrder) (e : Promise) : Prop where
  key : o.key = e.key
  quantity : o.quantity = e.quantity
  filled : 0 ≤ o.filled
  within : o.filled ≤ o.quantity
  bound : o.potential ≤ e.bound

structure Tracks (g : CoverLog) (w : CoverWorld) : Prop where
  notes : g.notes = w.notes
  orders : List.Forall₂ OwnOrder.HeldTo w.orders g.entries
  fits : ∀ key, totalOf g.entries key ≤ (g.notes.firstSeen key).getD 0

theorem OwnOrder.potential_of_live {o : OwnOrder} (live : o.live = true) (within : o.filled ≤ o.quantity) :
    o.potential = o.quantity := by
  simp only [potential, remaining, live, if_true]
  omega

theorem OwnOrder.potential_of_ended {o : OwnOrder} (ended : o.live = false) : o.potential = o.filled := by
  simp [potential, remaining, ended]

theorem OwnOrder.potential_le_quantity {o : OwnOrder} (within : o.filled ≤ o.quantity) : o.potential ≤ o.quantity := by
  cases live : o.live with
  | true => rw [potential_of_live live within]
  | false =>
      rw [potential_of_ended live]
      exact within

theorem totalOf_append (entries more : List Promise) (key : String) :
    totalOf (entries ++ more) key = totalOf entries key + totalOf more key := by
  simp [totalOf]

theorem CoverWorld.total_le {g : CoverLog} {w : CoverWorld} (tracks : Tracks g w) (key : String) :
    w.total key ≤ totalOf g.entries key := by
  have orders := tracks.orders
  unfold CoverWorld.total totalOf
  generalize w.orders = os, g.entries = ps at orders
  induction orders with
  | nil => simp
  | cons head _ ih =>
      simp only [List.map_cons, List.sum_cons, head.key]
      split
      · linarith [head.bound]
      · linarith

theorem eq_dropLast_append {α : Type} {items : List α} {last : α} (here : items.getLast? = some last) :
    items = items.dropLast ++ [last] := by
  have nonempty : items ≠ [] := by
    rintro rfl
    simp at here
  have same : items.getLast nonempty = last := by
    rw [List.getLast?_eq_some_getLast nonempty] at here
    exact Option.some.inj here
  rw [← same, List.dropLast_append_getLast]

theorem forall₂_last {α β : Type} {R : α → β → Prop} {as : List α} {bs : List β} {b : β}
    (related : List.Forall₂ R as bs) (here : bs.getLast? = some b) :
    ∃ a, as.getLast? = some a ∧ R a b ∧ List.Forall₂ R as.dropLast bs.dropLast := by
  induction related with
  | nil => simp at here
  | @cons a b' as bs head tail ih =>
      cases tail with
      | nil =>
          obtain rfl : b' = b := by simpa using here
          exact ⟨a, rfl, head, .nil⟩
      | cons head' tail' =>
          obtain ⟨a', last, holds, rest⟩ := ih (by simpa using here)
          exact ⟨a', by simpa using last, holds, .cons head rest⟩

theorem noteShorts_le [UnicodeCase] (seen : String → Option Int) (snap : BrokerSnapshot) (key : String) :
    (seen key).getD 0 ≤ (noteShorts seen snap key).getD 0 := by
  unfold noteShorts
  generalize snap.holdings.insertionSort (fun a b => a.symbol ≤ b.symbol) = holdings
  induction holdings generalizing seen with
  | nil => simp
  | cons h holdings ih =>
      rw [List.foldl_cons]
      refine le_trans ?_ (ih _)
      split
      next new =>
        simp only [Bool.and_eq_true, Dec.isNegative_iff, Option.isNone_iff_eq_none] at new
        by_cases same : key = toUppercase h.symbol
        · subst same
          rw [new.2, Function.update_self]
          simp only [Option.getD_none, Option.getD_some]
          omega
        · rw [Function.update_of_ne same]
      next => exact le_refl _

theorem next_firstSeen_le [UnicodeCase] (spec : FlattenSpec) (venue : String) (sent : Bool) (n : CoverNotes)
    (op : BrokerOp) (answer : op.Answer) (key : String) :
    (n.firstSeen key).getD 0 ≤ ((n.next spec venue sent op answer).firstSeen key).getD 0 := by
  unfold CoverNotes.next
  split
  case h_3 _ snap => exact noteShorts_le n.firstSeen snap key
  all_goals first
    | exact le_refl _
    | (split <;> exact le_refl _)

theorem Tracks.move {g : CoverLog} {w w' : CoverWorld} {e : AccountMove} (tracks : Tracks g w)
    (moved : w.move e = some w') : Tracks g w' := by
  have replaced {i : Nat} {o o' : OwnOrder} (here : w.orders[i]? = some o)
      (kept : ∀ p, o.HeldTo p → o'.HeldTo p) : Tracks g { w with orders := w.orders.set i o' } := by
    refine ⟨tracks.notes, ?_, tracks.fits⟩
    have orders := tracks.orders
    clear tracks
    simp only
    generalize w.orders = os, g.entries = ps at orders here
    induction orders generalizing i with
    | nil => simp at here
    | cons head tail ih =>
        cases i with
        | zero =>
            obtain rfl := Option.some.inj here
            exact .cons (kept _ head) tail
        | succ i => exact .cons head (ih here)
  cases e with
  | fill i amount =>
      simp only [CoverWorld.move, Option.bind_eq_bind, Option.bind_eq_some_iff] at moved
      obtain ⟨o, here, moved⟩ := moved
      split at moved
      next allowed =>
        cases moved
        refine replaced here fun p held => ?_
        have live : o.live = true := by
          by_contra ended
          simp only [OwnOrder.remaining, ended, if_false] at allowed
          omega
        have room : o.remaining = o.quantity - o.filled := by
          have within := held.within
          simp only [OwnOrder.remaining, live, if_true]
          omega
        have bound := held.bound
        rw [OwnOrder.potential_of_live live held.within] at bound
        have within' : o.filled + amount ≤ o.quantity := by omega
        refine ⟨held.key, held.quantity, ?_, within', ?_⟩
        · have nonneg := held.filled
          simp only
          omega
        · rw [OwnOrder.potential_of_live (o := { o with filled := o.filled + amount }) live within']
          exact bound
      next => cases moved
  | finish i =>
      simp only [CoverWorld.move, Option.bind_eq_bind, Option.bind_eq_some_iff] at moved
      obtain ⟨o, here, moved⟩ := moved
      cases moved
      refine replaced here fun p held => ⟨held.key, held.quantity, held.filled, held.within, ?_⟩
      have before := held.bound
      have nonneg := o.remaining_nonneg
      rw [OwnOrder.potential_of_ended rfl]
      simp only [OwnOrder.potential] at before
      simp only
      omega
  | connect reached =>
      cases moved
      exact ⟨tracks.notes, tracks.orders, tracks.fits⟩

theorem sendsCover_place {sent : Bool} {op : BrokerOp} {answer : op.Answer} {req : OrderRequest}
    (sends : sendsCover sent op answer = some req) : op = .place req ∧ req.side = .buy := by
  unfold sendsCover at sends
  split at sends
  · split at sends
    next buy =>
      obtain rfl := Option.some.inj sends
      exact ⟨rfl, buy⟩
    · cases sends
  · split at sends
    next buy =>
      obtain rfl := Option.some.inj sends
      exact ⟨rfl, buy.1⟩
    · cases sends
  · cases sends

theorem finalReport_place (phase : CoverPhase) (req : OrderRequest) (answer : (BrokerOp.place req).Answer) :
    finalReport phase (.place req) answer = none := rfl

theorem rightReport_bounds {r : OrderReport} {o : OwnOrder} {e : Promise} (held : o.HeldTo e)
    (right : rightReport r o = true) (bounds : OrderReport.bounds r = true) :
    o.potential ≤ r.executedQuantity.atto ∧ 0 ≤ r.executedQuantity.atto ∧
      r.executedQuantity.atto ≤ e.quantity ∧ r.executedQuantity.atto ≤ e.bound := by
  have size := OwnOrder.potential_le_quantity held.within
  have quantity := held.quantity
  have bound := held.bound
  have filled := held.filled
  have same : o.potential = r.executedQuantity.atto := by
    unfold rightReport at right
    split at right
    next terminal =>
      simp only [Bool.and_eq_true, Bool.not_eq_true', beq_iff_eq] at right
      rw [OwnOrder.potential_of_ended right.1]
      exact right.2
    next live =>
      simp only [Bool.or_eq_true, Bool.not_eq_true', beq_iff_eq] at right
      simp only [OrderReport.bounds, live, Bool.or_eq_true, Bool.false_eq_true, false_or] at bounds
      exact right.resolve_left (by simp [bounds])
  have nonneg : 0 ≤ o.potential := by
    have more := o.remaining_nonneg
    simp only [OwnOrder.potential]
    omega
  omega

theorem settleLast_eq {entries : List Promise} {e : Promise} (here : entries.getLast? = some e) (executed : Int) :
    settleLast executed entries = entries.dropLast ++ [{ e with bound := executed }] := by
  simp [settleLast, here]

theorem totalOf_settleLast {entries : List Promise} {e : Promise} (here : entries.getLast? = some e)
    {executed : Int} (less : executed ≤ e.bound) (key : String) :
    totalOf (settleLast executed entries) key ≤ totalOf entries key := by
  have whole := eq_dropLast_append here
  rw [settleLast_eq here, totalOf_append]
  conv_rhs => rw [whole, totalOf_append]
  simp only [totalOf, List.map_cons, List.map_nil, List.sum_cons, List.sum_nil, add_zero]
  split
  · omega
  · omega

section Replies

variable [UnicodeCase] {spec : FlattenSpec} {venue : String}

omit [UnicodeCase] in
theorem Tracks.settled {g : CoverLog} {w : CoverWorld} {op : BrokerOp} {answer : op.Answer} (tracks : Tracks g w)
    (right : (finalReport w.notes.phase op answer).all (fun r => w.orders.getLast?.all (rightReport r)) = true) :
    List.Forall₂ OwnOrder.HeldTo w.orders (settledEntries g op answer) ∧
      ∀ key, totalOf (settledEntries g op answer) key ≤ totalOf g.entries key := by
  unfold settledEntries
  split
  next r final =>
    obtain ⟨reported, bounds⟩ := Option.filter_eq_some_iff.1 final
    rw [tracks.notes] at reported
    rw [reported, Option.all_some] at right
    cases last : g.entries.getLast? with
    | none =>
        have empty : g.entries = [] := List.getLast?_eq_none_iff.1 last
        simp only [settleLast, empty]
        exact ⟨by simpa [empty] using tracks.orders, fun key => le_refl _⟩
    | some e =>
        obtain ⟨o, lastOrder, held, front⟩ := forall₂_last tracks.orders last
        rw [lastOrder, Option.all_some] at right
        obtain ⟨enough, -, -, less⟩ := rightReport_bounds held right bounds
        refine ⟨?_, totalOf_settleLast last less⟩
        rw [settleLast_eq last]
        conv => arg 2; rw [eq_dropLast_append lastOrder]
        apply List.rel_append front
        exact .cons ⟨held.key, held.quantity, held.filled, held.within, enough⟩ .nil
  next => exact ⟨tracks.orders, fun key => le_refl _⟩

theorem Tracks.reply {g : CoverLog} {w w' : CoverWorld} {op : BrokerOp} {answer : op.Answer} (tracks : Tracks g w)
    (allowed : (coverLaw spec venue).allowed g op) (right : honest spec venue w op answer = true)
    (replied : w.reply spec venue op answer = some w') :
    ∃ g', (coverLaw spec venue).next g op answer g' ∧ Tracks g' w' := by
  simp only [honest, Bool.and_eq_true] at right
  obtain ⟨⟨sized, last⟩, answered⟩ := right
  obtain ⟨orders, less⟩ := tracks.settled last
  cases replied
  refine ⟨_, ⟨w.reached, ⟨?_, ?_, ?_⟩, rfl⟩, ?_, ?_, ?_⟩
  · intro req sends
    rw [sends, Option.all_some, decide_eq_true_eq] at sized
    exact sized
  · intro r final bounds e lastEntry
    obtain ⟨o, lastOrder, held, -⟩ := forall₂_last tracks.orders lastEntry
    rw [tracks.notes] at final
    rw [final, Option.all_some, lastOrder, Option.all_some] at last
    obtain ⟨-, nonneg, within, -⟩ := rightReport_bounds held last bounds
    exact ⟨nonneg, within⟩
  · rw [tracks.notes]
    exact answered
  · simp only [CoverLog.next, tracks.notes]
  · apply List.rel_append orders
    cases sends : sendsCover w.reached op answer with
    | none => exact .nil
    | some req =>
        rw [sends, Option.all_some, decide_eq_true_eq] at sized
        refine .cons ⟨rfl, rfl, le_refl 0, sized, ?_⟩ .nil
        exact (OwnOrder.potential_of_live rfl sized).le
  · intro key
    have grown := next_firstSeen_le spec venue w.reached g.notes op answer key
    refine le_trans ?_ grown
    change totalOf (settledEntries g op answer ++ _) key ≤ _
    rw [totalOf_append]
    cases sends : sendsCover w.reached op answer with
    | none => simpa [totalOf] using (less key).trans (tracks.fits key)
    | some req =>
        obtain ⟨rfl, buy⟩ := sendsCover_place sends
        have room := allowed req rfl buy
        have here := less key
        have fits := tracks.fits key
        simp only [Option.map_some, Option.toList_some, totalOf, List.map_cons, List.map_nil, List.sum_cons,
          List.sum_nil, add_zero, asPromise] at *
        split
        next same =>
          subst same
          omega
        next => omega

end Replies

end RebalancerRun
