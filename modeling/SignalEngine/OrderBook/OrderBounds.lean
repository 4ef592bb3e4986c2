import SignalEngine.Lib.Runs
import SignalEngine.OrderBook.Consistency

/-! # The bounds of resting orders

A new bid is checked against bounds on its price, its quantity and its id. A new ask,
an edit and a modification are checked in part or not at all. The calls that let an
order outside the bounds rest are exactly those that slip through. Arguments may be
infinite or NaN; finite quantities are subtracted exactly.
-/

namespace OrderBook

open FloatLike

namespace OrderEntryPool

variable {F : Type} {p p' : OrderEntryPool F}

def HasRoom (p : OrderEntryPool F) : Prop := p.freeIndices ≠ [] ∨ p.nextNew < p.capacity

theorem allocate_room (room : p.HasRoom) (orderId : Nat) (quantity : F) (timestamp : Nat) :
    ∃ index p', p.allocate orderId quantity timestamp = (some index, p') := by
  unfold allocate
  split
  next index rest _ => exact ⟨_, _, rfl⟩
  next listed =>
    have less : p.nextNew < p.capacity := room.resolve_left fun some => some listed
    rw [if_neg (not_le.2 less)]
    exact ⟨_, _, rfl⟩

theorem hasRoom_of_allocate {orderId timestamp index : Nat} {quantity : F}
    (allocated : p.allocate orderId quantity timestamp = (some index, p')) : p.HasRoom := by
  unfold allocate at allocated
  split at allocated
  next listed => exact .inl (by simp [listed])
  next =>
    split at allocated
    · cases allocated
    next less => exact .inr (not_le.1 less)

theorem get_allocate (sound : p.Sound) {orderId timestamp index : Nat} {quantity : F}
    (allocated : p.allocate orderId quantity timestamp = (some index, p')) (i : Nat) :
    p'.get i = if i = index then some ⟨orderId, quantity, timestamp⟩ else p.get i := by
  obtain ⟨sound', -, now, capacity⟩ := allocate_spec sound allocated
  have inside : index < p.capacity := capacity ▸ ((now index).2 (.inr rfl)).lt sound'
  have within : index < p.entries.length := by rwa [sound.sized]
  have entries : p'.entries = p.entries.set index (some ⟨orderId, quantity, timestamp⟩) := by
    unfold allocate at allocated
    split at allocated
    · cases allocated
      rfl
    · split at allocated
      · cases allocated
      · cases allocated
        rfl
  rw [← get_set within inside]
  unfold get
  rw [entries, capacity]

end OrderEntryPool

variable {F : Type} [FloatLike F]

/-- What `addLimitBid` checks; matching may leave less than the least quantity. -/
structure Bounded (reduced : Bool) (price : F) (orderId : Nat) (quantity : F) : Prop where
  leastPrice : ofRat (1 / 10 ^ 6) ≤ price
  mostPrice : price ≤ ofRat 10000000
  named : orderId ≠ 0
  positive : 0 < quantity
  most : quantity ≤ ofRat 1000000
  least : reduced = false → ofRat (1 / 10 ^ 8) ≤ quantity

namespace Orderbook

variable {b b' : Orderbook F} {side : OrderSide}

def Rests (b : Orderbook F) (side : OrderSide) (o : RestingOrder F) : Prop :=
  o.slot ∈ queueOf b.levels (side, o.price) ∧ b.entryPool.get o.slot = some o.entry

/-! ## What a call does to the resting orders -/

/-- One order rests with new contents, perhaps at a new place; the others are unchanged. -/
def Placed (b b' : Orderbook F) (side : OrderSide) (o : RestingOrder F) : Prop :=
  ∀ side' o', b'.Rests side' o' ↔ b.Rests side' o' ∧ o'.slot ≠ o.slot ∨ side' = side ∧ o' = o

/-- No order came in or changed. -/
def Fewer (b b' : Orderbook F) : Prop := ∀ side o, b'.Rests side o → b.Rests side o

theorem placed_of {o : RestingOrder F}
    (pool : ∀ i, b'.entryPool.get i = if i = o.slot then some o.entry else b.entryPool.get i)
    (queues : ∀ at_ j, j ∈ queueOf b'.levels at_ ↔
      j ∈ queueOf b.levels at_ ∧ j ≠ o.slot ∨ at_ = (side, o.price) ∧ j = o.slot) : b.Placed b' side o := by
  intro side' o'
  unfold Rests
  rw [queues, pool]
  by_cases own : o'.slot = o.slot
  · rw [if_pos own]
    simp only [own, ne_eq, not_true_eq_false, and_false, and_true, false_or, Option.some.injEq, Prod.mk.injEq]
    constructor
    · rintro ⟨⟨rfl, price⟩, entry⟩
      obtain ⟨_, _, _⟩ := o
      obtain ⟨_, _, _⟩ := o'
      simp_all
    · rintro ⟨rfl, rfl⟩
      exact ⟨⟨rfl, rfl⟩, rfl⟩
  · rw [if_neg own]
    constructor
    · rintro ⟨⟨among, -⟩ | ⟨-, same⟩, entry⟩
      · exact .inl ⟨⟨among, entry⟩, own⟩
      · exact absurd same own
    · rintro (⟨⟨among, entry⟩, -⟩ | ⟨-, rfl⟩)
      · exact ⟨.inl ⟨among, own⟩, entry⟩
      · exact absurd rfl own

theorem addOrder_placed (consistent : b.Consistent) (side : OrderSide) (price : F) (orderId : Nat) (quantity : F)
    (timestamp : Nat) (room : b.entryPool.HasRoom) :
    ∃ index, (b.addOrder side price orderId quantity timestamp).1 = .ok index ∧
      b.Placed (b.addOrder side price orderId quantity timestamp).2 side ⟨price, index, ⟨orderId, quantity, timestamp⟩⟩ := by
  obtain ⟨index, pool, allocated⟩ := OrderEntryPool.allocate_room room orderId quantity timestamp
  have content := OrderEntryPool.get_allocate consistent.agrees.sound allocated
  obtain ⟨-, unused, -, -⟩ := OrderEntryPool.allocate_spec consistent.agrees.sound allocated
  have nowhere (at_ : OrderSide × F) : index ∉ queueOf b.levels at_ := fun among =>
    unused ((consistent.agrees.shares.mem index).2 ⟨at_, among⟩)
  unfold addOrder
  rw [allocated]
  refine ⟨index, rfl, placed_of (fun i => ?_) fun at_ j => ?_⟩
  · dsimp only
    rw [pushBack, entryPool_setLevels]
    exact content i
  · dsimp only
    rw [queueOf_pushBack, Shares.mem_push]
    refine or_congr_left ⟨fun among => ⟨among, ?_⟩, And.left⟩
    rintro rfl
    exact nowhere at_ among

theorem addOrder_full (full : ¬ b.entryPool.HasRoom) (side : OrderSide) (price : F) (orderId : Nat) (quantity : F)
    (timestamp : Nat) :
    b.addOrder side price orderId quantity timestamp = (.error "Order pool capacity exceeded", b) := by
  unfold addOrder
  split
  next index pool allocated => exact absurd (OrderEntryPool.hasRoom_of_allocate allocated) full
  next => rfl

def found (b : Orderbook F) (side : OrderSide) (price : F) (orderId : Nat) : Option Nat :=
  (findOrder b.entryPool orderId (queueOf b.levels (side, price))).map Prod.snd

omit [FloatLike F] in
theorem findOrder_entry {p : OrderEntryPool F} {orderId : Nat} {orders : List Nat} {position index : Nat}
    (looked : findOrder p orderId orders = some (position, index)) :
    ∃ entry, p.get index = some entry ∧ entry.orderId = orderId := by
  induction orders generalizing position with
  | nil => cases looked
  | cons head rest ih =>
      unfold findOrder at looked
      split at looked
      next matched =>
        cases looked
        cases content : p.get index with
        | none => simp [content] at matched
        | some entry => exact ⟨entry, rfl, by simpa [content] using matched⟩
      · obtain ⟨⟨position', index'⟩, later, same⟩ := Option.map_eq_some_iff.1 looked
        obtain ⟨rfl, rfl⟩ := Prod.mk.inj same
        exact ih later

/-- An order that is found rests at that price. -/
theorem found_spec {price : F} {orderId index : Nat} (here : b.found side price orderId = some index) :
    ∃ position entry, findOrder b.entryPool orderId (queueOf b.levels (side, price)) = some (position, index) ∧
      (queueOf b.levels (side, price))[position]? = some index ∧ b.entryPool.get index = some entry ∧
      entry.orderId = orderId := by
  obtain ⟨⟨position, index'⟩, looked, rfl⟩ := Option.map_eq_some_iff.1 here
  obtain ⟨entry, content, same⟩ := findOrder_entry looked
  exact ⟨position, entry, looked, findOrder_spec looked, content, same⟩

theorem editLimit_found (consistent : b.Consistent) {price : F} {orderId index : Nat} {newQuantity : F}
    (here : b.found side price orderId = some index) (positive : ¬ newQuantity ≤ 0) (real : isNan price = false) :
    ∃ entry : OrderbookEntry F, entry.orderId = orderId ∧ entry.quantity = newQuantity ∧
      b.Placed (b.editLimit side price orderId newQuantity).2 side ⟨price, index, entry⟩ := by
  obtain ⟨position, entry, looked, place, content, same⟩ := found_spec here
  refine ⟨{ entry with quantity := newQuantity }, same, rfl, ?_⟩
  have edited : (b.editLimit side price orderId newQuantity).2 =
      { b with entryPool := (b.entryPool.getMut index fun entry => { entry with quantity := newQuantity }).2 } := by
    unfold editLimit
    rw [if_neg positive, if_neg (by simp [real])]
    cases level : (b.levels side).get price with
    | none =>
        unfold queueOf at looked
        rw [level] at looked
        cases looked
    | some orders =>
        unfold queueOf at looked
        rw [level] at looked
        dsimp only at looked ⊢
        rw [show findOrder b.entryPool orderId orders = some (position, index) from looked]
  rw [edited]
  refine placed_of (fun i => OrderEntryPool.get_getMut content _ i) fun at_ j => ?_
  have among := List.mem_of_getElem? place
  change j ∈ queueOf b.levels at_ ↔ _
  constructor
  · intro stands
    by_cases own : j = index
    · subst own
      exact .inr ⟨consistent.agrees.shares.apart stands among, rfl⟩
    · exact .inl ⟨stands, own⟩
  · rintro (⟨stands, -⟩ | ⟨rfl, rfl⟩)
    · exact stands
    · exact among

theorem editLimit_none {price : F} {orderId : Nat} {newQuantity : F}
    (nothing : newQuantity ≤ 0 ∨ isNan price = true ∨ b.found side price orderId = none) :
    (b.editLimit side price orderId newQuantity).2 = b := by
  unfold editLimit
  iterate 2 (split; · rfl)
  next positive real =>
    split
    · rfl
    next orders level =>
      have absent := (nothing.resolve_left positive).resolve_left real
      unfold found queueOf at absent
      rw [level, Option.map_eq_none_iff] at absent
      rw [show findOrder b.entryPool orderId orders = none from absent]

/-- What is checked of a new order: of an ask little, and nothing of a NaN quantity. -/
def Passes (side : OrderSide) (price : F) (orderId : Nat) (quantity : F) : Prop :=
  match side with
  | .bid =>
      (isFinite quantity = true ∧ ¬ quantity ≤ 0) ∧ (isFinite price = true ∧ ¬ price ≤ 0) ∧
        ¬ ofRat 1000000 < quantity ∧ ¬ ofRat 10000000 < price ∧ ¬ quantity < ofRat (1 / 10 ^ 8) ∧
        ¬ price < ofRat (1 / 10 ^ 6) ∧ orderId ≠ 0 ∧ isNan price = false
  | .ask => ¬ quantity ≤ 0 ∧ ¬ price ≤ 0 ∧ isNan price = false

def Places (b : Orderbook F) (side : OrderSide) (price : F) (orderId : Nat) (quantity : F) : Prop :=
  b.entryPool.HasRoom ∧ Passes side price orderId quantity

/-- An order that passes is added; another one changes nothing. -/
theorem addLimit_passes (b : Orderbook F) (side : OrderSide) (price : F) (orderId : Nat) (quantity : F)
    (timestamp : Nat) :
    (Passes side price orderId quantity ∧
      b.addLimit side price orderId quantity timestamp = b.addOrder side price orderId quantity timestamp) ∨
    ¬ Passes side price orderId quantity ∧ ∃ e, b.addLimit side price orderId quantity timestamp = (.error e, b) := by
  by_cases passes : Passes side price orderId quantity
  · refine .inl ⟨passes, ?_⟩
    cases side with
    | bid =>
        obtain ⟨⟨finite, positive⟩, ⟨finitePrice, priced⟩, most, mostPrice, least, leastPrice, named, real⟩ := passes
        simp only [addLimit, addLimitBid]
        rw [if_neg (by simp [finite, positive]), if_neg (by simp [finitePrice, priced]), if_neg most,
          if_neg mostPrice, if_neg least, if_neg leastPrice, if_neg named, if_neg (by simp [real])]
    | ask =>
        obtain ⟨positive, priced, real⟩ := passes
        simp only [addLimit, addLimitAsk]
        rw [if_neg positive, if_neg priced, if_neg (by simp [real])]
  · refine .inr ⟨passes, ?_⟩
    cases side with
    | bid =>
        simp only [addLimit, addLimitBid]
        iterate 8 (split; · exact ⟨_, rfl⟩)
        exact absurd (by simp_all [Passes]) passes
    | ask =>
        simp only [addLimit, addLimitAsk]
        iterate 3 (split; · exact ⟨_, rfl⟩)
        exact absurd (by simp_all [Passes]) passes

theorem addLimit_placed (consistent : b.Consistent) {price : F} {orderId : Nat} {quantity : F}
    (places : b.Places side price orderId quantity) (timestamp : Nat) :
    ∃ index, (b.addLimit side price orderId quantity timestamp).1 = .ok index ∧
      b.Placed (b.addLimit side price orderId quantity timestamp).2 side ⟨price, index, ⟨orderId, quantity, timestamp⟩⟩ := by
  rcases addLimit_passes b side price orderId quantity timestamp with ⟨-, added⟩ | ⟨fails, -⟩
  · rw [added]
    exact addOrder_placed consistent side price orderId quantity timestamp places.1
  · exact absurd places.2 fails

theorem addLimit_refused {price : F} {orderId : Nat} {quantity : F} (refused : ¬ b.Places side price orderId quantity)
    (timestamp : Nat) : ∃ e, b.addLimit side price orderId quantity timestamp = (.error e, b) := by
  rcases addLimit_passes b side price orderId quantity timestamp with ⟨passes, added⟩ | ⟨-, error⟩
  · rw [added]
    exact ⟨_, addOrder_full (fun room => refused ⟨room, passes⟩) side price orderId quantity timestamp⟩
  · exact error

theorem detach_found (b : Orderbook F) (side : OrderSide) (price : F) (orderId : Nat) :
    (b.detach side price orderId).1 = b.found side price orderId := by
  unfold detach found queueOf
  cases (b.levels side).get price with
  | none => rfl
  | some orders =>
      dsimp only [Option.getD_some]
      cases findOrder b.entryPool orderId orders with
      | none => rfl
      | some at_ => rfl

theorem modifyLimit_found (consistent : b.Consistent) {oldPrice : F} {orderId index : Nat}
    (here : b.found side oldPrice orderId = some index) {newPrice : F} (old : isNan oldPrice = false)
    (new : isNan newPrice = false) (newQuantity : F) (timestamp : Nat) :
    ∃ entry : OrderbookEntry F, entry.orderId = orderId ∧ entry.quantity = newQuantity ∧
      (b.modifyLimit side oldPrice orderId newPrice newQuantity timestamp).1 = .ok true ∧
      b.Placed (b.modifyLimit side oldPrice orderId newPrice newQuantity timestamp).2 side ⟨newPrice, index, entry⟩ := by
  obtain ⟨-, entry, -, -, content, same⟩ := found_spec here
  refine ⟨{ entry with quantity := newQuantity }, same, rfl, ?_⟩
  have taken := detach_found b side oldPrice orderId
  rw [here] at taken
  unfold modifyLimit
  rw [if_neg (by simp [old]), if_neg (by simp [new])]
  cases detached : b.detach side oldPrice orderId with
  | mk found' b₁ =>
      rw [detached] at taken
      rcases detach_spec detached with ⟨rfl, -⟩ | ⟨position, index', rfl, place, queue, pool, -⟩
      · cases taken
      obtain rfl : index' = index := Option.some.inj taken
      have occupied := consistent.agrees.shares.items_of_place place
      obtain ⟨-, -, -, updated⟩ := OrderEntryPool.getMut_spec consistent.agrees.sound index'
        fun entry => { entry with quantity := newQuantity }
      dsimp only
      rw [entryPool_pruneLevel, pool, updated occupied, if_pos rfl]
      refine ⟨rfl, placed_of (fun i => ?_) fun at_ j => ?_⟩
      · rw [pushBack, entryPool_setLevels]
        exact OrderEntryPool.get_getMut content _ i
      · rw [queueOf_pushBack, Shares.mem_push]
        change j ∈ queueOf (b₁.pruneLevel side oldPrice).levels at_ ∨ _ ↔ _
        rw [queueOf_pruneLevel, queue, consistent.agrees.shares.mem_take place]

theorem modifyLimit_absent (consistent : b.Consistent) {oldPrice newPrice newQuantity : F} {orderId : Nat}
    (absent : b.found side oldPrice orderId = none) (old : isNan oldPrice = false) (new : isNan newPrice = false)
    (timestamp : Nat) :
    b.modifyLimit side oldPrice orderId newPrice newQuantity timestamp =
      ((b.addLimit side newPrice orderId newQuantity timestamp).1.map fun _ => true,
        (b.addLimit side newPrice orderId newQuantity timestamp).2) := by
  have nothing := detach_found b side oldPrice orderId
  rw [absent] at nothing
  unfold modifyLimit
  rw [if_neg (by simp [old]), if_neg (by simp [new])]
  cases detached : b.detach side oldPrice orderId with
  | mk found' b₁ =>
      rw [detached] at nothing
      rcases detach_spec detached with ⟨rfl, rfl⟩ | ⟨_, _, rfl, -⟩
      · have pruned : b₁.pruneLevel side oldPrice = b₁ := by
          unfold pruneLevel
          rw [if_neg (consistent.full side oldPrice)]
        dsimp only
        rw [pruned]
        obtain ⟨outcome, after⟩ := b₁.addLimit side newPrice orderId newQuantity timestamp
        cases outcome with
        | ok index => rfl
        | error e => rfl
      · cases nothing

theorem modifyLimit_nan {oldPrice newPrice newQuantity : F} {orderId timestamp : Nat}
    (nan : (isNan oldPrice || isNan newPrice) = true) :
    ∃ e, b.modifyLimit side oldPrice orderId newPrice newQuantity timestamp = (.error e, b) := by
  unfold modifyLimit
  split
  · exact ⟨_, rfl⟩
  next old =>
    rw [if_pos ((Bool.or_eq_true _ _ ▸ nan).resolve_left old)]
    exact ⟨_, rfl⟩

theorem removeLimit_fewer (consistent : b.Consistent) (side : OrderSide) (price : F) (orderId : Nat) :
    b.Fewer (b.removeLimit side price orderId).2 := by
  unfold removeLimit
  split
  · exact fun _ _ rests => rests
  cases detached : b.detach side price orderId with
  | mk found' b₁ =>
      rcases detach_spec detached with ⟨rfl, rfl⟩ | ⟨position, index, rfl, place, queue, pool, -⟩
      · exact fun _ _ rests => rests
      · intro side' o' rests
        unfold Rests at rests
        dsimp only at rests
        rw [queueOf_pruneLevel, entryPool_pruneLevel, pool] at rests
        change o'.slot ∈ queueOf b₁.levels (side', o'.price) ∧ _ at rests
        rw [queue, consistent.agrees.shares.mem_take place] at rests
        obtain ⟨⟨among, other⟩, content⟩ := rests
        obtain ⟨entry, here⟩ := Option.isSome_iff_exists.1
          (OrderEntryPool.isSome_get consistent.agrees.sound (consistent.agrees.shares.items_of_place place))
        rw [OrderEntryPool.get_free here, if_neg other] at content
        exact ⟨among, content⟩

/-! ## What a match leaves -/

/-- What is left of a quantity: all of it, or a positive part. -/
def Shrinks (quantity quantity' : FloatArg) : Prop :=
  quantity' = quantity ∨ ∃ a b : ℚ, quantity = .finite a ∧ quantity' = .finite b ∧ 0 < b ∧ b < a

theorem Shrinks.trans {x y z : FloatArg} (first : Shrinks x y) (second : Shrinks y z) : Shrinks x z := by
  rcases second with rfl | ⟨b, c, rfl, rfl, some, less⟩
  · exact first
  · rcases first with same | ⟨a, b', rfl, same, -, more⟩
    · exact .inr ⟨b, c, same.symm, rfl, some, less⟩
    · obtain rfl := FloatArg.finite.inj same
      exact .inr ⟨a, c, rfl, rfl, some, less.trans more⟩

/-- An order that is not used up keeps a part, and one with an infinite or a NaN quantity
    keeps that. -/
theorem shrinks_part {quantity remaining : FloatArg} (wanted : 0 < remaining)
    (more : ¬ quantity ≤ min quantity remaining) : Shrinks quantity (quantity - min quantity remaining) := by
  cases quantity with
  | finite q =>
      cases remaining with
      | finite r =>
          have least : min (FloatArg.finite q) (FloatArg.finite r) = .finite (min q r) := by
            change (if decide (q ≤ r) = true then FloatArg.finite q else FloatArg.finite r) = _
            rw [min_def]
            split <;> simp_all
          rw [least, FloatArg.finite_le_finite, le_min_iff, not_and] at more
          have less : r < q := not_le.1 (more le_rfl)
          have some : 0 < r := (FloatArg.finite_lt_finite 0 r).1 wanted
          rw [least, min_eq_right less.le, FloatArg.finite_sub_finite]
          exact .inr ⟨q, q - r, rfl, rfl, sub_pos.2 less, sub_lt_self q some⟩
      | infinite negative =>
          cases negative with
          | false => exact absurd ((FloatArg.finite_le_finite q q).2 le_rfl) more
          | true => cases wanted
      | nan => cases wanted
  | infinite negative =>
      cases negative with
      | false =>
          cases remaining with
          | finite r => exact .inl rfl
          | infinite negative => cases negative <;> first | exact absurd rfl more | cases wanted
          | nan => cases wanted
      | true =>
          cases remaining with
          | finite r => exact absurd rfl more
          | infinite negative => exact absurd rfl more
          | nan => cases wanted
  | nan => exact .inl rfl

/-- No order came in, and of each one something is left. -/
def Thinned (b b' : Orderbook FloatArg) : Prop :=
  ∀ side o', b'.Rests side o' → ∃ o, b.Rests side o ∧ o.price = o'.price ∧ o.slot = o'.slot ∧
    o.entry.orderId = o'.entry.orderId ∧ Shrinks o.quantity o'.quantity

theorem Thinned.refl (b : Orderbook FloatArg) : b.Thinned b := fun _ o' rests => ⟨o', rests, rfl, rfl, rfl, .inl rfl⟩

/-- The same for a pool. -/
def Reduces (p p' : OrderEntryPool FloatArg) : Prop :=
  ∀ i entry', p'.get i = some entry' →
    ∃ entry, p.get i = some entry ∧ entry.orderId = entry'.orderId ∧ Shrinks entry.quantity entry'.quantity

theorem Reduces.refl (p : OrderEntryPool FloatArg) : Reduces p p := fun _ entry' here => ⟨entry', here, rfl, .inl rfl⟩

theorem Reduces.trans {p p' p'' : OrderEntryPool FloatArg} (first : Reduces p p') (second : Reduces p' p'') :
    Reduces p p'' := by
  intro i entry'' here
  obtain ⟨entry', here', id', less'⟩ := second i entry'' here
  obtain ⟨entry, here, id, less⟩ := first i entry' here'
  exact ⟨entry, here, id.trans id', less.trans less'⟩

theorem reduces_free (p : OrderEntryPool FloatArg) (index : Nat) : Reduces p (p.free index) := by
  intro i entry' here
  refine ⟨entry', ?_, rfl, .inl rfl⟩
  unfold OrderEntryPool.free at here
  split at here
  · exact here
  · unfold OrderEntryPool.get at here ⊢
    dsimp only at here
    split at here
    · cases here
    next inside =>
      rw [if_neg inside]
      by_cases own : i = index
      · subst own
        obtain ⟨within, empty⟩ := List.getElem?_eq_some_iff.1 (Option.join_eq_some_iff.1 here)
        simp at empty
      · rwa [List.getElem?_set_ne (Ne.symm own)] at here

theorem reduces_getMut {p : OrderEntryPool FloatArg} {index : Nat} {entry : OrderbookEntry FloatArg}
    (here : p.get index = some entry) {quantity : FloatArg} (less : Shrinks entry.quantity quantity) :
    Reduces p (p.getMut index fun entry => { entry with quantity }).2 := by
  intro i entry' now
  rw [OrderEntryPool.get_getMut here] at now
  split at now
  next own =>
    subst own
    obtain rfl := Option.some.inj now
    exact ⟨entry, here, rfl, less⟩
  next => exact ⟨entry', now, rfl, .inl rfl⟩

theorem fillOrders_reduces (price : FloatArg) : ∀ (orders : List Nat) (i : Nat) (f : Fills FloatArg),
    Reduces f.pool (fillOrders price orders i f).2.pool := by
  intro orders
  induction orders with
  | nil => exact fun _ f => .refl f.pool
  | cons index rest ih =>
      intro i f
      unfold fillOrders
      split
      next wanted =>
        split
        · exact ih (i + 1) f
        next order here =>
          dsimp only
          split
          · exact ih (i + 1) _
          next more => exact (reduces_getMut here (shrinks_part wanted more)).trans (ih (i + 1) _)
      next => exact .refl f.pool

theorem removeUsed_reduces (used orders : List Nat) (p : OrderEntryPool FloatArg) :
    (removeUsed used orders p).1 ⊆ orders ∧ Reduces p (removeUsed used orders p).2 := by
  unfold removeUsed
  generalize used.reverse = positions
  induction positions generalizing orders p with
  | nil => exact ⟨List.Subset.refl _, .refl p⟩
  | cons position positions ih =>
      rw [List.foldl_cons]
      unfold dropAt
      split
      next index here =>
        obtain ⟨fewer, reduces⟩ := ih (orders.eraseIdx position) (p.free index)
        exact ⟨List.Subset.trans fewer (List.eraseIdx_subset ..), (reduces_free p index).trans reduces⟩
      next => exact ih orders p

/-- Queues and entries got shorter on the way through the levels. -/
structure Consumes (s s' : Sweep FloatArg) : Prop where
  queues : ∀ price, (s'.levels.get price).getD [] ⊆ (s.levels.get price).getD []
  pool : Reduces s.fills.pool s'.fills.pool

theorem sweepLevel_consumes (s : Sweep FloatArg) (price : FloatArg) : Consumes s (sweepLevel s price) := by
  unfold sweepLevel
  split
  · exact ⟨fun _ => List.Subset.refl _, .refl _⟩
  next orders level =>
    obtain ⟨fewer, reduces⟩ := removeUsed_reduces (fillOrders price orders 0 s.fills).1 orders
      (fillOrders price orders 0 s.fills).2.pool
    refine ⟨fun price' => ?_, (fillOrders_reduces price orders 0 s.fills).trans reduces⟩
    dsimp only
    rw [Registry.get_insert]
    split
    next own =>
      subst own
      rw [level]
      exact fewer
    next => exact List.Subset.refl _

theorem sweep_consumes : ∀ (prices : List FloatArg) (s : Sweep FloatArg), Consumes s (sweep prices s) := by
  intro prices
  induction prices with
  | nil => exact fun s => ⟨fun _ => List.Subset.refl _, .refl _⟩
  | cons price prices ih =>
      intro s
      unfold sweep
      split
      · exact ⟨fun _ => List.Subset.refl _, .refl _⟩
      · have first := sweepLevel_consumes s price
        have rest := ih (sweepLevel s price)
        exact ⟨fun price' => List.Subset.trans (rest.queues price') (first.queues price'), first.pool.trans rest.pool⟩

theorem matchMarket_thinned (b : Orderbook FloatArg) (resting : OrderSide) (priceLimit quantity : FloatArg)
    (elapsed : Nat) : b.Thinned (b.matchMarket resting priceLimit quantity elapsed).2 := by
  unfold matchMarket
  iterate 3 (split; · exact .refl b)
  have consumes := sweep_consumes (eligiblePrices (b.levels resting) resting priceLimit)
    ⟨b.levels resting, ⟨quantity, 0, 0, b.entryPool⟩, []⟩
  dsimp only
  generalize sweep (eligiblePrices (b.levels resting) resting priceLimit)
    ⟨b.levels resting, ⟨quantity, 0, 0, b.entryPool⟩, []⟩ = s at consumes ⊢
  rintro side o' ⟨among, here'⟩
  obtain ⟨entry, here, id, less⟩ := consumes.pool o'.slot o'.entry here'
  refine ⟨⟨o'.price, o'.slot, entry⟩, ⟨?_, here⟩, rfl, rfl, id, less⟩
  change o'.slot ∈ queueOf (b.setLevels resting (s.emptied.foldl Registry.erase s.levels)).levels (side, o'.price) at among
  unfold queueOf at among ⊢
  rw [levels_setLevels] at among
  split at among
  next own =>
    dsimp only at own among ⊢
    subst own
    rw [get_eraseAll] at among
    split at among
    · cases among
    · exact consumes.queues o'.price among
  next => exact among

/-! ## The history -/

def slotAdded (b : Orderbook F) (side : OrderSide) (price : F) (orderId : Nat) (quantity : F) (timestamp : Nat) :
    Option Nat := (b.addLimit side price orderId quantity timestamp).1.toOption

def slotEdited (b : Orderbook F) (side : OrderSide) (price : F) (orderId : Nat) (newQuantity : F) : Option Nat :=
  if newQuantity ≤ 0 ∨ isNan price = true then none else b.found side price orderId

def slotModified (b : Orderbook F) (side : OrderSide) (oldPrice : F) (orderId : Nat) (newPrice newQuantity : F)
    (timestamp : Nat) : Option Nat :=
  if isNan oldPrice || isNan newPrice then none
  else (b.found side oldPrice orderId).or (b.slotAdded side newPrice orderId newQuantity timestamp)

def slotSet (b : Orderbook F) : BookCall F → Option Nat
  | .addLimitBid price orderId quantity timestamp => b.slotAdded .bid price orderId quantity timestamp
  | .addLimitAsk price orderId quantity timestamp => b.slotAdded .ask price orderId quantity timestamp
  | .removeLimitBid .. => none
  | .removeLimitAsk .. => none
  | .editLimitBid price orderId newQuantity => b.slotEdited .bid price orderId newQuantity
  | .editLimitAsk price orderId newQuantity => b.slotEdited .ask price orderId newQuantity
  | .modifyLimitBid oldPrice orderId newPrice newQuantity timestamp =>
      b.slotModified .bid oldPrice orderId newPrice newQuantity timestamp
  | .modifyLimitAsk oldPrice orderId newPrice newQuantity timestamp =>
      b.slotModified .ask oldPrice orderId newPrice newQuantity timestamp
  | .matchMarketBid .. => none
  | .matchMarketAsk .. => none

def isMatch : BookCall F → Bool
  | .matchMarketBid .. | .matchMarketAsk .. => true
  | _ => false

def lessIn (p p' : OrderEntryPool F) (i : Nat) : Bool :=
  match p.get i, p'.get i with
  | some entry, some entry' => decide (entry'.quantity < entry.quantity)
  | _, _ => false

/-! ## The calls that slip through -/

/-- A new ask that is accepted is within the bounds. -/
def SafeAdd (b : Orderbook F) (side : OrderSide) (price : F) (orderId : Nat) (quantity : F) : Prop :=
  match side with
  | .bid => True
  | .ask => b.Places .ask price orderId quantity → Bounded false price orderId quantity

def SafeEdit (b : Orderbook F) (side : OrderSide) (price : F) (orderId : Nat) (newQuantity : F) : Prop :=
  ¬ newQuantity ≤ 0 → isNan price = false → (b.found side price orderId).isSome →
    Bounded false price orderId newQuantity

/-- An order is moved to a price and given a quantity within the bounds. -/
def SafeModify (b : Orderbook F) (side : OrderSide) (oldPrice : F) (orderId : Nat) (newPrice newQuantity : F) : Prop :=
  isNan oldPrice = false → isNan newPrice = false →
    if (b.found side oldPrice orderId).isSome then Bounded false newPrice orderId newQuantity
    else b.SafeAdd side newPrice orderId newQuantity

def Safe (b : Orderbook F) : BookCall F → Prop
  | .addLimitBid price orderId quantity _ => b.SafeAdd .bid price orderId quantity
  | .addLimitAsk price orderId quantity _ => b.SafeAdd .ask price orderId quantity
  | .editLimitBid price orderId newQuantity => b.SafeEdit .bid price orderId newQuantity
  | .editLimitAsk price orderId newQuantity => b.SafeEdit .ask price orderId newQuantity
  | .modifyLimitBid oldPrice orderId newPrice newQuantity _ =>
      b.SafeModify .bid oldPrice orderId newPrice newQuantity
  | .modifyLimitAsk oldPrice orderId newPrice newQuantity _ =>
      b.SafeModify .ask oldPrice orderId newPrice newQuantity
  | .removeLimitBid .. | .removeLimitAsk .. | .matchMarketBid .. | .matchMarketAsk .. => True

/-- A call sets one order, safely when that is within the bounds, or it sets none. -/
def Sets (b b' : Orderbook F) (slot : Option Nat) (safe : Prop) : Prop :=
  (∃ side o, slot = some o.slot ∧ b.Placed b' side o ∧ (safe ↔ Bounded false o.price o.entry.orderId o.quantity)) ∨
    slot = none ∧ b.Fewer b' ∧ safe

section Floats

variable {b : Orderbook FloatArg}

theorem bounded_of_passes {price quantity : FloatArg} {orderId : Nat} (passes : Passes .bid price orderId quantity) :
    Bounded false price orderId quantity := by
  obtain ⟨⟨finite, positive⟩, ⟨finitePrice, -⟩, most, mostPrice, least, leastPrice, named, -⟩ := passes
  cases quantity with
  | finite q =>
      cases price with
      | finite p =>
          have lt (x y : ℚ) (fails : ¬ FloatArg.finite x < .finite y) : FloatArg.finite y ≤ .finite x :=
            (FloatArg.finite_le_finite y x).2 (not_lt.1 ((FloatArg.finite_lt_finite x y).not.1 fails))
          exact {
            leastPrice := lt p _ leastPrice
            mostPrice := lt _ p mostPrice
            named
            positive := (FloatArg.finite_lt_finite 0 q).2 (not_le.1 ((FloatArg.finite_le_finite q 0).not.1 positive))
            most := lt _ q most
            least := fun _ => lt q _ least }
      | infinite negative => cases finitePrice
      | nan => cases finitePrice
  | infinite negative => cases finite
  | nan => cases finite

theorem addLimit_sets (consistent : b.Consistent) (side : OrderSide) (price : FloatArg) (orderId : Nat)
    (quantity : FloatArg) (timestamp : Nat) :
    b.Sets (b.addLimit side price orderId quantity timestamp).2 (b.slotAdded side price orderId quantity timestamp)
      (b.SafeAdd side price orderId quantity) := by
  unfold slotAdded
  by_cases places : b.Places side price orderId quantity
  · obtain ⟨index, placed, now⟩ := addLimit_placed consistent places timestamp
    refine .inl ⟨side, _, ?_, now, ?_⟩
    · rw [placed]
      rfl
    · cases side with
      | bid => exact iff_of_true trivial (bounded_of_passes places.2)
      | ask => exact ⟨fun safe => safe places, fun bounded _ => bounded⟩
  · obtain ⟨e, refused⟩ := addLimit_refused places timestamp
    rw [refused]
    refine .inr ⟨rfl, fun _ _ rests => rests, ?_⟩
    cases side with
    | bid => trivial
    | ask => exact fun accepted => absurd accepted places

theorem editLimit_sets (consistent : b.Consistent) (side : OrderSide) (price : FloatArg) (orderId : Nat)
    (newQuantity : FloatArg) :
    b.Sets (b.editLimit side price orderId newQuantity).2 (b.slotEdited side price orderId newQuantity)
      (b.SafeEdit side price orderId newQuantity) := by
  unfold slotEdited SafeEdit
  by_cases refused : newQuantity ≤ 0 ∨ isNan price = true
  · rw [if_pos refused, editLimit_none (refused.imp_right .inl)]
    refine .inr ⟨rfl, fun _ _ rests => rests, fun positive real => ?_⟩
    rw [real] at refused
    exact absurd (refused.resolve_right Bool.false_ne_true) positive
  · rw [if_neg refused]
    obtain ⟨positive, real⟩ := not_or.1 refused
    rw [Bool.not_eq_true] at real
    cases here : b.found side price orderId with
    | none =>
        rw [editLimit_none (.inr (.inr here))]
        exact .inr ⟨rfl, fun _ _ rests => rests, fun _ _ => nofun⟩
    | some index =>
        obtain ⟨entry, rfl, rfl, now⟩ := editLimit_found consistent here positive real
        refine .inl ⟨side, _, rfl, now, ?_⟩
        exact ⟨fun safe => safe positive real rfl, fun bounded _ _ _ => bounded⟩

theorem modifyLimit_sets (consistent : b.Consistent) (side : OrderSide) (oldPrice : FloatArg) (orderId : Nat)
    (newPrice newQuantity : FloatArg) (timestamp : Nat) :
    b.Sets (b.modifyLimit side oldPrice orderId newPrice newQuantity timestamp).2
      (b.slotModified side oldPrice orderId newPrice newQuantity timestamp)
      (b.SafeModify side oldPrice orderId newPrice newQuantity) := by
  unfold slotModified SafeModify
  by_cases nan : (isNan oldPrice || isNan newPrice) = true
  · obtain ⟨e, refused⟩ := @modifyLimit_nan _ _ b side oldPrice newPrice newQuantity orderId timestamp nan
    rw [if_pos nan, refused]
    refine .inr ⟨rfl, fun _ _ rests => rests, fun old new => ?_⟩
    rw [old, new] at nan
    cases nan
  · rw [if_neg nan]
    obtain ⟨old, new⟩ := Bool.or_eq_false_iff.1 (Bool.not_eq_true _ ▸ nan)
    rw [old, new]
    simp only [forall_const]
    cases here : b.found side oldPrice orderId with
    | none =>
        rw [modifyLimit_absent consistent here old new, Option.none_or, if_neg (by simp)]
        exact addLimit_sets consistent side newPrice orderId newQuantity timestamp
    | some index =>
        obtain ⟨entry, rfl, rfl, -, now⟩ := modifyLimit_found consistent here old new newQuantity timestamp
        rw [Option.some_or, if_pos (show (some index).isSome = true from rfl)]
        exact .inl ⟨side, _, rfl, now, Iff.rfl⟩

theorem step_sets (consistent : b.Consistent) {call : BookCall FloatArg} (other : isMatch call = false) :
    b.Sets (b.step call) (b.slotSet call) (b.Safe call) := by
  cases call with
  | addLimitBid price orderId quantity timestamp => exact addLimit_sets consistent .bid price orderId quantity timestamp
  | addLimitAsk price orderId quantity timestamp => exact addLimit_sets consistent .ask price orderId quantity timestamp
  | removeLimitBid price orderId => exact .inr ⟨rfl, removeLimit_fewer consistent .bid price orderId, trivial⟩
  | removeLimitAsk price orderId => exact .inr ⟨rfl, removeLimit_fewer consistent .ask price orderId, trivial⟩
  | editLimitBid price orderId newQuantity => exact editLimit_sets consistent .bid price orderId newQuantity
  | editLimitAsk price orderId newQuantity => exact editLimit_sets consistent .ask price orderId newQuantity
  | modifyLimitBid oldPrice orderId newPrice newQuantity timestamp =>
      exact modifyLimit_sets consistent .bid oldPrice orderId newPrice newQuantity timestamp
  | modifyLimitAsk oldPrice orderId newPrice newQuantity timestamp =>
      exact modifyLimit_sets consistent .ask oldPrice orderId newPrice newQuantity timestamp
  | matchMarketBid priceLimit quantity elapsed => cases other
  | matchMarketAsk priceLimit quantity elapsed => cases other

theorem step_thinned (b : Orderbook FloatArg) {call : BookCall FloatArg} (own : isMatch call = true) :
    b.Thinned (b.step call) ∧ b.slotSet call = none ∧ b.Safe call := by
  cases call with
  | matchMarketBid priceLimit quantity elapsed => exact ⟨matchMarket_thinned b .ask priceLimit quantity elapsed, rfl, trivial⟩
  | matchMarketAsk priceLimit quantity elapsed => exact ⟨matchMarket_thinned b .bid priceLimit quantity elapsed, rfl, trivial⟩
  | _ => cases own

end Floats

/-- A book, and for each slot whether a match reduced the order since its quantity was
    last set. -/
structure Watched where
  book : Orderbook FloatArg
  reduced : Nat → Bool

namespace Watched

def new (capacity : Nat) : Watched := ⟨.new capacity, fun _ => false⟩

def step (w : Watched) (call : BookCall FloatArg) : Watched where
  book := w.book.step call
  reduced i :=
    if w.book.slotSet call = some i then false
    else w.reduced i || isMatch call && lessIn w.book.entryPool (w.book.step call).entryPool i

def InBounds (w : Watched) : Prop :=
  ∀ side o, w.book.Rests side o → Bounded (w.reduced o.slot) o.price o.entry.orderId o.quantity

variable {w : Watched}

theorem step_inBounds (consistent : w.book.Consistent) (bounded : w.InBounds) (call : BookCall FloatArg) :
    (w.step call).InBounds ↔ w.book.Safe call := by
  cases kind : isMatch call with
  | false =>
      rcases step_sets consistent kind with ⟨side, o, slot, placed, safe⟩ | ⟨slot, fewer, safe⟩
      · have cleared : (w.step call).reduced o.slot = false := by simp [step, slot]
        have kept (i : Nat) (other : i ≠ o.slot) : (w.step call).reduced i = w.reduced i := by
          simp [step, slot, kind, Ne.symm other]
        rw [safe]
        constructor
        · intro after
          have own := after side o ((placed side o).2 (.inr ⟨rfl, rfl⟩))
          rwa [cleared] at own
        · intro inside side' o' rests
          rcases (placed side' o').1 rests with ⟨before, other⟩ | ⟨-, rfl⟩
          · rw [kept o'.slot other]
            exact bounded side' o' before
          · rw [cleared]
            exact inside
      · refine iff_of_true (fun side o rests => ?_) safe
        have kept : (w.step call).reduced o.slot = w.reduced o.slot := by simp [step, slot, kind]
        rw [kept]
        exact bounded side o (fewer side o rests)
  | true =>
      obtain ⟨thinned, slot, safe⟩ := step_thinned w.book kind
      refine iff_of_true (fun side o' rests => ?_) safe
      obtain ⟨o, before, price, same, orderId, less⟩ := thinned side o' rests
      have old := bounded side o before
      have reduced : (w.step call).reduced o'.slot =
          (w.reduced o.slot || decide (o'.quantity < o.quantity)) := by
        have entry : w.book.entryPool.get o'.slot = Option.some o.entry := same ▸ before.2
        have entry' : (w.book.step call).entryPool.get o'.slot = Option.some o'.entry := rests.2
        simp only [step, slot, kind, lessIn, entry, entry', same]
        rfl
      rw [← price, ← orderId, reduced]
      rcases less with unchanged | ⟨q, q', quantity, quantity', some, less⟩
      · rw [unchanged]
        exact { old with least := fun unreduced => old.least (Bool.or_eq_false_iff.1 unreduced).1 }
      · have most : q ≤ 1000000 := (FloatArg.finite_le_finite q _).1 (quantity ▸ old.most)
        have smaller : o'.quantity < o.quantity := by
          rw [quantity, quantity']
          exact (FloatArg.finite_lt_finite q' q).2 less
        exact { old with
          positive := quantity' ▸ (FloatArg.finite_lt_finite 0 q').2 some
          most := quantity' ▸ (FloatArg.finite_le_finite q' _).2 (less.le.trans most)
          least := fun unreduced => by simp [smaller] at unreduced }

end Watched

/-! ## Errors -/

def answer (b : Orderbook F) : BookCall F → Except String Unit
  | .addLimitBid price orderId quantity timestamp => (b.addLimitBid price orderId quantity timestamp).1.map fun _ => ()
  | .addLimitAsk price orderId quantity timestamp => (b.addLimitAsk price orderId quantity timestamp).1.map fun _ => ()
  | .removeLimitBid price orderId => (b.removeLimitBid price orderId).1.map fun _ => ()
  | .removeLimitAsk price orderId => (b.removeLimitAsk price orderId).1.map fun _ => ()
  | .editLimitBid price orderId newQuantity => (b.editLimitBid price orderId newQuantity).1.map fun _ => ()
  | .editLimitAsk price orderId newQuantity => (b.editLimitAsk price orderId newQuantity).1.map fun _ => ()
  | .modifyLimitBid oldPrice orderId newPrice newQuantity timestamp =>
      (b.modifyLimitBid oldPrice orderId newPrice newQuantity timestamp).1.map fun _ => ()
  | .modifyLimitAsk oldPrice orderId newPrice newQuantity timestamp =>
      (b.modifyLimitAsk oldPrice orderId newPrice newQuantity timestamp).1.map fun _ => ()
  | .matchMarketBid priceLimit quantity elapsed => (b.matchMarketBid priceLimit quantity elapsed).1.map fun _ => ()
  | .matchMarketAsk priceLimit quantity elapsed => (b.matchMarketAsk priceLimit quantity elapsed).1.map fun _ => ()

/-- A pair of an answer and a book is an error only with the old book. -/
def Unchanged {α : Type} (b : Orderbook F) (result : Except String α × Orderbook F) : Prop :=
  ∀ e, result.1 = .error e → result.2 = b

theorem Unchanged.of_map {α : Type} {result : Except String α × Orderbook F} (unchanged : b.Unchanged result)
    {e : String} (refused : (result.1.map fun _ => ()) = .error e) : result.2 = b := by
  obtain ⟨outcome, after⟩ := result
  cases outcome with
  | ok a => cases refused
  | error e' => exact unchanged e' rfl

theorem addLimit_unchanged (consistent : b.Consistent) (side : OrderSide) (price : F) (orderId : Nat) (quantity : F)
    (timestamp : Nat) : b.Unchanged (b.addLimit side price orderId quantity timestamp) := by
  intro e refused
  by_cases places : b.Places side price orderId quantity
  · obtain ⟨index, placed, -⟩ := addLimit_placed consistent places timestamp
    rw [placed] at refused
    cases refused
  · obtain ⟨e', same⟩ := addLimit_refused places timestamp
    rw [same]

theorem removeLimit_unchanged (side : OrderSide) (price : F) (orderId : Nat) :
    b.Unchanged (b.removeLimit side price orderId) := by
  intro e refused
  unfold removeLimit at refused ⊢
  split
  · rfl
  next real =>
    rw [if_neg real] at refused
    split at refused
    · cases refused
    · cases refused

theorem editLimit_unchanged (side : OrderSide) (price : F) (orderId : Nat) (newQuantity : F) :
    b.Unchanged (b.editLimit side price orderId newQuantity) := by
  intro e refused
  unfold editLimit at refused
  split at refused
  next none => exact editLimit_none (.inl none)
  split at refused
  next nan => exact editLimit_none (.inr (.inl nan))
  split at refused
  · cases refused
  split at refused
  · cases refused
  · cases refused

theorem modifyLimit_unchanged (consistent : b.Consistent) (side : OrderSide) (oldPrice : F) (orderId : Nat)
    (newPrice newQuantity : F) (timestamp : Nat) :
    b.Unchanged (b.modifyLimit side oldPrice orderId newPrice newQuantity timestamp) := by
  intro e refused
  by_cases nan : (isNan oldPrice || isNan newPrice) = true
  · obtain ⟨e', same⟩ := @modifyLimit_nan _ _ b side oldPrice newPrice newQuantity orderId timestamp nan
    rw [same]
  obtain ⟨old, new⟩ := Bool.or_eq_false_iff.1 (Bool.not_eq_true _ ▸ nan)
  cases here : b.found side oldPrice orderId with
  | none =>
      rw [modifyLimit_absent consistent here old new] at refused ⊢
      have kept := addLimit_unchanged consistent side newPrice orderId newQuantity timestamp
      dsimp only at refused ⊢
      generalize b.addLimit side newPrice orderId newQuantity timestamp = result at refused kept ⊢
      obtain ⟨outcome, after⟩ := result
      cases outcome with
      | ok index => cases refused
      | error e' => exact kept e' rfl
  | some index =>
      obtain ⟨-, -, -, answered, -⟩ := modifyLimit_found consistent here old new newQuantity timestamp
      rw [answered] at refused
      cases refused

theorem matchMarket_unchanged (resting : OrderSide) (priceLimit quantity : F) (elapsed : Nat) :
    b.Unchanged (b.matchMarket resting priceLimit quantity elapsed) := by
  intro e refused
  unfold matchMarket at refused ⊢
  iterate 3 (split; · rfl)
  next demanded limited real =>
    rw [if_neg demanded, if_neg limited, if_neg real] at refused
    cases refused

theorem step_unchanged (consistent : b.Consistent) {call : BookCall F} {e : String} (refused : b.answer call = .error e) :
    b.step call = b := by
  cases call with
  | addLimitBid price orderId quantity timestamp =>
      exact (addLimit_unchanged consistent .bid price orderId quantity timestamp).of_map refused
  | addLimitAsk price orderId quantity timestamp =>
      exact (addLimit_unchanged consistent .ask price orderId quantity timestamp).of_map refused
  | removeLimitBid price orderId => exact (removeLimit_unchanged .bid price orderId).of_map refused
  | removeLimitAsk price orderId => exact (removeLimit_unchanged .ask price orderId).of_map refused
  | editLimitBid price orderId newQuantity => exact (editLimit_unchanged .bid price orderId newQuantity).of_map refused
  | editLimitAsk price orderId newQuantity => exact (editLimit_unchanged .ask price orderId newQuantity).of_map refused
  | modifyLimitBid oldPrice orderId newPrice newQuantity timestamp =>
      exact (modifyLimit_unchanged consistent .bid oldPrice orderId newPrice newQuantity timestamp).of_map refused
  | modifyLimitAsk oldPrice orderId newPrice newQuantity timestamp =>
      exact (modifyLimit_unchanged consistent .ask oldPrice orderId newPrice newQuantity timestamp).of_map refused
  | matchMarketBid priceLimit quantity elapsed =>
      exact (matchMarket_unchanged .ask priceLimit quantity elapsed).of_map refused
  | matchMarketAsk priceLimit quantity elapsed =>
      exact (matchMarket_unchanged .bid priceLimit quantity elapsed).of_map refused

/-! ## Every run -/

/-- Only orders within the bounds rest in every state of a run exactly when all its calls
    are safe, and a call that answers with an error never changes the book. -/
theorem run_inBounds_iff (capacity : Nat) (calls : List (BookCall FloatArg)) :
    (Runs.Visits Watched.step Watched.InBounds (.new capacity) calls ↔
      Runs.Guarded Watched.step (fun w call => w.book.Safe call) (.new capacity) calls) ∧
    ∀ call e, ((new capacity : Orderbook FloatArg).run calls).answer call = .error e →
      ((new capacity).run calls).step call = (new capacity).run calls := by
  constructor
  · refine Runs.visits_iff_guarded_of (I := fun w => w.book.Consistent) (A := fun _ _ => True)
      (fun w call consistent bounded _ => ?_) (new_consistent capacity) ?_ ?_
    · exact ⟨(step_keeps consistent call).consistent, Watched.step_inBounds consistent bounded call⟩
    · intro side o rests
      have nobody := OrderEntryPool.occupied_of_get rests.2
      exact absurd nobody ((OrderEntryPool.withCapacity_sound capacity).2 o.slot)
    · exact Runs.guarded_of_forall fun _ _ => trivial
  · intro call e refused
    exact step_unchanged (run_keeps (new_consistent capacity)).consistent refused

/-- A modification gives a good bid any quantity, here a negative one. -/
theorem run_inBounds_fails :
    ¬ ∀ capacity calls, Runs.Visits Watched.step Watched.InBounds (.new capacity) calls := by
  intro all
  have visits := all 4 [.addLimitBid (ofRat 100) 1 (ofRat 1) 0, .modifyLimitBid (ofRat 100) 1 (ofRat 100) (ofRat (-5)) 1]
  rw [Runs.visits_iff_take] at visits
  have rests : ((Runs.run Watched.step (.new 4) [.addLimitBid (ofRat 100) 1 (ofRat 1) 0,
      .modifyLimitBid (ofRat 100) 1 (ofRat 100) (ofRat (-5)) 1]).book).Rests
      .bid ⟨ofRat 100, 0, ⟨1, ofRat (-5), 0⟩⟩ := by
    unfold Rests
    decide +kernel
  have bounded := visits 2 .bid _ rests
  exact absurd bounded.positive (by decide)

end Orderbook

end OrderBook
