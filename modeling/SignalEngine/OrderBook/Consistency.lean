import SignalEngine.Lib.Shelves
import SignalEngine.OrderBook.Book

/-! # The book and its pool agree

Every slot in use stands at one position of one level, and the freed slots are
the unused ones. Each operation keeps this, so a new order finds no slot only
when every slot holds a resting order.
-/

namespace OrderBook

/-! ## The pool -/

namespace OrderEntryPool

variable {F : Type}

def Occupied (p : OrderEntryPool F) (i : Nat) : Prop := ∃ entry, p.entries[i]? = some (some entry)

structure Sound (p : OrderEntryPool F) : Prop where
  sized : p.entries.length = p.capacity
  within : p.nextNew ≤ p.capacity
  nodup : p.freeIndices.Nodup
  free : ∀ i, i ∈ p.freeIndices ↔ i < p.nextNew ∧ ¬ p.Occupied i
  used : ∀ i, p.Occupied i → i < p.nextNew

theorem occupied_fill {p q : OrderEntryPool F} {index : Nat} {entry : OrderbookEntry F}
    (set : q.entries = p.entries.set index (some entry)) (within : index < p.entries.length) (i : Nat) :
    q.Occupied i ↔ p.Occupied i ∨ i = index := by
  unfold Occupied
  rw [set]
  by_cases same : i = index
  · subst same
    rw [List.getElem?_set_self within]
    simp
  · rw [List.getElem?_set_ne (Ne.symm same)]
    simp [same]

theorem occupied_clear {p q : OrderEntryPool F} {index : Nat} (set : q.entries = p.entries.set index none)
    (within : index < p.entries.length) (i : Nat) : q.Occupied i ↔ p.Occupied i ∧ i ≠ index := by
  unfold Occupied
  rw [set]
  by_cases same : i = index
  · subst same
    rw [List.getElem?_set_self within]
    simp
  · rw [List.getElem?_set_ne (Ne.symm same)]
    simp [same]

theorem Occupied.lt {p : OrderEntryPool F} (sound : p.Sound) {i : Nat} (occupied : p.Occupied i) : i < p.capacity :=
  (sound.used i occupied).trans_le sound.within

theorem withCapacity_sound (capacity : Nat) : (withCapacity capacity : OrderEntryPool F).Sound ∧
    ∀ i, ¬ (withCapacity capacity : OrderEntryPool F).Occupied i := by
  have empty (i : Nat) : ¬ (withCapacity capacity : OrderEntryPool F).Occupied i := by
    rintro ⟨entry, here⟩
    have none := List.eq_of_mem_replicate (List.mem_of_getElem? here)
    cases none
  refine ⟨⟨?_, Nat.zero_le _, List.nodup_nil, ?_, fun i occupied => absurd occupied (empty i)⟩, empty⟩
  · simp [withCapacity]
  · simp [withCapacity]

/-- A slot that was not in use is now. -/
theorem allocate_spec {p p' : OrderEntryPool F} (sound : p.Sound) {orderId timestamp index : Nat} {quantity : F}
    (allocated : p.allocate orderId quantity timestamp = (some index, p')) :
    p'.Sound ∧ ¬ p.Occupied index ∧ (∀ i, p'.Occupied i ↔ p.Occupied i ∨ i = index) ∧ p'.capacity = p.capacity := by
  unfold allocate at allocated
  split at allocated
  next rest listed =>
    cases allocated
    have freed : index ∈ p.freeIndices := by simp [listed]
    obtain ⟨before, unused⟩ := (sound.free index).1 freed
    have within : index < p.entries.length := by
      rw [sound.sized]
      exact before.trans_le sound.within
    have now := occupied_fill (p := p) (q := { p with
      entries := p.entries.set index (some ⟨orderId, quantity, timestamp⟩), freeIndices := rest }) rfl within
    have nodup := sound.nodup
    rw [listed, List.nodup_cons] at nodup
    refine ⟨⟨?_, sound.within, nodup.2, fun i => ?_, fun i used => ?_⟩, unused, now, rfl⟩
    · simpa using sound.sized
    · rw [now, not_or]
      have free := sound.free i
      rw [listed, List.mem_cons] at free
      constructor
      · intro member
        obtain ⟨less, empty⟩ := free.1 (.inr member)
        refine ⟨less, empty, ?_⟩
        rintro rfl
        exact nodup.1 member
      · rintro ⟨less, empty, other⟩
        exact (free.2 ⟨less, empty⟩).resolve_left other
    · rcases (now i).1 used with old | rfl
      · exact sound.used i old
      · exact before
  next listed =>
    split at allocated
    · cases allocated
    next room =>
      cases allocated
      rw [not_le] at room
      have unused : ¬ p.Occupied p.nextNew := fun used => lt_irrefl _ (sound.used _ used)
      have within : p.nextNew < p.entries.length := by
        rw [sound.sized]
        exact room
      have now := occupied_fill (p := p) (q := { p with
        entries := p.entries.set p.nextNew (some ⟨orderId, quantity, timestamp⟩), nextNew := p.nextNew + 1 }) rfl within
      refine ⟨⟨?_, room, sound.nodup, fun i => ?_, fun i used => ?_⟩, unused, now, rfl⟩
      · simpa using sound.sized
      · rw [now, not_or]
        have free := sound.free i
        constructor
        · intro member
          obtain ⟨less, empty⟩ := free.1 member
          exact ⟨less.trans (Nat.lt_succ_self _), empty, less.ne⟩
        · rintro ⟨less, empty, other⟩
          exact free.2 ⟨lt_of_le_of_ne (Nat.lt_succ_iff.1 less) other, empty⟩
      · rcases (now i).1 used with old | rfl
        · exact (sound.used i old).trans (Nat.lt_succ_self _)
        · exact Nat.lt_succ_self _

theorem allocate_none {p p' : OrderEntryPool F} (sound : p.Sound) {orderId timestamp : Nat} {quantity : F}
    (refused : p.allocate orderId quantity timestamp = (none, p')) {i : Nat} (within : i < p.capacity) :
    p.Occupied i := by
  unfold allocate at refused
  split at refused
  · cases refused
  next listed =>
    split at refused
    next exhausted =>
      by_contra unused
      have free := (sound.free i).2 ⟨within.trans_le exhausted, unused⟩
      rw [listed] at free
      cases free
    · cases refused

/-- Changing an entry changes nothing about the slots. -/
theorem getMut_spec {p : OrderEntryPool F} (sound : p.Sound) (index : Nat) (f : OrderbookEntry F → OrderbookEntry F) :
    (p.getMut index f).2.Sound ∧ (∀ i, (p.getMut index f).2.Occupied i ↔ p.Occupied i) ∧
      (p.getMut index f).2.capacity = p.capacity ∧ (p.Occupied index → (p.getMut index f).1 = true) := by
  unfold getMut
  split
  next outside =>
    exact ⟨sound, fun _ => Iff.rfl, rfl, fun occupied => absurd (occupied.lt sound) (not_lt.2 outside)⟩
  split
  next entry found =>
    have here := Option.join_eq_some_iff.1 found
    have same (i : Nat) : OrderEntryPool.Occupied { p with entries := p.entries.set index (some (f entry)) } i ↔
        p.Occupied i := by
      rw [occupied_fill (p := p) rfl (List.getElem?_eq_some_iff.1 here).1, or_iff_left_of_imp]
      rintro rfl
      exact ⟨entry, here⟩
    refine ⟨⟨?_, sound.within, sound.nodup, fun i => ?_, fun i used => ?_⟩, same, rfl, fun _ => rfl⟩
    · simpa using sound.sized
    · rw [same]
      exact sound.free i
    · exact sound.used i ((same i).1 used)
  next missing =>
    refine ⟨sound, fun _ => Iff.rfl, rfl, ?_⟩
    rintro ⟨entry, here⟩
    rw [here] at missing
    cases missing

theorem free_spec {p : OrderEntryPool F} (sound : p.Sound) {index : Nat} (occupied : p.Occupied index) :
    (p.free index).Sound ∧ (∀ i, (p.free index).Occupied i ↔ p.Occupied i ∧ i ≠ index) ∧
      (p.free index).capacity = p.capacity := by
  have inside := occupied.lt sound
  unfold free
  rw [if_neg (not_le.2 inside)]
  have now := occupied_clear (p := p) (q := { p with
    entries := p.entries.set index none, freeIndices := p.freeIndices ++ [index] }) rfl (by rwa [sound.sized])
  refine ⟨⟨?_, sound.within, ?_, fun i => ?_, fun i used => sound.used i ((now i).1 used).1⟩, now, rfl⟩
  · simpa using sound.sized
  · refine List.nodup_append.2 ⟨sound.nodup, by simp, ?_⟩
    rintro a freed b single rfl
    obtain rfl := List.mem_singleton.1 single
    exact ((sound.free a).1 freed).2 occupied
  · rw [now, List.mem_append, List.mem_singleton, sound.free i]
    constructor
    · rintro (⟨less, empty⟩ | rfl)
      · exact ⟨less, fun used => empty used.1⟩
      · exact ⟨sound.used i occupied, fun used => used.2 rfl⟩
    · rintro ⟨less, empty⟩
      by_cases same : i = index
      · exact .inr same
      · exact .inl ⟨less, fun used => empty ⟨used, same⟩⟩

theorem occupied_of_get {p : OrderEntryPool F} {i : Nat} {entry : OrderbookEntry F} (found : p.get i = some entry) :
    p.Occupied i := by
  unfold get at found
  split at found
  · cases found
  · exact ⟨entry, Option.join_eq_some_iff.1 found⟩

section Slots

variable {p : OrderEntryPool F}

theorem get_set {index : Nat} {content : Option (OrderbookEntry F)} (within : index < p.entries.length)
    (inside : index < p.capacity) (i : Nat) :
    get { p with entries := p.entries.set index content } i = if i = index then content else p.get i := by
  unfold get
  by_cases same : i = index
  · subst same
    simp [not_le.2 inside, List.getElem?_set_self within]
  · simp [same, List.getElem?_set_ne (Ne.symm same)]

theorem within_of_get {i : Nat} {entry : OrderbookEntry F} (here : p.get i = some entry) :
    i < p.entries.length ∧ i < p.capacity := by
  unfold get at here
  split at here
  · cases here
  next inside =>
    exact ⟨(List.getElem?_eq_some_iff.1 (Option.join_eq_some_iff.1 here)).1, not_le.1 inside⟩

theorem mem_entries_of_get {i : Nat} {entry : OrderbookEntry F} (here : p.get i = some entry) :
    some entry ∈ p.entries := by
  unfold get at here
  split at here
  · cases here
  · exact List.mem_of_getElem? (Option.join_eq_some_iff.1 here)

theorem get_getMut {index : Nat} {entry : OrderbookEntry F} (here : p.get index = some entry)
    (f : OrderbookEntry F → OrderbookEntry F) (i : Nat) :
    (p.getMut index f).2.get i = if i = index then some (f entry) else p.get i := by
  obtain ⟨within, inside⟩ := within_of_get here
  have content : p.entries[index]?.join = some entry := by
    unfold get at here
    rwa [if_neg (not_le.2 inside)] at here
  unfold getMut
  rw [if_neg (not_le.2 inside), content]
  exact get_set within inside i

theorem get_free {index : Nat} {entry : OrderbookEntry F} (here : p.get index = some entry) (i : Nat) :
    (p.free index).get i = if i = index then none else p.get i := by
  obtain ⟨within, inside⟩ := within_of_get here
  unfold free
  rw [if_neg (not_le.2 inside)]
  exact get_set within inside i

theorem isSome_get (sound : p.Sound) {i : Nat} (occupied : p.Occupied i) :
    (p.get i).isSome := by
  have inside := occupied.lt sound
  obtain ⟨entry, here⟩ := occupied
  rw [get, if_neg (not_le.2 inside), here]
  rfl

end Slots

end OrderEntryPool

/-! ## The queues -/

variable {F : Type} [FloatLike F]

def queueOf (levels : OrderSide → Levels F) (at_ : OrderSide × F) : List Nat := ((levels at_.1).get at_.2).getD []

structure RestingOrder (F : Type) where
  price : F
  slot : Nat
  entry : OrderbookEntry F
  deriving DecidableEq

namespace RestingOrder

def quantity (o : RestingOrder F) : F := o.entry.quantity

def reduce (o : RestingOrder F) (part : F) : RestingOrder F :=
  { o with entry := { o.entry with quantity := o.entry.quantity - part } }

end RestingOrder

structure Agrees (queue : OrderSide × F → List Nat) (p : OrderEntryPool F) : Prop where
  sound : p.Sound
  shares : Shares queue p.Occupied

namespace Agrees

variable {queue : OrderSide × F → List Nat} {p : OrderEntryPool F}

omit [FloatLike F] in
theorem repool {p' : OrderEntryPool F} (agrees : Agrees queue p) (sound : p'.Sound)
    (same : ∀ i, p'.Occupied i ↔ p.Occupied i) : Agrees queue p' := ⟨sound, agrees.shares.congr same⟩

theorem release (agrees : Agrees queue p) {at_ : OrderSide × F} {position index : Nat}
    (here : (queue at_)[position]? = some index) :
    Agrees (Function.update queue at_ ((queue at_).eraseIdx position)) (p.free index) := by
  obtain ⟨sound, now, -⟩ := OrderEntryPool.free_spec agrees.sound (agrees.shares.items_of_place here)
  exact ⟨sound, (agrees.shares.take here).congr now⟩

theorem fillOrders (price : F) : ∀ (orders : List Nat) (i : Nat) (f : Orderbook.Fills F), Agrees queue f.pool →
    Agrees queue (Orderbook.fillOrders price orders i f).2.pool ∧
      (Orderbook.fillOrders price orders i f).2.pool.capacity = f.pool.capacity := by
  intro orders
  induction orders with
  | nil => exact fun _ _ agrees => ⟨agrees, rfl⟩
  | cons index rest ih =>
      intro i f agrees
      unfold Orderbook.fillOrders
      split
      next =>
        split
        · exact ih (i + 1) f agrees
        next order found =>
          dsimp only
          split
          · exact ih (i + 1) _ agrees
          next =>
            obtain ⟨sound, same, capacity, -⟩ := OrderEntryPool.getMut_spec agrees.sound index
              fun entry => { entry with quantity := order.quantity - min order.quantity f.remaining }
            obtain ⟨after, kept⟩ := ih (i + 1)
              { f with
                remaining := f.remaining - min order.quantity f.remaining
                executed := f.executed + min order.quantity f.remaining
                cost := f.cost + price * min order.quantity f.remaining
                pool := (f.pool.getMut index fun entry =>
                  { entry with quantity := order.quantity - min order.quantity f.remaining }).2 }
              (agrees.repool sound same)
            exact ⟨after, kept.trans capacity⟩
      next => exact ⟨agrees, rfl⟩

theorem removeUsed (at_ : OrderSide × F) (used : List Nat) (orders : List Nat) (p : OrderEntryPool F)
    (agrees : Agrees (Function.update queue at_ orders) p) :
    Agrees (Function.update queue at_ (Orderbook.removeUsed used orders p).1) (Orderbook.removeUsed used orders p).2 ∧
      (Orderbook.removeUsed used orders p).2.capacity = p.capacity ∧
      (orders = [] → (Orderbook.removeUsed used orders p).1 = []) := by
  unfold Orderbook.removeUsed
  generalize used.reverse = positions
  induction positions generalizing orders p with
  | nil => exact ⟨agrees, rfl, id⟩
  | cons position positions ih =>
      rw [List.foldl_cons]
      cases here : orders[position]? with
      | none =>
          have nothing : Orderbook.dropAt (orders, p) position = (orders, p) := by simp [Orderbook.dropAt, here]
          rw [nothing]
          exact ih orders p agrees
      | some index =>
          have dropped : Orderbook.dropAt (orders, p) position = (orders.eraseIdx position, p.free index) := by
            simp [Orderbook.dropAt, here]
          have inQueue : (Function.update queue at_ orders at_)[position]? = some index := by
            rw [Function.update_self]
            exact here
          have after := agrees.release inQueue
          rw [Function.update_self, Function.update_idem] at after
          rw [dropped]
          obtain ⟨final, capacity, -⟩ := ih _ _ after
          obtain ⟨-, -, freed⟩ := OrderEntryPool.free_spec agrees.sound (agrees.shares.items_of_place inQueue)
          refine ⟨final, capacity.trans freed, ?_⟩
          rintro rfl
          simp at here

end Agrees

/-! ## The operations -/

namespace Orderbook

structure Consistent (b : Orderbook F) : Prop where
  agrees : Agrees (queueOf b.levels) b.entryPool
  full : ∀ side price, (b.levels side).get price ≠ some []

section Levels

variable {b : Orderbook F} {side : OrderSide} {price : F}

theorem levels_setLevels (b : Orderbook F) (side side' : OrderSide) (levels : Levels F) :
    (b.setLevels side levels).levels side' = if side' = side then levels else b.levels side' := by
  cases side <;> cases side' <;> rfl

theorem entryPool_setLevels (b : Orderbook F) (side : OrderSide) (levels : Levels F) :
    (b.setLevels side levels).entryPool = b.entryPool := by
  cases side <;> rfl

theorem get_insertLevel (b : Orderbook F) (side : OrderSide) (price : F) (orders : List Nat) (side' : OrderSide)
    (price' : F) :
    ((b.setLevels side ((b.levels side).insert price orders)).levels side').get price' =
      if (side', price') = (side, price) then some orders else (b.levels side').get price' := by
  rw [levels_setLevels]
  by_cases same : side' = side
  · subst same
    simp [Registry.get_insert]
  · simp [same]

theorem queueOf_insertLevel (b : Orderbook F) (side : OrderSide) (price : F) (orders : List Nat) :
    queueOf (b.setLevels side ((b.levels side).insert price orders)).levels =
      Function.update (queueOf b.levels) (side, price) orders := by
  funext at_
  unfold queueOf
  rw [get_insertLevel]
  by_cases same : at_ = (side, price)
  · subst same
    simp
  · rw [Function.update_of_ne same, if_neg same]

theorem get_pruneLevel (b : Orderbook F) (side : OrderSide) (price : F) (side' : OrderSide) (price' : F) :
    ((b.pruneLevel side price).levels side').get price' =
      if (side', price') = (side, price) ∧ (b.levels side).get price = some [] then none
      else (b.levels side').get price' := by
  unfold pruneLevel
  split
  next empty =>
    rw [levels_setLevels]
    by_cases same : side' = side
    · subst same
      simp [Registry.get_erase, empty]
    · simp [same]
  next => simp [*]

theorem entryPool_pruneLevel (b : Orderbook F) (side : OrderSide) (price : F) :
    (b.pruneLevel side price).entryPool = b.entryPool := by
  unfold pruneLevel
  split
  · exact entryPool_setLevels ..
  · rfl

theorem queueOf_pruneLevel (b : Orderbook F) (side : OrderSide) (price : F) :
    queueOf (b.pruneLevel side price).levels = queueOf b.levels := by
  funext at_
  unfold queueOf
  rw [get_pruneLevel]
  split
  next pruned =>
    rw [show at_ = (side, price) from pruned.1, pruned.2]
    rfl
  next => rfl

theorem full_pruneLevel
    (full : ∀ side' price', (side', price') ≠ (side, price) → (b.levels side').get price' ≠ some []) :
    ∀ side' price', ((b.pruneLevel side price).levels side').get price' ≠ some [] := by
  intro side' price'
  rw [get_pruneLevel]
  split
  · rintro ⟨⟩
  next kept =>
    by_cases same : (side', price') = (side, price)
    · intro empty
      obtain ⟨rfl, rfl⟩ := Prod.mk.inj same
      exact kept ⟨rfl, empty⟩
    · exact full side' price' same

theorem full_pushBack {index : Nat} (full : ∀ side' price', (b.levels side').get price' ≠ some []) :
    ∀ side' price', ((b.pushBack side price index).levels side').get price' ≠ some [] := by
  intro side' price'
  rw [pushBack, get_insertLevel]
  split
  · simp
  · exact full side' price'

theorem queueOf_pushBack (b : Orderbook F) (side : OrderSide) (price : F) (index : Nat) :
    queueOf (b.pushBack side price index).levels =
      Function.update (queueOf b.levels) (side, price) (queueOf b.levels (side, price) ++ [index]) :=
  queueOf_insertLevel ..

omit [FloatLike F] in
theorem findOrder_spec {p : OrderEntryPool F} {orderId : Nat} {orders : List Nat} {position index : Nat}
    (found : findOrder p orderId orders = some (position, index)) : orders[position]? = some index := by
  induction orders generalizing position with
  | nil => cases found
  | cons head rest ih =>
      unfold findOrder at found
      split at found
      · cases found
        rfl
      · obtain ⟨⟨position', index'⟩, later, same⟩ := Option.map_eq_some_iff.1 found
        obtain ⟨rfl, rfl⟩ := Prod.mk.inj same
        exact ih later

/-- A detached order stood at one position of its queue. -/
theorem detach_spec {b' : Orderbook F} {orderId : Nat} {found : Option Nat}
    (detached : b.detach side price orderId = (found, b')) :
    (found = none ∧ b' = b) ∨
    ∃ position index, found = some index ∧ (queueOf b.levels (side, price))[position]? = some index ∧
      queueOf b'.levels = Function.update (queueOf b.levels) (side, price)
        ((queueOf b.levels (side, price)).eraseIdx position) ∧ b'.entryPool = b.entryPool ∧
      ∀ side' price', (side', price') ≠ (side, price) →
        (b'.levels side').get price' = (b.levels side').get price' := by
  unfold detach at detached
  split at detached
  · cases detached
    exact .inl ⟨rfl, rfl⟩
  next orders level =>
    have queue : queueOf b.levels (side, price) = orders := by
      unfold queueOf
      rw [level]
      rfl
    split at detached
    · cases detached
      exact .inl ⟨rfl, rfl⟩
    next position index looked =>
      cases detached
      refine .inr ⟨position, index, rfl, ?_, ?_, entryPool_setLevels .., fun side' price' other => ?_⟩
      · rw [queue]
        exact findOrder_spec looked
      · rw [queueOf_insertLevel, queue]
      · rw [get_insertLevel, if_neg other]

end Levels

structure Keeps (b b' : Orderbook F) : Prop where
  consistent : b'.Consistent
  capacity : b'.entryPool.capacity = b.entryPool.capacity

theorem Consistent.same {b : Orderbook F} (consistent : b.Consistent) : b.Keeps b := ⟨consistent, rfl⟩

section Operations

variable {b : Orderbook F} (consistent : b.Consistent)

include consistent

theorem addOrder_keeps (side : OrderSide) (price : F) (orderId : Nat) (quantity : F) (timestamp : Nat) :
    b.Keeps (b.addOrder side price orderId quantity timestamp).2 := by
  unfold addOrder
  split
  next index pool allocated =>
    obtain ⟨sound, new, now, capacity⟩ := OrderEntryPool.allocate_spec consistent.agrees.sound allocated
    refine ⟨⟨⟨?_, ?_⟩, full_pushBack consistent.full⟩, ?_⟩
    · rw [pushBack, entryPool_setLevels]
      exact sound
    · rw [queueOf_pushBack, pushBack, entryPool_setLevels]
      exact (consistent.agrees.shares.push (side, price) new).congr now
    · rw [pushBack, entryPool_setLevels]
      exact capacity
  next => exact consistent.same

theorem addLimit_keeps (side : OrderSide) (price : F) (orderId : Nat) (quantity : F) (timestamp : Nat) :
    b.Keeps (b.addLimit side price orderId quantity timestamp).2 := by
  have added := addOrder_keeps consistent side price orderId quantity timestamp
  cases side with
  | bid =>
      simp only [addLimit, addLimitBid]
      iterate 8 (split; · exact consistent.same)
      exact added
  | ask =>
      simp only [addLimit, addLimitAsk]
      iterate 3 (split; · exact consistent.same)
      exact added

theorem removeLimit_keeps (side : OrderSide) (price : F) (orderId : Nat) :
    b.Keeps (b.removeLimit side price orderId).2 := by
  unfold removeLimit
  split
  · exact consistent.same
  cases detached : b.detach side price orderId with
  | mk found b' =>
      rcases detach_spec detached with ⟨rfl, rfl⟩ | ⟨position, index, rfl, here, queue, pool, others⟩
      · exact consistent.same
      · have freed := consistent.agrees.release here
        obtain ⟨-, -, capacity⟩ :=
          OrderEntryPool.free_spec consistent.agrees.sound (consistent.agrees.shares.items_of_place here)
        rw [← queue, ← pool] at freed
        refine ⟨⟨?_, full_pruneLevel fun side' price' other => ?_⟩, ?_⟩
        · dsimp only
          rw [queueOf_pruneLevel, entryPool_pruneLevel]
          exact freed
        · exact fun empty => consistent.full side' price' ((others side' price' other).symm.trans empty)
        · dsimp only
          rw [entryPool_pruneLevel, pool]
          exact capacity

theorem editLimit_keeps (side : OrderSide) (price : F) (orderId : Nat) (newQuantity : F) :
    b.Keeps (b.editLimit side price orderId newQuantity).2 := by
  unfold editLimit
  iterate 2 (split; · exact consistent.same)
  split
  · exact consistent.same
  split
  · exact consistent.same
  next _ index _ =>
    obtain ⟨sound, same, capacity, -⟩ := OrderEntryPool.getMut_spec consistent.agrees.sound index
      fun entry => { entry with quantity := newQuantity }
    exact ⟨⟨consistent.agrees.repool sound same, consistent.full⟩, capacity⟩

theorem modifyLimit_keeps (side : OrderSide) (oldPrice : F) (orderId : Nat) (newPrice newQuantity : F)
    (timestamp : Nat) : b.Keeps (b.modifyLimit side oldPrice orderId newPrice newQuantity timestamp).2 := by
  unfold modifyLimit
  iterate 2 (split; · exact consistent.same)
  cases detached : b.detach side oldPrice orderId with
  | mk found b' =>
      rcases detach_spec detached with ⟨rfl, rfl⟩ | ⟨position, index, rfl, here, queue, pool, others⟩
      · have pruned : b'.Keeps (b'.pruneLevel side oldPrice) := by
          refine ⟨⟨?_, full_pruneLevel fun side' price' _ => consistent.full side' price'⟩, ?_⟩
          · rw [queueOf_pruneLevel, entryPool_pruneLevel]
            exact consistent.agrees
          · rw [entryPool_pruneLevel]
        have added := addLimit_keeps pruned.consistent side newPrice orderId newQuantity timestamp
        dsimp only
        generalize (b'.pruneLevel side oldPrice).addLimit side newPrice orderId newQuantity timestamp = result at added ⊢
        obtain ⟨outcome, after⟩ := result
        cases outcome with
        | ok index => exact ⟨added.consistent, added.capacity.trans pruned.capacity⟩
        | error e => exact ⟨added.consistent, added.capacity.trans pruned.capacity⟩
      · dsimp only
        have occupied := consistent.agrees.shares.items_of_place here
        obtain ⟨sound, same, capacity, updated⟩ := OrderEntryPool.getMut_spec consistent.agrees.sound index
          fun entry => { entry with quantity := newQuantity }
        -- the slot is in use and stands nowhere
        have shares := consistent.agrees.shares.take here
        rw [entryPool_pruneLevel, pool, updated occupied, if_pos rfl]
        have full := full_pruneLevel (b := b') fun side' price' other empty =>
          consistent.full side' price' ((others side' price' other).symm.trans empty)
        refine ⟨⟨⟨?_, ?_⟩, full_pushBack full⟩, ?_⟩
        · rw [pushBack, entryPool_setLevels]
          exact sound
        · rw [queueOf_pushBack, pushBack, entryPool_setLevels]
          change Shares (Function.update (queueOf (b'.pruneLevel side oldPrice).levels) (side, newPrice)
            (queueOf (b'.pruneLevel side oldPrice).levels (side, newPrice) ++ [index])) _
          rw [queueOf_pruneLevel, queue]
          refine (shares.push (side, newPrice) fun gone => gone.2 rfl).congr fun i => ?_
          rw [same]
          by_cases moved : i = index
          · simp [moved, occupied]
          · simp [moved]
        · rw [pushBack, entryPool_setLevels]
          exact capacity

end Operations

/-! ## Matching -/

/-- A market order on its way: the queues and the pool agree, and the empty levels are noted. -/
structure Swept (b : Orderbook F) (resting : OrderSide) (s : Sweep F) : Prop where
  agrees : Agrees (queueOf (b.setLevels resting s.levels).levels) s.fills.pool
  empty : ∀ price, s.levels.get price = some [] ↔ price ∈ s.emptied
  capacity : s.fills.pool.capacity = b.entryPool.capacity

theorem Consistent.swept {b : Orderbook F} (consistent : b.Consistent) (resting : OrderSide) (quantity : F) :
    b.Swept resting ⟨b.levels resting, ⟨quantity, 0, 0, b.entryPool⟩, []⟩ := by
  refine ⟨?_, fun price => ?_, rfl⟩
  · have same : (b.setLevels resting (b.levels resting)).levels = b.levels := by
      funext side
      rw [levels_setLevels]
      split
      next own => rw [own]
      next => rfl
    rw [same]
    exact consistent.agrees
  · simpa using consistent.full resting price

theorem queueOf_setInsert (b : Orderbook F) (side : OrderSide) (levels : Levels F) (price : F) (orders : List Nat) :
    queueOf (b.setLevels side (levels.insert price orders)).levels =
      Function.update (queueOf (b.setLevels side levels).levels) (side, price) orders := by
  have inserted := queueOf_insertLevel (b.setLevels side levels) side price orders
  rw [levels_setLevels, if_pos rfl] at inserted
  rw [← inserted]
  cases side <;> rfl

theorem sweepLevel_swept {b : Orderbook F} {resting : OrderSide} {s : Sweep F} (swept : b.Swept resting s) (price : F) :
    b.Swept resting (sweepLevel s price) := by
  unfold sweepLevel
  split
  · exact swept
  next orders level =>
    have queue : queueOf (b.setLevels resting s.levels).levels (resting, price) = orders := by
      unfold queueOf
      rw [levels_setLevels, if_pos rfl, level]
      rfl
    obtain ⟨filled, capacity⟩ := swept.agrees.fillOrders price orders 0 s.fills
    have unchanged : Agrees (Function.update (queueOf (b.setLevels resting s.levels).levels) (resting, price) orders)
        (fillOrders price orders 0 s.fills).2.pool := by
      rw [← queue, Function.update_eq_self, queue]
      exact filled
    obtain ⟨removed, capacity', nothing⟩ :=
      Agrees.removeUsed (resting, price) (fillOrders price orders 0 s.fills).1 orders _ unchanged
    refine ⟨?_, fun price' => ?_, ?_⟩
    · rw [queueOf_setInsert]
      exact removed
    · dsimp only at nothing ⊢
      simp only [Registry.get_insert, List.isEmpty_iff]
      generalize (removeUsed (fillOrders price orders 0 s.fills).1 orders (fillOrders price orders 0 s.fills).2.pool).1 =
        left at nothing ⊢
      have before := swept.empty price'
      by_cases own : price' = price
      · subst own
        rw [if_pos rfl, Option.some.injEq]
        split
        next used => simp [used]
        next some =>
          -- a level that was empty before stays empty
          refine ⟨fun used => absurd used some, fun noted => nothing ?_⟩
          rw [level] at before
          exact Option.some.inj (before.2 noted)
      · rw [if_neg own]
        split
        next => simpa [own] using before
        next => exact before
    · exact capacity'.trans (capacity.trans swept.capacity)

theorem sweep_swept {b : Orderbook F} {resting : OrderSide} : ∀ {prices : List F} {s : Sweep F}, b.Swept resting s →
    b.Swept resting (sweep prices s) := by
  intro prices
  induction prices with
  | nil => exact fun swept => swept
  | cons price prices ih =>
      intro s swept
      unfold sweep
      split
      · exact swept
      · exact ih (sweepLevel_swept swept price)

theorem get_eraseAll (levels : Levels F) (emptied : List F) (price : F) :
    (emptied.foldl Registry.erase levels).get price = if price ∈ emptied then none else levels.get price := by
  induction emptied generalizing levels with
  | nil => simp
  | cons first emptied ih =>
      rw [List.foldl_cons, ih, Registry.get_erase]
      by_cases here : price = first
      · simp [here]
      · simp [here]

theorem Swept.queueOf_erased {b : Orderbook F} {resting : OrderSide} {s : Sweep F} (swept : b.Swept resting s) :
    queueOf (b.setLevels resting (s.emptied.foldl Registry.erase s.levels)).levels =
      queueOf (b.setLevels resting s.levels).levels := by
  funext at_
  unfold queueOf
  rw [levels_setLevels, levels_setLevels]
  split
  · rw [get_eraseAll]
    split
    next noted =>
      rw [(swept.empty at_.2).2 noted]
      rfl
    next => rfl
  · rfl

theorem matchMarket_keeps {b : Orderbook F} (consistent : b.Consistent) (resting : OrderSide) (priceLimit quantity : F)
    (elapsed : Nat) : b.Keeps (b.matchMarket resting priceLimit quantity elapsed).2 := by
  unfold matchMarket
  iterate 2 (split; · exact consistent.same)
  split
  · exact consistent.same
  next =>
    have swept : b.Swept resting (sweep (eligiblePrices (b.levels resting) resting priceLimit)
        ⟨b.levels resting, ⟨quantity, 0, 0, b.entryPool⟩, []⟩) := sweep_swept (consistent.swept resting quantity)
    dsimp only
    generalize sweep (eligiblePrices (b.levels resting) resting priceLimit)
      ⟨b.levels resting, ⟨quantity, 0, 0, b.entryPool⟩, []⟩ = s at swept ⊢
    have full : ∀ side price,
        ((b.setLevels resting (s.emptied.foldl Registry.erase s.levels)).levels side).get price ≠ some [] := by
      intro side price
      rw [levels_setLevels]
      split
      · rw [get_eraseAll]
        split
        · rintro ⟨⟩
        next kept => exact fun empty => kept ((swept.empty price).1 empty)
      · exact consistent.full side price
    refine ⟨⟨?_, ?_⟩, swept.capacity⟩
    · have agrees := swept.agrees
      rw [← swept.queueOf_erased] at agrees
      cases resting <;> exact agrees
    · cases resting <;> exact full

/-! ## Runs -/

inductive BookCall (F : Type) where
  | addLimitBid (price : F) (orderId : Nat) (quantity : F) (timestamp : Nat)
  | addLimitAsk (price : F) (orderId : Nat) (quantity : F) (timestamp : Nat)
  | removeLimitBid (price : F) (orderId : Nat)
  | removeLimitAsk (price : F) (orderId : Nat)
  | editLimitBid (price : F) (orderId : Nat) (newQuantity : F)
  | editLimitAsk (price : F) (orderId : Nat) (newQuantity : F)
  | modifyLimitBid (oldPrice : F) (orderId : Nat) (newPrice newQuantity : F) (timestamp : Nat)
  | modifyLimitAsk (oldPrice : F) (orderId : Nat) (newPrice newQuantity : F) (timestamp : Nat)
  | matchMarketBid (priceLimit quantity : F) (elapsed : Nat)
  | matchMarketAsk (priceLimit quantity : F) (elapsed : Nat)
  deriving DecidableEq

def step (b : Orderbook F) : BookCall F → Orderbook F
  | .addLimitBid price orderId quantity timestamp => (b.addLimitBid price orderId quantity timestamp).2
  | .addLimitAsk price orderId quantity timestamp => (b.addLimitAsk price orderId quantity timestamp).2
  | .removeLimitBid price orderId => (b.removeLimitBid price orderId).2
  | .removeLimitAsk price orderId => (b.removeLimitAsk price orderId).2
  | .editLimitBid price orderId newQuantity => (b.editLimitBid price orderId newQuantity).2
  | .editLimitAsk price orderId newQuantity => (b.editLimitAsk price orderId newQuantity).2
  | .modifyLimitBid oldPrice orderId newPrice newQuantity timestamp =>
      (b.modifyLimitBid oldPrice orderId newPrice newQuantity timestamp).2
  | .modifyLimitAsk oldPrice orderId newPrice newQuantity timestamp =>
      (b.modifyLimitAsk oldPrice orderId newPrice newQuantity timestamp).2
  | .matchMarketBid priceLimit quantity elapsed => (b.matchMarketBid priceLimit quantity elapsed).2
  | .matchMarketAsk priceLimit quantity elapsed => (b.matchMarketAsk priceLimit quantity elapsed).2

def run (b : Orderbook F) (calls : List (BookCall F)) : Orderbook F := calls.foldl step b

theorem step_keeps {b : Orderbook F} (consistent : b.Consistent) (call : BookCall F) : b.Keeps (b.step call) := by
  cases call with
  | addLimitBid price orderId quantity timestamp => exact addLimit_keeps consistent .bid price orderId quantity timestamp
  | addLimitAsk price orderId quantity timestamp => exact addLimit_keeps consistent .ask price orderId quantity timestamp
  | removeLimitBid price orderId => exact removeLimit_keeps consistent .bid price orderId
  | removeLimitAsk price orderId => exact removeLimit_keeps consistent .ask price orderId
  | editLimitBid price orderId newQuantity => exact editLimit_keeps consistent .bid price orderId newQuantity
  | editLimitAsk price orderId newQuantity => exact editLimit_keeps consistent .ask price orderId newQuantity
  | modifyLimitBid oldPrice orderId newPrice newQuantity timestamp =>
      exact modifyLimit_keeps consistent .bid oldPrice orderId newPrice newQuantity timestamp
  | modifyLimitAsk oldPrice orderId newPrice newQuantity timestamp =>
      exact modifyLimit_keeps consistent .ask oldPrice orderId newPrice newQuantity timestamp
  | matchMarketBid priceLimit quantity elapsed => exact matchMarket_keeps consistent .ask priceLimit quantity elapsed
  | matchMarketAsk priceLimit quantity elapsed => exact matchMarket_keeps consistent .bid priceLimit quantity elapsed

theorem run_keeps {calls : List (BookCall F)} : ∀ {b : Orderbook F}, b.Consistent → b.Keeps (b.run calls) := by
  induction calls with
  | nil => exact fun consistent => consistent.same
  | cons call calls ih =>
      intro b consistent
      have first := step_keeps consistent call
      have rest := ih first.consistent
      exact ⟨rest.consistent, rest.capacity.trans first.capacity⟩

theorem new_consistent (capacity : Nat) : (new capacity : Orderbook F).Consistent := by
  obtain ⟨sound, empty⟩ := OrderEntryPool.withCapacity_sound capacity
  refine ⟨⟨sound, ?_⟩, fun side price => ?_⟩
  · have queues : queueOf (new capacity : Orderbook F).levels = fun _ => [] := by
      funext at_
      obtain ⟨side, price⟩ := at_
      cases side <;> rfl
    rw [queues]
    exact Shares.empty.congr fun i => iff_false_intro (empty i)
  · cases side <;> exact fun level => nomatch level

/-! ## Places -/

def slotAt (b : Orderbook F) (place : (OrderSide × F) × Nat) : Option Nat := (queueOf b.levels place.1)[place.2]?

def resting (b : Orderbook F) : List Nat :=
  (b.bids.keys.flatMap fun price => queueOf b.levels (.bid, price)) ++
    b.asks.keys.flatMap fun price => queueOf b.levels (.ask, price)

theorem mem_sideQueues (b : Orderbook F) (side : OrderSide) (i : Nat) :
    (i ∈ (b.levels side).keys.flatMap fun price => queueOf b.levels (side, price)) ↔
      ∃ price, i ∈ queueOf b.levels (side, price) := by
  rw [List.mem_flatMap]
  refine ⟨fun ⟨price, _, among⟩ => ⟨price, among⟩, fun ⟨price, among⟩ => ⟨price, ?_, among⟩⟩
  rw [Registry.mem_keys]
  cases level : (b.levels side).get price with
  | some orders => rfl
  | none =>
      have nothing : queueOf b.levels (side, price) = [] := by
        unfold queueOf
        rw [level]
        rfl
      rw [nothing] at among
      cases among

theorem mem_resting {b : Orderbook F} (consistent : b.Consistent) (i : Nat) :
    i ∈ b.resting ↔ b.entryPool.Occupied i := by
  rw [consistent.agrees.shares.mem, resting, List.mem_append]
  constructor
  · rintro (among | among)
    · obtain ⟨price, here⟩ := (mem_sideQueues b .bid i).1 among
      exact ⟨_, here⟩
    · obtain ⟨price, here⟩ := (mem_sideQueues b .ask i).1 among
      exact ⟨_, here⟩
  · rintro ⟨⟨side, price⟩, here⟩
    cases side with
    | bid => exact .inl ((mem_sideQueues b .bid i).2 ⟨price, here⟩)
    | ask => exact .inr ((mem_sideQueues b .ask i).2 ⟨price, here⟩)

theorem nodup_resting {b : Orderbook F} (consistent : b.Consistent) : b.resting.Nodup := by
  have shares := consistent.agrees.shares
  have side (side : OrderSide) :
      ((b.levels side).keys.flatMap fun price => queueOf b.levels (side, price)).Nodup := by
    refine List.nodup_flatMap.2 ⟨fun price _ => shares.nodup (side, price), ?_⟩
    refine (b.levels side).nodup.imp fun {price price'} different i first second => ?_
    exact different (Prod.mk.inj (shares.apart first second)).2
  refine List.nodup_append.2 ⟨side .bid, side .ask, ?_⟩
  rintro i among _ among' rfl
  obtain ⟨price, here⟩ := (mem_sideQueues b .bid i).1 among
  obtain ⟨price', there⟩ := (mem_sideQueues b .ask i).1 among'
  have same := shares.apart here there
  cases same

theorem resting_of_exceeded {b : Orderbook F} (consistent : b.Consistent) {side : OrderSide} {price quantity : F}
    {orderId timestamp : Nat}
    (exceeded : (b.addLimit side price orderId quantity timestamp).1 = .error "Order pool capacity exceeded") :
    b.resting.length = b.entryPool.capacity := by
  have checked : (b.addOrder side price orderId quantity timestamp).1 = .error "Order pool capacity exceeded" := by
    cases side with
    | bid =>
        simp only [addLimit, addLimitBid] at exceeded
        iterate 8 (split at exceeded; · simp at exceeded)
        exact exceeded
    | ask =>
        simp only [addLimit, addLimitAsk] at exceeded
        iterate 3 (split at exceeded; · simp at exceeded)
        exact exceeded
  obtain ⟨p, refused⟩ : ∃ p, b.entryPool.allocate orderId quantity timestamp = (none, p) := by
    unfold addOrder at checked
    split at checked
    · cases checked
    next p refused => exact ⟨p, refused⟩
  have all : b.resting.Perm (List.range b.entryPool.capacity) := by
    refine (List.perm_ext_iff_of_nodup (nodup_resting consistent) List.nodup_range).2 fun i => ?_
    rw [mem_resting consistent, List.mem_range]
    exact ⟨fun occupied => occupied.lt consistent.agrees.sound,
      fun within => OrderEntryPool.allocate_none consistent.agrees.sound refused within⟩
  rw [all.length_eq, List.length_range]

/-- The book and its pool of `capacity` slots fit together. -/
structure PoolConsistent (capacity : Nat) (b : Orderbook F) : Prop where
  /-- Every slot in use is referenced from exactly one place. -/
  referenced : ∀ i, b.entryPool.Occupied i → ∃! place, b.slotAt place = some i
  occupied : ∀ place i, b.slotAt place = some i → b.entryPool.Occupied i
  /-- The free slots are the unused ones. -/
  nodup : b.entryPool.freeIndices.Nodup
  free : ∀ i, i ∈ b.entryPool.freeIndices ↔ i < b.entryPool.nextNew ∧ ¬ b.entryPool.Occupied i
  within : b.entryPool.nextNew ≤ capacity
  full : ∀ side price, (b.levels side).get price ≠ some []
  /-- An order finds no room only when every slot holds a resting order. -/
  exceeded : ∀ side price orderId quantity timestamp,
    (b.addLimit side price orderId quantity timestamp).1 = .error "Order pool capacity exceeded" →
      b.resting.length = capacity

/-- No sequence of calls breaks a book. -/
theorem run_poolConsistent (capacity : Nat) (calls : List (BookCall F)) :
    PoolConsistent capacity ((new capacity : Orderbook F).run calls) := by
  obtain ⟨consistent, slots⟩ : (new capacity : Orderbook F).Keeps ((new capacity).run calls) := run_keeps (new_consistent capacity)
  have shares := consistent.agrees.shares
  have sound := consistent.agrees.sound
  refine ⟨fun i occupied => shares.existsUnique_place occupied, fun place i here => shares.items_of_place here,
    sound.nodup, sound.free, sound.within.trans slots.le, consistent.full, ?_⟩
  intro side price orderId quantity timestamp exceeded
  rw [resting_of_exceeded consistent exceeded]
  exact slots

end Orderbook

end OrderBook
