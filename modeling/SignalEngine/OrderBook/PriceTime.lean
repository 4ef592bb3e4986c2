import SignalEngine.Lib.Serving
import SignalEngine.OrderBook.Consistency
import Mathlib.Data.List.Range
import Mathlib.Tactic.Ring

/-! # Price-time priority

A market order takes the resting orders of the other side, the best price first and at
one price the oldest first. It uses up orders until it is done; the last one may give a
part and stays in its place with the rest. Everything else is left as it is.
-/

namespace OrderBook

/-! ## Resting orders -/

def ordersIn (p : OrderEntryPool ℚ) (price : ℚ) (slots : List Nat) : List (RestingOrder ℚ) :=
  slots.filterMap fun i => (p.get i).map fun entry => ⟨price, i, entry⟩

def paid (given : List (RestingOrder ℚ × ℚ)) : ℚ := (given.map fun g => g.1.price * g.2).sum

/-- The reference: a quantity is taken from a list of orders. -/
abbrev takeOrders (quantity : ℚ) (orders : List (RestingOrder ℚ)) : List (RestingOrder ℚ × ℚ) × List (RestingOrder ℚ) :=
  Serving.serve RestingOrder.quantity RestingOrder.reduce quantity orders

theorem paid_append (given more : List (RestingOrder ℚ × ℚ)) : paid (given ++ more) = paid given + paid more := by
  simp [paid]

section Slots

variable {p p' : OrderEntryPool ℚ} {price : ℚ} {slots : List Nat}

theorem ordersIn_cons {index : Nat} {entry : OrderbookEntry ℚ} (here : p.get index = some entry) (rest : List Nat) :
    ordersIn p price (index :: rest) = ⟨price, index, entry⟩ :: ordersIn p price rest := by
  simp [ordersIn, here]

theorem ordersIn_congr (same : ∀ i ∈ slots, p'.get i = p.get i) : ordersIn p' price slots = ordersIn p price slots := by
  apply List.filterMap_congr
  intro i member
  rw [same i member]

end Slots

namespace Orderbook

/-! ## One level -/

theorem fillOrders_done {price : ℚ} {orders : List Nat} {i : Nat} {f : Fills ℚ} (done : f.remaining ≤ 0) :
    fillOrders price orders i f = ([], f) := by
  cases orders with
  | nil => rfl
  | cons index rest => rw [fillOrders, if_neg (not_lt.2 done)]

/-- Matching along a queue: the orders used up are the first ones, and what is taken
    and what is left are those of the reference. -/
theorem fillOrders_spec (price : ℚ) : ∀ (orders : List Nat) (i : Nat) (f : Fills ℚ), orders.Nodup →
    (∀ j ∈ orders, (f.pool.get j).isSome) → ∃ k ≤ orders.length,
      (fillOrders price orders i f).1 = List.range' i k ∧
      (fillOrders price orders i f).2.remaining =
        f.remaining - Serving.total (takeOrders f.remaining (ordersIn f.pool price orders)).1 ∧
      (fillOrders price orders i f).2.executed =
        f.executed + Serving.total (takeOrders f.remaining (ordersIn f.pool price orders)).1 ∧
      (fillOrders price orders i f).2.cost =
        f.cost + paid (takeOrders f.remaining (ordersIn f.pool price orders)).1 ∧
      ordersIn (fillOrders price orders i f).2.pool price (orders.drop k) =
        (takeOrders f.remaining (ordersIn f.pool price orders)).2 ∧
      (∀ j, ((fillOrders price orders i f).2.pool.get j).isSome = (f.pool.get j).isSome) ∧
      ∀ j, j ∉ orders → (fillOrders price orders i f).2.pool.get j = f.pool.get j := by
  intro orders
  induction orders with
  | nil =>
      intro i f _ _
      exact ⟨0, le_rfl, by simp [fillOrders, ordersIn, paid]⟩
  | cons index rest ih =>
      intro i f nodup occupied
      obtain ⟨fresh, nodup'⟩ := List.nodup_cons.1 nodup
      by_cases done : f.remaining ≤ 0
      · refine ⟨0, Nat.zero_le _, ?_⟩
        rw [fillOrders_done done, takeOrders, Serving.serve_done done]
        simp [paid]
      obtain ⟨entry, here⟩ := Option.isSome_iff_exists.1 (occupied index (by simp))
      rw [fillOrders, if_pos (not_le.1 done), here, ordersIn_cons here, takeOrders, Serving.serve, if_neg done]
      dsimp only
      by_cases whole : entry.quantity ≤ f.remaining
      · -- the order is used up
        have all : min entry.quantity f.remaining = entry.quantity := min_eq_left whole
        rw [all, if_pos le_rfl, if_pos (show RestingOrder.quantity ⟨price, index, entry⟩ ≤ f.remaining from whole)]
        obtain ⟨k, within, used, remaining, executed, cost, left, slots, others⟩ := ih (i + 1)
          { f with
            remaining := f.remaining - entry.quantity
            executed := f.executed + entry.quantity
            cost := f.cost + price * entry.quantity } nodup' fun j member => occupied j (by simp [member])
        refine ⟨k + 1, Nat.succ_le_succ within, ?_, ?_, ?_, ?_, ?_, slots, ?_⟩
        · rw [used, List.range'_succ]
        · rw [remaining, Serving.total_cons, RestingOrder.quantity]
          ring
        · rw [executed, Serving.total_cons, RestingOrder.quantity]
          ring
        · rw [cost]
          simp only [paid, List.map_cons, List.sum_cons, RestingOrder.quantity]
          ring
        · exact left
        · intro j absent
          exact others j fun member => absent (by simp [member])
      · -- a part of it is taken, and the demand is met
        have part : min entry.quantity f.remaining = f.remaining := min_eq_right (not_le.1 whole).le
        rw [part, if_neg whole, if_neg (show ¬ RestingOrder.quantity ⟨price, index, entry⟩ ≤ f.remaining from whole),
          fillOrders_done (by simp)]
        have content := OrderEntryPool.get_getMut here fun entry' =>
          { entry' with quantity := entry.quantity - f.remaining }
        refine ⟨0, Nat.zero_le _, rfl, ?_, ?_, ?_, ?_, ?_, ?_⟩
        · simp
        · simp
        · simp [paid]
        · rw [List.drop_zero, ordersIn_cons ((content index).trans (if_pos rfl))]
          have rest' : ordersIn (f.pool.getMut index fun entry' =>
              { entry' with quantity := entry.quantity - f.remaining }).2 price rest = ordersIn f.pool price rest := by
            apply ordersIn_congr
            intro j member
            rw [content, if_neg]
            rintro rfl
            exact fresh member
          rw [rest']
          rfl
        · intro j
          rw [content]
          split
          next same => rw [same, here]; rfl
          next => rfl
        · intro j absent
          rw [content, if_neg]
          rintro rfl
          exact absent (by simp)

theorem removeUsed_front : ∀ (k : Nat) (orders : List Nat) (p : OrderEntryPool ℚ), k ≤ orders.length → orders.Nodup →
    (∀ j ∈ orders, (p.get j).isSome) →
      (removeUsed (List.range' 0 k) orders p).1 = orders.drop k ∧
        ∀ j, (removeUsed (List.range' 0 k) orders p).2.get j = if j ∈ orders.take k then none else p.get j := by
  intro k
  induction k with
  | zero =>
      intro orders p _ _ _
      simp [removeUsed]
  | succ k ih =>
      intro orders p within nodup occupied
      have split : List.range' 0 (k + 1) = List.range' 0 k ++ [k] := by simp [List.range'_1_concat]
      have here : orders[k]? = some orders[k] := List.getElem?_eq_getElem within
      obtain ⟨entry, content⟩ := Option.isSome_iff_exists.1 (occupied orders[k] (List.getElem_mem within))
      have first : removeUsed (List.range' 0 (k + 1)) orders p =
          removeUsed (List.range' 0 k) (orders.eraseIdx k) (p.free orders[k]) := by
        rw [split, removeUsed, List.reverse_append, List.reverse_singleton, List.singleton_append, List.foldl_cons,
          dropAt, here]
        rfl
      have freed := OrderEntryPool.get_free content
      have parts : orders.eraseIdx k = orders.take k ++ orders.drop (k + 1) := List.eraseIdx_eq_take_drop_succ ..
      have apart : ∀ j ∈ orders.eraseIdx k, j ≠ orders[k] := by
        intro j member same
        obtain ⟨m, other, there⟩ := List.mem_eraseIdx_iff_getElem?.1 member
        rw [same, ← here, eq_comm] at there
        exact other ((List.getElem?_inj within nodup).1 there).symm
      have front : (orders.eraseIdx k).take k = orders.take k := List.take_eraseIdx_eq_take_of_le _ _ _ le_rfl
      have short : k ≤ (orders.eraseIdx k).length := by
        rw [List.length_eraseIdx_of_lt within]
        exact Nat.le_sub_one_of_lt within
      obtain ⟨left, slots⟩ := ih (orders.eraseIdx k) (p.free orders[k]) short (nodup.eraseIdx k) (by
        intro j member
        rw [freed, if_neg (apart j member)]
        exact occupied j (List.mem_of_mem_eraseIdx member))
      rw [first]
      refine ⟨?_, fun j => ?_⟩
      · rw [left, parts, List.drop_left' (List.length_take_of_le (Nat.le_of_succ_le within))]
      · have among : j ∈ orders.take (k + 1) ↔ j ∈ orders.take k ∨ j = orders[k] := by
          rw [List.take_succ_eq_append_getElem within, List.mem_append, List.mem_singleton]
        simp only [slots, front, freed, among]
        by_cases last : j = orders[k]
        · subst last
          simp
        · simp [last]

/-! ## The sweep -/

/-- The queue of a price among the levels of one side. -/
def queueIn (levels : Levels ℚ) (price : ℚ) : List Nat := (levels.get price).getD []

def Sweep.ordersAt (s : Sweep ℚ) (prices : List ℚ) : List (RestingOrder ℚ) :=
  prices.flatMap fun price => ordersIn s.fills.pool price (queueIn s.levels price)

def Sweep.taken (s : Sweep ℚ) (prices : List ℚ) : List (RestingOrder ℚ × ℚ) × List (RestingOrder ℚ) :=
  takeOrders s.fills.remaining (s.ordersAt prices)

/-- From one state to the other the orders at these prices were taken, and nothing else
    changed. -/
structure Takes (prices : List ℚ) (s s' : Sweep ℚ) : Prop where
  remaining : s'.fills.remaining = s.fills.remaining - Serving.total (s.taken prices).1
  executed : s'.fills.executed = s.fills.executed + Serving.total (s.taken prices).1
  cost : s'.fills.cost = s.fills.cost + paid (s.taken prices).1
  left : s'.ordersAt prices = (s.taken prices).2
  kept : ∀ price, queueIn s'.levels price ⊆ queueIn s.levels price
  levels : ∀ price, price ∉ prices → s'.levels.get price = s.levels.get price
  slots : ∀ j, j ∉ prices.flatMap (queueIn s.levels) → s'.fills.pool.get j = s.fills.pool.get j

theorem Takes.done {prices : List ℚ} {s : Sweep ℚ} (done : s.fills.remaining ≤ 0) : Takes prices s s := by
  have nothing : s.taken prices = ([], s.ordersAt prices) := Serving.serve_done done _
  refine ⟨?_, ?_, ?_, ?_, fun _ => List.Subset.refl _, fun _ _ => rfl, fun _ _ => rfl⟩
  · simp [nothing]
  · simp [nothing]
  · simp [nothing, paid]
  · simp [nothing]

theorem Takes.ordersAt_eq {prices others : List ℚ} {s s' : Sweep ℚ} (takes : Takes prices s s')
    (apart : ∀ price ∈ others, price ∉ prices)
    (shared : ∀ price ∈ others, ∀ j ∈ queueIn s.levels price, j ∉ prices.flatMap (queueIn s.levels)) :
    s'.ordersAt others = s.ordersAt others := by
  apply List.flatMap_congr
  intro price member
  have queue : queueIn s'.levels price = queueIn s.levels price := by
    unfold queueIn
    rw [takes.levels price (apart price member)]
  rw [queue]
  exact ordersIn_congr fun j among => takes.slots j (shared price member j among)

theorem Takes.cons {price : ℚ} {prices : List ℚ} {s s' s'' : Sweep ℚ} (first : Takes [price] s s')
    (rest : Takes prices s' s'') (fresh : price ∉ prices)
    (apart : ∀ price' ∈ prices, ∀ j ∈ queueIn s.levels price', j ∉ queueIn s.levels price) :
    Takes (price :: prices) s s'' := by
  have later : s'.ordersAt prices = s.ordersAt prices := by
    refine first.ordersAt_eq (fun price' member => ?_) (fun price' member j among => ?_)
    · rw [List.mem_singleton]
      rintro rfl
      exact fresh member
    · rw [List.flatMap_singleton]
      exact apart price' member j among
  have joined : s.taken (price :: prices) =
      ((s.taken [price]).1 ++ (s'.taken prices).1, (s.taken [price]).2 ++ (s'.taken prices).2) := by
    unfold Sweep.taken
    rw [later, first.remaining]
    have parts : s.ordersAt (price :: prices) = s.ordersAt [price] ++ s.ordersAt prices := by
      simp [Sweep.ordersAt]
    rw [parts, takeOrders, Serving.serve_append]
    rfl
  have queues : ∀ price' ∈ prices, queueIn s'.levels price' = queueIn s.levels price' := by
    intro price' member
    unfold queueIn
    rw [first.levels price']
    rw [List.mem_singleton]
    rintro rfl
    exact fresh member
  have stays : s''.ordersAt [price] = s'.ordersAt [price] := by
    refine rest.ordersAt_eq (fun price' member => ?_) (fun price' member j among => ?_)
    · rwa [List.mem_singleton.1 member]
    · rw [List.mem_singleton.1 member] at among
      rw [List.mem_flatMap]
      rintro ⟨other, inPrices, there⟩
      exact apart other inPrices j (first.kept other there) (first.kept price among)
  refine ⟨?_, ?_, ?_, ?_, fun price' => List.Subset.trans (rest.kept price') (first.kept price'), fun price' absent => ?_,
    fun j absent => ?_⟩
  · rw [rest.remaining, first.remaining, joined, Serving.total_append, sub_sub]
  · rw [rest.executed, first.executed, joined, Serving.total_append, add_assoc]
  · rw [rest.cost, first.cost, joined, paid_append, add_assoc]
  · have parts : s''.ordersAt (price :: prices) = s''.ordersAt [price] ++ s''.ordersAt prices := by
      simp [Sweep.ordersAt]
    rw [parts, stays, first.left, rest.left, joined]
  · rw [List.mem_cons, not_or] at absent
    rw [rest.levels price' absent.2, first.levels price' (by simpa using absent.1)]
  · rw [List.flatMap_cons, List.mem_append, not_or] at absent
    rw [rest.slots j, first.slots j (by simpa using absent.1)]
    rw [List.mem_flatMap] at absent ⊢
    rintro ⟨price', member, among⟩
    rw [queues price' member] at among
    exact absent.2 ⟨price', member, among⟩

theorem taken_one (s : Sweep ℚ) (price : ℚ) :
    s.taken [price] = takeOrders s.fills.remaining (ordersIn s.fills.pool price (queueIn s.levels price)) := by
  simp [Sweep.taken, Sweep.ordersAt]

section Swept

variable {b : Orderbook ℚ} {resting : OrderSide} {s : Sweep ℚ}

theorem queueOf_swept (b : Orderbook ℚ) (resting : OrderSide) (s : Sweep ℚ) (price : ℚ) :
    queueOf (b.setLevels resting s.levels).levels (resting, price) = queueIn s.levels price := by
  unfold queueOf queueIn
  rw [levels_setLevels, if_pos rfl]

theorem Swept.nodup (swept : b.Swept resting s) (price : ℚ) : (queueIn s.levels price).Nodup := by
  rw [← queueOf_swept b resting s]
  exact swept.agrees.shares.nodup (resting, price)

theorem Swept.apart (swept : b.Swept resting s) {price price' : ℚ} {j : Nat} (here : j ∈ queueIn s.levels price)
    (there : j ∈ queueIn s.levels price') : price = price' := by
  rw [← queueOf_swept b resting s] at here there
  exact (Prod.mk.inj (swept.agrees.shares.apart here there)).2

theorem Swept.occupied (swept : b.Swept resting s) {price : ℚ} {j : Nat} (here : j ∈ queueIn s.levels price) :
    (s.fills.pool.get j).isSome := by
  rw [← queueOf_swept b resting s] at here
  exact OrderEntryPool.isSome_get swept.agrees.sound ((swept.agrees.shares.mem j).2 ⟨_, here⟩)

theorem sweepLevel_takes (swept : b.Swept resting s) (price : ℚ) : Takes [price] s (sweepLevel s price) := by
  cases level : s.levels.get price with
  | none =>
      have nobody : queueIn s.levels price = [] := by
        unfold queueIn
        rw [level]
        rfl
      have same : sweepLevel s price = s := by
        unfold sweepLevel
        rw [level]
      have nothing : s.taken [price] = ([], []) := by
        rw [taken_one, nobody]
        rfl
      rw [same]
      refine ⟨?_, ?_, ?_, ?_, fun _ => List.Subset.refl _, fun _ _ => rfl, fun _ _ => rfl⟩
      · simp [nothing]
      · simp [nothing]
      · simp [nothing, paid]
      · simp [nothing, Sweep.ordersAt, nobody, ordersIn]
  | some orders =>
      have queue : queueIn s.levels price = orders := by
        unfold queueIn
        rw [level]
        rfl
      have nodup := swept.nodup price
      have occupied : ∀ j ∈ orders, (s.fills.pool.get j).isSome := fun j member => swept.occupied (queue ▸ member)
      rw [queue] at nodup
      obtain ⟨k, short, used, remaining, executed, cost, left, slots, others⟩ :=
        fillOrders_spec price orders 0 s.fills nodup occupied
      obtain ⟨queue', freed⟩ := removeUsed_front k orders (fillOrders price orders 0 s.fills).2.pool short nodup
        fun j member => by
          rw [slots]
          exact occupied j member
      have after : sweepLevel s price = {
          levels := s.levels.insert price (orders.drop k)
          fills := { (fillOrders price orders 0 s.fills).2 with
            pool := (removeUsed (List.range' 0 k) orders (fillOrders price orders 0 s.fills).2.pool).2 }
          emptied := if (orders.drop k).isEmpty then s.emptied ++ [price] else s.emptied } := by
        unfold sweepLevel
        rw [level]
        dsimp only
        rw [used, queue']
      have taken : s.taken [price] = takeOrders s.fills.remaining (ordersIn s.fills.pool price orders) := by
        rw [taken_one, queue]
      have queues (price' : ℚ) : queueIn (sweepLevel s price).levels price' =
          if price' = price then orders.drop k else queueIn s.levels price' := by
        rw [after]
        unfold queueIn
        dsimp only
        rw [Registry.get_insert]
        split
        · rfl
        · rfl
      refine ⟨?_, ?_, ?_, ?_, fun price' => ?_, fun price' absent => ?_, fun j absent => ?_⟩
      · rw [after, taken]
        exact remaining
      · rw [after, taken]
        exact executed
      · rw [after, taken]
        exact cost
      · rw [taken, ← left, Sweep.ordersAt, List.flatMap_singleton, queues, if_pos rfl, after]
        apply ordersIn_congr
        intro j member
        -- what stays in the queue was not freed
        rw [freed, if_neg]
        intro gone
        exact List.disjoint_take_drop nodup le_rfl gone member
      · rw [queues]
        split
        next own =>
          rw [own, queue]
          exact List.drop_subset ..
        next => exact List.Subset.refl _
      · rw [after]
        dsimp only
        rw [Registry.get_insert, if_neg (by simpa using absent)]
      · rw [List.flatMap_singleton, queue] at absent
        rw [after]
        dsimp only
        rw [freed, if_neg fun among => absent (List.mem_of_mem_take among), others j absent]

theorem sweep_takes : ∀ {prices : List ℚ} {s : Sweep ℚ}, prices.Nodup → b.Swept resting s →
    Takes prices s (sweep prices s) := by
  intro prices
  induction prices with
  | nil =>
      intro s _ _
      refine ⟨?_, ?_, ?_, rfl, fun _ => List.Subset.refl _, fun _ _ => rfl, fun _ _ => rfl⟩
      · simp [sweep, Sweep.taken, Sweep.ordersAt]
      · simp [sweep, Sweep.taken, Sweep.ordersAt]
      · simp [sweep, Sweep.taken, Sweep.ordersAt, paid]
  | cons price prices ih =>
      intro s nodup swept
      obtain ⟨fresh, nodup'⟩ := List.nodup_cons.1 nodup
      unfold sweep
      by_cases done : s.fills.remaining ≤ 0
      · rw [if_pos done]
        exact .done done
      · rw [if_neg done]
        refine (sweepLevel_takes swept price).cons (ih nodup' (sweepLevel_swept swept price)) fresh ?_
        intro price' member j there here
        rw [swept.apart here there] at fresh
        exact fresh member

end Swept

/-! ## The prices -/

def Better : OrderSide → ℚ → ℚ → Prop
  | .ask, price, price' => price < price'
  | .bid, price, price' => price' < price

def Within : OrderSide → (priceLimit price : ℚ) → Prop
  | .ask, priceLimit, price => price ≤ priceLimit
  | .bid, priceLimit, price => priceLimit ≤ price

theorem mem_takeWhile_of_sorted {r : ℚ → ℚ → Prop} {p : ℚ → Bool} (down : ∀ a b, r a b → p b → p a) :
    ∀ {prices : List ℚ}, prices.Pairwise r → ∀ price, price ∈ prices.takeWhile p ↔ price ∈ prices ∧ p price := by
  intro prices
  induction prices with
  | nil => simp
  | cons first prices ih =>
      intro sorted price
      obtain ⟨before, sorted'⟩ := List.pairwise_cons.1 sorted
      rw [List.takeWhile_cons]
      by_cases reached : p first
      · rw [if_pos reached, List.mem_cons, List.mem_cons, ih sorted']
        constructor
        · rintro (rfl | ⟨member, holds⟩)
          · exact ⟨.inl rfl, reached⟩
          · exact ⟨.inr member, holds⟩
        · rintro ⟨rfl | member, holds⟩
          · exact .inl rfl
          · exact .inr ⟨member, holds⟩
      · rw [if_neg reached]
        refine iff_of_false List.not_mem_nil ?_
        rintro ⟨member, holds⟩
        rcases List.mem_cons.1 member with rfl | later
        · exact reached holds
        · exact reached (down _ _ (before price later) holds)

theorem eligiblePrices_spec (levels : Levels ℚ) (resting : OrderSide) (priceLimit : ℚ) :
    (eligiblePrices levels resting priceLimit).Pairwise (Better resting) ∧
      ∀ price, price ∈ eligiblePrices levels resting priceLimit ↔
        (levels.get price).isSome ∧ Within resting priceLimit price := by
  cases resting with
  | ask =>
      have sorted : (levels.keys.insertionSort (· ≤ ·)).Pairwise (· ≤ ·) := List.pairwise_insertionSort ..
      have nodup := (List.perm_insertionSort (· ≤ ·) levels.keys).nodup_iff.2 levels.nodup
      refine ⟨?_, fun price => ?_⟩
      · refine ((sorted.and nodup).imp ?_).sublist (List.takeWhile_sublist _)
        exact fun h => lt_of_le_of_ne h.1 h.2
      · rw [eligiblePrices, mem_takeWhile_of_sorted (r := (· ≤ ·)) _ sorted, List.mem_insertionSort, Registry.mem_keys,
          decide_eq_true_eq]
        · rfl
        · intro a b le within
          simpa using le.trans (of_decide_eq_true within)
  | bid =>
      have sorted : (levels.keys.insertionSort (· ≥ ·)).Pairwise (· ≥ ·) := List.pairwise_insertionSort ..
      have nodup := (List.perm_insertionSort (· ≥ ·) levels.keys).nodup_iff.2 levels.nodup
      refine ⟨?_, fun price => ?_⟩
      · refine ((sorted.and nodup).imp ?_).sublist (List.takeWhile_sublist _)
        exact fun h => lt_of_le_of_ne h.1 h.2.symm
      · rw [eligiblePrices, mem_takeWhile_of_sorted (r := (· ≥ ·)) _ sorted, List.mem_insertionSort, Registry.mem_keys,
          decide_eq_true_eq]
        · rfl
        · intro a b le within
          simpa using (of_decide_eq_true within).trans le

/-! ## The match -/

/-- A quantity is taken from the first orders. Those that give all they have are gone;
    at most one more, the last that is touched, gives a part and stays with the rest. -/
inductive TakenInOrder (quantity : ℚ) : (orders : List (RestingOrder ℚ)) → (given : List (RestingOrder ℚ × ℚ)) →
    (left : List (RestingOrder ℚ)) → Prop where
  | whole (done rest : List (RestingOrder ℚ)) (met : rest = [] ∨ (done.map RestingOrder.quantity).sum = quantity) :
      TakenInOrder quantity (done ++ rest) (done.map fun o => (o, o.quantity)) rest
  | part (done : List (RestingOrder ℚ)) (o : RestingOrder ℚ) (part : ℚ) (rest : List (RestingOrder ℚ)) (some : 0 < part)
      (less : part < o.quantity) (met : (done.map RestingOrder.quantity).sum + part = quantity) :
      TakenInOrder quantity (done ++ o :: rest) (done.map (fun o => (o, o.quantity)) ++ [(o, part)])
        (o.reduce part :: rest)

theorem total_whole (done : List (RestingOrder ℚ)) :
    Serving.total (done.map fun o => (o, o.quantity)) = (done.map RestingOrder.quantity).sum := by
  rw [Serving.total, List.map_map]
  rfl

theorem takeOrders_inOrder {quantity : ℚ} (demanded : 0 ≤ quantity) {orders : List (RestingOrder ℚ)}
    (positive : ∀ o ∈ orders, 0 < o.quantity) :
    TakenInOrder quantity orders (takeOrders quantity orders).1 (takeOrders quantity orders).2 := by
  have total := Serving.total_serve RestingOrder.quantity RestingOrder.reduce demanded
    fun o member => (positive o member).le
  obtain ⟨done, rest, rfl, ⟨given, left, met⟩ | ⟨o, later, rfl, some, less, given, left⟩⟩ :=
    Serving.serve_split RestingOrder.quantity RestingOrder.reduce orders quantity
  · rw [takeOrders, given, left]
    refine .whole done rest (met.imp id fun enough => ?_)
    rw [given, total_whole] at total
    have atMost : (done.map RestingOrder.quantity).sum ≤ quantity := total.trans_le (min_le_left _ _)
    exact le_antisymm atMost (sub_nonpos.1 enough)
  · rw [takeOrders, given, left]
    exact .part done o _ later some less (by ring)

/-- The resting orders of a side at some prices, price by price and in time order. -/
def ordersAt (b : Orderbook ℚ) (side : OrderSide) (prices : List ℚ) : List (RestingOrder ℚ) :=
  prices.flatMap fun price => ordersIn b.entryPool price (queueOf b.levels (side, price))

/-- A market order was matched with price-time priority against the orders of one side. -/
structure Matched (b b' : Orderbook ℚ) (resting : OrderSide) (priceLimit quantity : ℚ) (result : ExecutionResult ℚ)
    (prices : List ℚ) (given : List (RestingOrder ℚ × ℚ)) : Prop where
  /-- The levels within the limit, the best first. -/
  sorted : prices.Pairwise (Better resting)
  levels : ∀ price, price ∈ prices ↔ ((b.levels resting).get price).isSome ∧ Within resting priceLimit price
  executed : result.executedQuantity = min quantity ((b.ordersAt resting prices).map RestingOrder.quantity).sum
  conserved : result.executedQuantity + result.remainingQuantity = quantity
  inOrder : TakenInOrder quantity (b.ordersAt resting prices) given (b'.ordersAt resting prices)
  total : Serving.total given = result.executedQuantity
  average : result.averagePrice * result.executedQuantity = paid given
  complete : result.status = .complete ↔ result.remainingQuantity = 0
  partly : result.status = .partly ↔ 0 < result.executedQuantity ∧ result.executedQuantity < quantity
  unfilled : result.status = .unfilled ↔ result.executedQuantity = 0
  /-- The other prices and the other side. -/
  others : ∀ side price, ¬ (side = resting ∧ price ∈ prices) →
    (b'.levels side).get price = (b.levels side).get price ∧ b'.ordersAt side [price] = b.ordersAt side [price]

theorem mem_ordersIn {p : OrderEntryPool ℚ} {price : ℚ} {slots : List Nat} {o : RestingOrder ℚ}
    (member : o ∈ ordersIn p price slots) : p.get o.slot = some o.entry := by
  obtain ⟨i, -, found⟩ := List.mem_filterMap.1 member
  obtain ⟨entry, here, rfl⟩ := Option.map_eq_some_iff.1 found
  exact here

theorem ordersAt_after {b : Orderbook ℚ} {resting : OrderSide} {s : Sweep ℚ} (swept : b.Swept resting s)
    (metrics : MatchMetrics) (prices : List ℚ) :
    Orderbook.ordersAt { b.setLevels resting (s.emptied.foldl Registry.erase s.levels) with
      entryPool := s.fills.pool, metrics } resting prices = s.ordersAt prices := by
  apply List.flatMap_congr
  intro price _
  have queue : queueOf (Orderbook.levels { b.setLevels resting (s.emptied.foldl Registry.erase s.levels) with
      entryPool := s.fills.pool, metrics }) (resting, price) = queueIn s.levels price := by
    rw [← queueOf_swept b resting s, ← swept.queueOf_erased]
    cases resting with
    | bid => rfl
    | ask => rfl
  rw [queue]

theorem others_after {b : Orderbook ℚ} (consistent : b.Consistent) {resting : OrderSide} {quantity : ℚ} {s : Sweep ℚ}
    {prices : List ℚ} (takes : Takes prices ⟨b.levels resting, ⟨quantity, 0, 0, b.entryPool⟩, []⟩ s)
    (swept : b.Swept resting s) (metrics : MatchMetrics) {side : OrderSide} {price : ℚ}
    (other : ¬ (side = resting ∧ price ∈ prices)) {b' : Orderbook ℚ}
    (after : b' = { b.setLevels resting (s.emptied.foldl Registry.erase s.levels) with
      entryPool := s.fills.pool, metrics }) :
    (b'.levels side).get price = (b.levels side).get price ∧ b'.ordersAt side [price] = b.ordersAt side [price] := by
  have levels : b'.levels side =
      if side = resting then s.emptied.foldl Registry.erase s.levels else b.levels side := by
    rw [← levels_setLevels, after]
    cases resting with
    | bid => rfl
    | ask => rfl
  have pool : b'.entryPool = s.fills.pool := by rw [after]
  have level : (b'.levels side).get price = (b.levels side).get price := by
    rw [levels]
    split
    next own =>
      subst own
      have same := takes.levels price fun member => other ⟨rfl, member⟩
      rw [get_eraseAll, same, if_neg]
      intro noted
      rw [← swept.empty, same] at noted
      exact consistent.full side price noted
    next => rfl
  refine ⟨level, ?_⟩
  have queue : queueOf b'.levels (side, price) = queueOf b.levels (side, price) := by
    unfold queueOf
    rw [level]
  rw [Orderbook.ordersAt, Orderbook.ordersAt, List.flatMap_singleton, List.flatMap_singleton, queue, pool]
  apply ordersIn_congr
  intro j among
  refine takes.slots j ?_
  rw [List.mem_flatMap]
  rintro ⟨price', member, there⟩
  obtain ⟨rfl, rfl⟩ := Prod.mk.inj
    (consistent.agrees.shares.apart among (show j ∈ queueOf b.levels (resting, price') from there))
  exact other ⟨rfl, member⟩

/-- Whether something, everything or nothing was executed. -/
theorem status_spec {quantity executed remaining : ℚ} (conserved : executed + remaining = quantity)
    (atLeast : 0 ≤ executed) (atMost : executed ≤ quantity) (demanded : 0 < quantity) {status : ExecutionStatus}
    (reported : status = if remaining ≤ 0 then .complete else if 0 < executed then .partly else .unfilled) :
    (status = .complete ↔ remaining = 0) ∧ (status = .partly ↔ 0 < executed ∧ executed < quantity) ∧
      (status = .unfilled ↔ executed = 0) := by
  subst reported
  by_cases finished : remaining ≤ 0
  · have none : remaining = 0 := by linarith
    have all : executed = quantity := by linarith
    simp [none, all, demanded.ne']
  · have more : remaining ≠ 0 := fun none => finished none.le
    have below : executed < quantity := by linarith [not_le.1 finished]
    rw [if_neg finished]
    by_cases some : 0 < executed
    · simp [some, below, more, some.ne']
    · simp [more, le_antisymm (not_lt.1 some) atLeast]

theorem matchMarket_matched {b : Orderbook ℚ} (consistent : b.Consistent)
    (positive : ∀ i entry, b.entryPool.get i = some entry → 0 < entry.quantity) (resting : OrderSide)
    {priceLimit quantity : ℚ} (demanded : 0 < quantity) (limited : 0 < priceLimit) (elapsed : Nat) :
    ∃ result prices given, (b.matchMarket resting priceLimit quantity elapsed).1 = .ok result ∧
      b.Matched (b.matchMarket resting priceLimit quantity elapsed).2 resting priceLimit quantity result prices given := by
  obtain ⟨sorted, levels⟩ := eligiblePrices_spec (b.levels resting) resting priceLimit
  have start := consistent.swept resting quantity
  unfold matchMarket
  rw [if_neg (not_le.2 demanded), if_neg (not_le.2 limited), if_neg (by simp)]
  dsimp only
  generalize eligiblePrices (b.levels resting) resting priceLimit = prices at sorted levels ⊢
  have nodup : prices.Nodup := by
    refine sorted.imp fun {price price'} better => ?_
    rintro rfl
    cases resting with
    | bid => exact lt_irrefl _ better
    | ask => exact lt_irrefl _ better
  have takes := sweep_takes nodup start
  have swept : b.Swept resting (sweep prices ⟨b.levels resting, ⟨quantity, 0, 0, b.entryPool⟩, []⟩) := sweep_swept start
  generalize sweep prices ⟨b.levels resting, ⟨quantity, 0, 0, b.entryPool⟩, []⟩ = s at takes swept ⊢
  have sized : ∀ o ∈ b.ordersAt resting prices, 0 < o.quantity := by
    intro o member
    obtain ⟨price, -, among⟩ := List.mem_flatMap.1 member
    exact positive o.slot o.entry (mem_ordersIn among)
  have total := Serving.total_serve RestingOrder.quantity RestingOrder.reduce demanded.le
    fun o member => (sized o member).le
  have inOrder := takeOrders_inOrder demanded.le sized
  have remaining : s.fills.remaining =
      quantity - Serving.total (takeOrders quantity (b.ordersAt resting prices)).1 := takes.remaining
  have executed : s.fills.executed = Serving.total (takeOrders quantity (b.ordersAt resting prices)).1 :=
    takes.executed.trans (zero_add _)
  have cost : s.fills.cost = paid (takeOrders quantity (b.ordersAt resting prices)).1 :=
    takes.cost.trans (zero_add _)
  have left : s.ordersAt prices = (takeOrders quantity (b.ordersAt resting prices)).2 := takes.left
  have conserved : s.fills.executed + s.fills.remaining = quantity := by
    rw [executed, remaining]
    ring
  have atLeast : 0 ≤ s.fills.executed := by
    rw [executed, takeOrders, total]
    exact le_min demanded.le (Serving.sum_nonneg _ _ fun o member => (sized o member).le)
  have atMost : s.fills.executed ≤ quantity := by
    rw [executed, takeOrders, total]
    exact min_le_left _ _
  obtain ⟨complete, partly, unfilled⟩ := status_spec conserved atLeast atMost demanded rfl
  refine ⟨_, prices, (takeOrders quantity (b.ordersAt resting prices)).1, rfl, sorted, levels,
    executed.trans total, conserved, ?_, executed.symm, ?_, complete, partly, unfilled, ?_⟩
  · rw [ordersAt_after swept, left]
    exact inOrder
  · dsimp only
    split
    next some =>
      rw [← cost]
      exact div_mul_cancel₀ _ some.ne'
    next none =>
      -- nothing was executed, for there was nothing to take
      have nothing : ((b.ordersAt resting prices).map RestingOrder.quantity).sum = 0 := by
        have zero := le_antisymm (not_lt.1 none) atLeast
        rw [executed, takeOrders, total] at zero
        rcases min_choice quantity ((b.ordersAt resting prices).map RestingOrder.quantity).sum with all | all
        · exact absurd (all.symm.trans zero) demanded.ne'
        · exact all.symm.trans zero
      have nobody : b.ordersAt resting prices = [] := by
        cases queue : b.ordersAt resting prices with
        | nil => rfl
        | cons o rest =>
            rw [queue] at nothing sized
            have first := sized o (by simp)
            have others := Serving.sum_nonneg RestingOrder.quantity rest
              fun o' member => (sized o' (by simp [member])).le
            rw [List.map_cons, List.sum_cons] at nothing
            linarith
      rw [zero_mul, nobody]
      rfl
  · intro side price other
    exact others_after consistent takes swept _ other rfl

/-- After any calls, while all resting quantities are positive, market orders on both
    sides are matched with price-time priority. -/
theorem run_matched (capacity : Nat) (calls : List (BookCall ℚ))
    (positive : ∀ i entry, ((new capacity : Orderbook ℚ).run calls).entryPool.get i = some entry → 0 < entry.quantity)
    {priceLimit quantity : ℚ} (demanded : 0 < quantity) (limited : 0 < priceLimit) (elapsed : Nat) :
    (∃ result prices given,
      (((new capacity : Orderbook ℚ).run calls).matchMarketBid priceLimit quantity elapsed).1 = .ok result ∧
        ((new capacity : Orderbook ℚ).run calls).Matched (((new capacity : Orderbook ℚ).run calls).matchMarketBid priceLimit quantity elapsed).2
          .ask priceLimit quantity result prices given) ∧
    ∃ result prices given,
      (((new capacity : Orderbook ℚ).run calls).matchMarketAsk priceLimit quantity elapsed).1 = .ok result ∧
        ((new capacity : Orderbook ℚ).run calls).Matched (((new capacity : Orderbook ℚ).run calls).matchMarketAsk priceLimit quantity elapsed).2
          .bid priceLimit quantity result prices given := by
  have consistent : ((new capacity : Orderbook ℚ).run calls).Consistent := (run_keeps (new_consistent capacity)).consistent
  exact ⟨matchMarket_matched consistent positive .ask demanded limited elapsed,
    matchMarket_matched consistent positive .bid demanded limited elapsed⟩

section Sample

/-- Two orders at one price, one at a worse price and a bid. -/
def sampleCalls : List (BookCall ℚ) :=
  [.addLimitAsk 100 1 2 0, .addLimitAsk 101 2 5 1, .addLimitAsk 100 3 3 2, .addLimitBid 99 4 1 3]

theorem run_matched_sample :
    (∃ result prices given,
      (((new 8).run sampleCalls).matchMarketBid 101 6 40).1 = .ok result ∧
        ((new 8).run sampleCalls).Matched (((new 8).run sampleCalls).matchMarketBid 101 6 40).2 .ask 101 6 result prices
          given) ∧
    ∃ result prices given,
      (((new 8).run sampleCalls).matchMarketAsk 101 6 40).1 = .ok result ∧
        ((new 8).run sampleCalls).Matched (((new 8).run sampleCalls).matchMarketAsk 101 6 40).2 .bid 101 6 result prices
          given := by
  refine run_matched 8 sampleCalls (fun i entry here => ?_) (by decide) (by decide) 40
  have all : ∀ content ∈ ((new 8).run sampleCalls).entryPool.entries,
      content.all (fun entry => decide (0 < entry.quantity)) := by decide +kernel
  simpa using all (some entry) (OrderEntryPool.mem_entries_of_get here)

end Sample

end Orderbook

end OrderBook
