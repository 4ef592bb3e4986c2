import SignalEngine.Lib.UpdateFirst
import SignalEngine.RebalancerRun.FlattenSafety
import Mathlib.Algebra.Order.BigOperators.Group.List

/-! # Runs of flatten against a broker

The broker keeps positions and the orders of this program. An order may fill at
any moment while it is live, a call may fail or leave its outcome unknown, a
reading is accurate when it is taken, and the caller may stop at any call and
start again. A sent order is safe when none of our orders in its symbol has been
live since the reading it is sized from.
-/

open BrokerAdapters Interaction Text

namespace RebalancerRun

open RebalancerCore (Sha256)

/-- One of our orders, as the broker keeps it; quantities in units of `10^-18`. -/
structure OwnOrder where
  /-- Upper-case symbol. -/
  key : String
  side : Side
  quantity : Int
  filled : Int
  live : Bool
  deriving DecidableEq

def OwnOrder.remaining (o : OwnOrder) : Int := if o.live then max 0 (o.quantity - o.filled) else 0

structure Account where
  /-- By upper-case symbol, in units of `10^-18`; negative for a short. -/
  position : String → Int
  orders : List OwnOrder
  /-- Symbols in which an order of ours has been live since the last reading. -/
  busy : List String
  /-- Whether a request whose outcome stays unknown reaches the broker. -/
  reached : Bool

/-- What happens at the broker between two calls. -/
inductive AccountMove where
  | fill (index : Nat) (amount : Int)
  /-- The order ends: canceled, expired or complete. -/
  | finish (index : Nat)
  | connect (reached : Bool)

def Side.signed : Side → Int → Int
  | .buy, amount => amount
  | .sell, amount => -amount

namespace Account

def move (w : Account) : AccountMove → Option Account
  | .fill index amount => do
      let o ← w.orders[index]?
      if 0 < amount ∧ amount ≤ o.remaining then
        some { w with
          position := Function.update w.position o.key (w.position o.key + Side.signed o.side amount)
          orders := w.orders.set index { o with filled := o.filled + amount } }
      else none
  | .finish index => do
      let o ← w.orders[index]?
      some { w with orders := w.orders.set index { o with live := false } }
  | .connect reached => some { w with reached }

def liveKeys (w : Account) : List String := (w.orders.filter OwnOrder.live).map OwnOrder.key

variable [UnicodeCase]

/-- Every holding of the reading is the position the broker keeps. -/
def Accurate (w : Account) (snap : BrokerSnapshot) : Prop :=
  ∀ h ∈ snap.holdings, h.quantity.atto = w.position (toUppercase h.symbol)

instance (w : Account) (snap : BrokerSnapshot) : Decidable (w.Accurate snap) :=
  List.decidableBAll (fun h : Holding => h.quantity.atto = w.position (toUppercase h.symbol)) _

def send (w : Account) (req : OrderRequest) : Account :=
  { w with
    orders := w.orders ++ [⟨toUppercase req.symbol, req.side, req.quantity.atto, 0, true⟩]
    busy := toUppercase req.symbol :: w.busy }

def reply (w : Account) : (op : BrokerOp) → op.Answer → Option Account
  | .snapshot _, .ok snap => if w.Accurate snap then some { w with busy := w.liveKeys } else none
  | .place req, .ok (.accepted _ _ _ _) => some (w.send req)
  -- The order may exist. Look-ups may miss it: they are answered freely.
  | .place req, .ok (.unknownOutcome _ _) => if w.reached then some (w.send req) else some w
  | _, _ => some w

end Account

/-- Calls of flatten on one account, one after the other. -/
def flattenMachine [UnicodeCase] [Sha256] [DebugText] (venue : String) :
    Machine BrokerOp BrokerOp.Answer Account AccountMove FlattenSpec FlattenReport where
  reply := Account.reply
  move := Account.move
  start spec := flatten spec venue

abbrev FlattenEvent := Event BrokerOp BrokerOp.Answer AccountMove FlattenSpec

/-- No order is sent in `key` while one of ours has been live there since the reading. -/
def Unhurried [UnicodeCase] (key : String) (w : Account) : FlattenEvent → Prop
  | .reply (.place req) _ => toUppercase req.symbol = key → key ∉ w.busy
  | _ => True

instance [UnicodeCase] (key : String) (w : Account) : ∀ event, Decidable (Unhurried key w event)
  | .reply (.place req) _ =>
      inferInstanceAs (Decidable (toUppercase req.symbol = key → key ∉ w.busy))
  | .reply .now _ | .reply (.sleepSecs _) _ | .reply (.snapshot _) _ | .reply (.getOrder _) _
  | .reply .openOrders _ | .reply (.findByTag _) _ | .reply (.cancelAndSettle _) _
  | .move _ | .restart _ => isTrue trivial

def TowardZero (earlier later : Int) : Prop := min earlier 0 ≤ later ∧ later ≤ max earlier 0

theorem TowardZero.refl (p : Int) : TowardZero p p := by
  unfold TowardZero
  omega

theorem TowardZero.trans {p q r : Int} (first : TowardZero p q) (second : TowardZero q r) :
    TowardZero p r := by
  unfold TowardZero at *
  omega

namespace Account

def pending (w : Account) (side : Side) (key : String) : Int :=
  (w.orders.map fun o => if o.side = side ∧ o.key = key then o.remaining else 0).sum

/-- Our live orders in `key` trade against the position and fit in it together. -/
structure Reducing (w : Account) (key : String) : Prop where
  sells : w.pending .sell key ≤ max (w.position key) 0
  buys : w.pending .buy key ≤ max (-w.position key) 0

/-- While nothing of ours has been live in `key` since the reading `snap`, the
    reading still holds there. -/
def Fresh [UnicodeCase] (w : Account) (key : String) (last : Option BrokerSnapshot) : Prop :=
  ∀ snap, last = some snap → key ∉ w.busy →
    (∀ o ∈ w.orders, o.key = key → o.live = false) ∧
      ∀ h ∈ snap.holdings, toUppercase h.symbol = key → h.quantity.atto = w.position key

end Account

theorem OwnOrder.remaining_nonneg (o : OwnOrder) : 0 ≤ o.remaining := by
  unfold OwnOrder.remaining
  split <;> omega

namespace Account

variable {w w' : Account} {key : String} {side : Side}

private def share (side : Side) (key : String) (o : OwnOrder) : Int :=
  if o.side = side ∧ o.key = key then o.remaining else 0

private theorem share_nonneg (side : Side) (key : String) (o : OwnOrder) : 0 ≤ share side key o := by
  unfold share
  split
  · exact o.remaining_nonneg
  · exact le_refl 0

variable {i : Nat} {o : OwnOrder} {last : Option BrokerSnapshot}

private theorem share_own (own : o.side = side ∧ o.key = key) : share side key o = o.remaining := if_pos own

private theorem share_le_pending (among : o ∈ w.orders) (side : Side) (key : String) :
    share side key o ≤ w.pending side key := by
  apply List.single_le_sum
  · intro x member
    obtain ⟨o', _, rfl⟩ := List.mem_map.1 member
    exact share_nonneg side key o'
  · exact List.mem_map_of_mem among

theorem pending_nonneg : 0 ≤ w.pending side key := by
  apply List.sum_nonneg
  intro x member
  obtain ⟨o, _, rfl⟩ := List.mem_map.1 member
  exact share_nonneg side key o

private theorem pending_set {o' : OwnOrder} (found : w.orders[i]? = some o) (changed : w'.orders = w.orders.set i o')
    (side : Side) (key : String) :
    w'.pending side key = w.pending side key - share side key o + share side key o' := by
  unfold pending
  rw [changed]
  exact sum_map_set (share side key) found o'

/-- Every order that is live afterwards was live before. -/
def LiveFrom (w w' : Account) : Prop :=
  ∀ o' ∈ w'.orders, o'.live = true → ∃ o ∈ w.orders, o.key = o'.key ∧ o.live = true

theorem liveFrom_set {o' : OwnOrder} (found : w.orders[i]? = some o) (changed : w'.orders = w.orders.set i o')
    (key : o.key = o'.key) (live : o'.live = true → o.live = true) : w.LiveFrom w' := by
  intro after among alive
  rw [changed] at among
  obtain kept | rfl := List.mem_or_eq_of_mem_set among
  · exact ⟨after, kept, rfl, alive⟩
  · exact ⟨o, List.mem_of_getElem? found, key, live alive⟩

/-- What a fill did: the order `o` filled, the position moved with it. -/
structure Filled (w w' : Account) (o : OwnOrder) (amount : Int) : Prop where
  among : o ∈ w.orders
  positive : 0 < amount
  fits : amount ≤ o.remaining
  position : w'.position =
    Function.update w.position o.key (w.position o.key + Side.signed o.side amount)
  pending : ∀ side key, w'.pending side key =
    w.pending side key - if o.side = side ∧ o.key = key then amount else 0
  busy : w'.busy = w.busy
  orders : w.LiveFrom w'

private theorem remaining_filled {amount : Int} (positive : 0 < amount) (fits : amount ≤ o.remaining) :
    ({ o with filled := o.filled + amount } : OwnOrder).remaining = o.remaining - amount := by
  unfold OwnOrder.remaining at *
  dsimp only
  split at fits
  next live =>
      rw [if_pos live, if_pos live]
      omega
  next => omega

theorem fill_cases {amount : Int} (h : w.move (.fill i amount) = some w') : ∃ o, w.Filled w' o amount := by
  simp only [move, Option.bind_eq_bind, Option.bind_eq_some_iff] at h
  obtain ⟨o, found, fits⟩ := h
  split at fits
  next bounds =>
      cases fits
      refine ⟨o, List.mem_of_getElem? found, bounds.1, bounds.2, rfl, fun side key => ?_, rfl,
        liveFrom_set found rfl rfl id⟩
      rw [pending_set found rfl side key]
      unfold share
      dsimp only
      rw [remaining_filled bounds.1 bounds.2]
      split <;> omega
  next => cases fits

theorem Filled.reducing {o : OwnOrder} {amount : Int} (filled : w.Filled w' o amount)
    (reducing : w.Reducing key) :
    w'.Reducing key ∧ TowardZero (w.position key) (w'.position key) := by
  obtain ⟨sells, buys⟩ := reducing
  have positive := filled.positive
  have fits := filled.fits
  have soldOff := filled.pending .sell key
  have boughtBack := filled.pending .buy key
  have sellsNonneg : 0 ≤ w.pending .sell key := pending_nonneg
  have buysNonneg : 0 ≤ w.pending .buy key := pending_nonneg
  have position := congrFun filled.position key
  unfold TowardZero
  by_cases same : o.key = key
  · have share := share_le_pending filled.among o.side key
    rw [share_own ⟨rfl, same⟩] at share
    subst same
    rw [Function.update_self] at position
    cases sided : o.side with
    | buy =>
        simp only [sided, Side.signed, reduceCtorEq, and_true, if_true, if_false] at *
        refine ⟨⟨?_, ?_⟩, ?_, ?_⟩ <;> omega
    | sell =>
        simp only [sided, Side.signed, reduceCtorEq, and_true, if_true, if_false] at *
        refine ⟨⟨?_, ?_⟩, ?_, ?_⟩ <;> omega
  · rw [Function.update_of_ne (Ne.symm same)] at position
    rw [if_neg (by simp [same])] at soldOff boughtBack
    refine ⟨⟨?_, ?_⟩, ?_, ?_⟩ <;> omega

/-- Nothing but less may still be traded in `key`, at the same position. -/
theorem Reducing.of_less (reducing : w.Reducing key) (same : w'.position key = w.position key)
    (less : ∀ side, w'.pending side key ≤ w.pending side key) : w'.Reducing key := by
  obtain ⟨sells, buys⟩ := reducing
  have lessSold := less .sell
  have lessBought := less .buy
  constructor <;> omega

theorem finish_cases (h : w.move (.finish i) = some w') :
    w'.position = w.position ∧ w'.busy = w.busy ∧
      (∀ side key, w'.pending side key ≤ w.pending side key) ∧ w.LiveFrom w' := by
  simp only [move, Option.bind_eq_bind, Option.bind_eq_some_iff, Option.some.injEq] at h
  obtain ⟨o, found, rfl⟩ := h
  refine ⟨rfl, rfl, fun side key => ?_, liveFrom_set found rfl rfl (by simp)⟩
  rw [pending_set found rfl side key]
  have nonneg := share_nonneg side key o
  have ended : share side key { o with live := false } = 0 := by
    unfold share OwnOrder.remaining
    simp
  omega

theorem mem_liveKeys (among : o ∈ w.orders) (live : o.live = true) : o.key ∈ w.liveKeys :=
  List.mem_map_of_mem (List.mem_filter.2 ⟨among, live⟩)

variable [UnicodeCase]

theorem Fresh.none (w : Account) (key : String) : w.Fresh key none := by
  intro snap noted
  cases noted

theorem Fresh.read {snap : BrokerSnapshot} (accurate : w.Accurate snap) :
    ({ w with busy := w.liveKeys } : Account).Fresh key (some snap) := by
  rintro snap' ⟨⟩ calm
  refine ⟨fun o among same => ?_, fun h held same => ?_⟩
  · by_contra live
    exact calm (same ▸ mem_liveKeys among (by simpa using live))
  · rw [accurate h held, same]

theorem Reducing.send (reducing : w.Reducing key) {snap : BrokerSnapshot} {req : OrderRequest}
    {h : Holding} (fresh : w.Fresh key (some snap)) (closes : Closes snap req h)
    (calm : toUppercase req.symbol = key → key ∉ w.busy) : (w.send req).Reducing key := by
  have added : ∀ side, (w.send req).pending side key = w.pending side key +
      if req.side = side ∧ toUppercase req.symbol = key then max 0 req.quantity.atto else 0 := by
    intro side
    simp [pending, Account.send, OwnOrder.remaining]
  have unmoved : (w.send req).position key = w.position key := rfl
  by_cases same : toUppercase req.symbol = key
  · obtain ⟨still, read⟩ := fresh snap rfl (calm same)
    have idle : ∀ side, w.pending side key = 0 := by
      intro side
      apply List.sum_eq_zero
      intro x member
      obtain ⟨o, among, rfl⟩ := List.mem_map.1 member
      split
      next own => simp [OwnOrder.remaining, still o among own.2]
      next => rfl
    have position := read h closes.held (closes.symbol ▸ same)
    have sells := added .sell
    have buys := added .buy
    rw [idle] at sells buys
    cases sided : req.side with
    | buy =>
        have within := closes.buy sided
        simp only [sided, same, reduceCtorEq, and_self, if_true, and_true, if_false] at sells buys
        constructor <;> omega
    | sell =>
        have within := closes.sell sided
        simp only [sided, same, reduceCtorEq, and_self, if_true, and_true, if_false] at sells buys
        constructor <;> omega
  · apply reducing.of_less unmoved
    intro side
    rw [added side, if_neg (by simp [same])]
    omega

theorem Fresh.send (fresh : w.Fresh key last) (req : OrderRequest) : (w.send req).Fresh key last := by
  intro snap noted calm
  have other : key ≠ toUppercase req.symbol ∧ key ∉ w.busy := by
    simpa [Account.send] using calm
  obtain ⟨still, read⟩ := fresh snap noted other.2
  refine ⟨fun o among same => ?_, read⟩
  simp only [Account.send, List.mem_append, List.mem_singleton] at among
  obtain before | rfl := among
  · exact still o before same
  · exact absurd same.symm other.1

theorem Fresh.frame (fresh : w.Fresh key last) (busy : w'.busy = w.busy) (orders : w.LiveFrom w')
    (position : (∀ o ∈ w.orders, o.key = key → o.live = false) → w'.position key = w.position key) :
    w'.Fresh key last := by
  intro snap noted calm
  rw [busy] at calm
  obtain ⟨still, read⟩ := fresh snap noted calm
  refine ⟨fun o' among same => ?_, fun h held same => ?_⟩
  · by_contra live
    obtain ⟨o, before, key', alive⟩ := orders o' among (by simpa using live)
    have ended := still o before (key'.trans same)
    rw [alive] at ended
    cases ended
  · rw [read h held same, position still]

theorem Filled.fresh {last : Option BrokerSnapshot} {o : OwnOrder} {amount : Int}
    (filled : w.Filled w' o amount) (fresh : w.Fresh key last) : w'.Fresh key last := by
  apply fresh.frame filled.busy filled.orders
  intro still
  have other : key ≠ o.key := by
    intro same
    have fits := filled.fits
    have positive := filled.positive
    rw [OwnOrder.remaining, still o filled.among same.symm] at fits
    simp only [Bool.false_eq_true, if_false] at fits
    omega
  rw [filled.position, Function.update_of_ne other]

def Safe (key : String) (last : Option BrokerSnapshot) (w : Account) : Prop :=
  w.Reducing key ∧ w.Fresh key last

theorem Safe.move (safe : Safe key last w) {e : AccountMove} (moved : w.move e = some w') :
    Safe key last w' ∧ TowardZero (w.position key) (w'.position key) := by
  obtain ⟨reducing, fresh⟩ := safe
  cases e with
  | fill i amount =>
      obtain ⟨o, filled⟩ := fill_cases moved
      obtain ⟨reducing', toward⟩ := filled.reducing reducing
      exact ⟨⟨reducing', filled.fresh fresh⟩, toward⟩
  | finish i =>
      obtain ⟨position, busy, less, orders⟩ := finish_cases moved
      have same := congrFun position key
      refine ⟨⟨reducing.of_less same fun side => less side key,
        fresh.frame busy orders fun _ => same⟩, ?_⟩
      rw [same]
      exact TowardZero.refl _
  | connect reached =>
      cases moved
      exact ⟨⟨⟨reducing.sells, reducing.buys⟩, fresh⟩, TowardZero.refl _⟩

theorem Safe.reply (safe : Safe key last w) {op : BrokerOp} {answer : op.Answer} (allowed : closeOnly.allowed last op)
    (unhurried : Unhurried key w (.reply op answer)) (replied : w.reply op answer = some w') :
    Safe key (noteReading last op answer) w' ∧ w'.position = w.position := by
  obtain ⟨reducing, fresh⟩ := safe
  have sent : ∀ req, op = .place req → (toUppercase req.symbol = key → key ∉ w.busy) →
      Safe key last (w.send req) := by
    intro req same calm
    obtain ⟨snap, h, rfl, closes⟩ := allowed req same
    exact ⟨reducing.send fresh closes calm, fresh.send req⟩
  unfold Account.reply at replied
  split at replied
  · split at replied
    next accurate =>
        cases replied
        exact ⟨⟨⟨reducing.sells, reducing.buys⟩, Fresh.read accurate⟩, rfl⟩
    next => cases replied
  · cases replied
    exact ⟨sent _ rfl unhurried, rfl⟩
  · split at replied
    · cases replied
      exact ⟨sent _ rfl unhurried, rfl⟩
    · cases replied
      exact ⟨⟨reducing, fresh⟩, rfl⟩
  next unread _ _ =>
      cases replied
      have same : noteReading last op answer = last := by
        unfold noteReading
        split
        · exact (unread _ _ rfl HEq.rfl).elim
        · rfl
      rw [same]
      exact ⟨⟨reducing, fresh⟩, rfl⟩

end Account

section Runs

variable [UnicodeCase] [Sha256] [DebugText] {venue key : String}

theorem flatten_invariant :
    (flattenMachine venue).Invariant closeOnly (Unhurried key) (Account.Safe key) where
  move safe _ moved := (safe.move moved).1
  reply safe allowed unhurried replied := ⟨_, rfl, (safe.reply allowed unhurried replied).1⟩
  restart safe _ := ⟨none, flatten_closes_only _ venue none, safe.1, Account.Fresh.none _ key⟩

theorem step_towardZero {c c' : Config BrokerOp BrokerOp.Answer Account FlattenReport}
    {event : FlattenEvent} (lawful : Machine.Lawful closeOnly (Account.Safe key) c)
    (unhurried : Unhurried key c.world event)
    (stepped : (flattenMachine venue).step c event = some c') :
    TowardZero (c.world.position key) (c'.world.position key) := by
  obtain ⟨last, obeys, safe⟩ := lawful
  obtain ⟨op, answer, next, rfl, called, -, replied⟩ | ⟨e, rfl, -, moved⟩ | ⟨s, rfl, -, world⟩ :=
    Machine.step_cases stepped
  · rw [called] at obeys
    rw [(safe.reply obeys.1 unhurried replied).2]
    exact TowardZero.refl _
  · exact (safe.move moved).2
  · rw [world]
    exact TowardZero.refl _

/-- In a run of flatten calls, crashes and restarts in which no order is sent in a
    symbol where an order of ours has been live since the reading it is sized
    from, and in which our orders live at the start only reduce, the position
    moves only toward zero between any two moments of the run. -/
theorem flatten_only_reduces {spec : FlattenSpec} {w : Account} (start : w.Reducing key)
    {first second : List FlattenEvent}
    {mid final : Config BrokerOp BrokerOp.Answer Account FlattenReport}
    (unhurried : (flattenMachine venue).Guarded (Unhurried key) ⟨flatten spec venue, w⟩
      (first ++ second))
    (early : (flattenMachine venue).run ⟨flatten spec venue, w⟩ first = some mid)
    (late : (flattenMachine venue).run mid second = some final) :
    TowardZero (mid.world.position key) (final.world.position key) := by
  obtain ⟨before, after⟩ := Machine.guarded_append unhurried early
  have lawful : Machine.Lawful closeOnly (Account.Safe key)
      (⟨flatten spec venue, w⟩ : Config BrokerOp BrokerOp.Answer Account FlattenReport) :=
    ⟨none, flatten_closes_only spec venue none, start, Account.Fresh.none w key⟩
  have reached := flatten_invariant.run (R := fun _ _ => True) (fun _ => trivial) (fun _ _ => trivial)
    (fun _ _ _ => trivial) lawful before early
  exact (flatten_invariant.run (R := fun u v => TowardZero (u.position key) (v.position key))
    (fun _ => TowardZero.refl _) TowardZero.trans step_towardZero reached.1 after late).2

end Runs

section Sample

open RebalancerCore (VenueRules VenueRuleBook InstrumentRules)
open RebalancerCore.Amount (cents)

/-- The hashes of the first two sell tags of the call below. -/
@[reducible] private def haltHash : Sha256 where
  hexDigest text :=
    if text = "flatten:fund:halt1:SPY:sell:1" then
      "77aa54727158c6611a38c8ed70cbde3db33ab54ace8071a0da848a6a6ab952e4"
    else "0c574f3326a418a3e77c23358164bb52af1f172d70640a44155b5a63652ca412"

@[reducible] private def plainQuotes : DebugText := ⟨fun s => "\"" ++ s ++ "\""⟩

attribute [local instance] asciiCase haltHash plainQuotes

private def halt : FlattenSpec :=
  FlattenSpec.new "fund" "halt1" (.ofList ["SPY"])
    ⟨.ofList [("alpaca", VenueRules.anySize)], InstrumentRules.empty⟩ ∅

private def tenLong : Account := ⟨fun key => if key = "SPY" then 10 ^ 19 else 0, [], [], true⟩

private def tenShares : BrokerSnapshot where
  venue := "alpaca"
  ccy := "USD"
  equity := cents 100000
  cash := cents 0
  holdings := [⟨"SPY", "us_equity", cents 1000, some (cents 10000), cents 100000⟩]
  unvalued := []
  openOrders := []
  takenAt := 0
  derivedEquity := cents 100000

private def sellTag (k : Nat) : String := flattenTag "fund" "halt1" "SPY" k

private def sellAll (k : Nat) : OrderRequest :=
  { OrderRequest.market (sellTag k) "SPY" .sell (cents 1000) with referencePrice := some (cents 10000) }

private def sentSell : SentOrder := ⟨"SPY", .sell, cents 1000, none, 0, false⟩

private def openSell : OrderReport :=
  ⟨"id1", some (sellTag 1), "SPY", some .sell, .open, cents 1000, cents 0, none, none, none⟩

/-- A first round that sends a sell of everything held. -/
private def sellRound : List FlattenEvent :=
  [.reply .now (0 : Int), .reply .openOrders (.ok []), .reply .now (0 : Int),
    .reply (.snapshot 0) (.ok tenShares), .reply (.findByTag (sellTag 1)) (.ok []),
    .reply (.place (sellAll 1)) (.ok (.accepted "id1" none sentSell []))]

/-- The order cannot be read and its cancel fails; the next round sells again. -/
private def sellAgain : List FlattenEvent :=
  [.reply (.getOrder "id1") (.error (.transport .timeout)), .reply .openOrders (.ok [openSell]),
    .reply (.cancelAndSettle "id1") (.error (.transport .timeout)), .reply .now (0 : Int),
    .reply (.snapshot 0) (.ok tenShares), .reply (.findByTag (sellTag 1)) (.ok [openSell]),
    .reply (.findByTag (sellTag 2)) (.ok []),
    .reply (.place (sellAll 2)) (.ok (.accepted "id2" none sentSell [])),
    .move (.fill 0 (10 ^ 19)), .move (.fill 1 (10 ^ 19))]

/-- Ten long become ten short: both sells fill. -/
theorem failed_cancel_flips_position :
    ∃ (w : Account) (events : List FlattenEvent)
      (final : Config BrokerOp BrokerOp.Answer Account FlattenReport),
      w.orders = [] ∧ (flattenMachine "alpaca").run ⟨flatten halt "alpaca", w⟩ events = some final ∧
        0 < w.position "SPY" ∧ final.world.position "SPY" < 0 := by
  have flipped : (((flattenMachine "alpaca").run ⟨flatten halt "alpaca", tenLong⟩
      (sellRound ++ sellAgain)).map fun c => c.world.position "SPY") = some (-10 ^ 19) := by
    decide +kernel
  obtain ⟨final, ran, position⟩ := Option.map_eq_some_iff.1 flipped
  refine ⟨tenLong, sellRound ++ sellAgain, final, rfl, ran, by decide, ?_⟩
  rw [position]
  decide

/-- Four shares fill, the caller crashes and calls again, the other six fill. -/
private def partFilled : List FlattenEvent := sellRound ++ [.move (.fill 0 (4 * 10 ^ 18))]

private def crashed : List FlattenEvent :=
  [.restart halt, .reply .now (0 : Int), .reply .openOrders (.ok [openSell]),
    .reply (.cancelAndSettle "id1") (.error (.transport .timeout)), .move (.fill 0 (6 * 10 ^ 18))]

theorem crash_keeps_reducing :
    ∃ mid final : Config BrokerOp BrokerOp.Answer Account FlattenReport,
      mid.world.position "SPY" = 6 * 10 ^ 18 ∧ final.world.position "SPY" = 0 ∧
        TowardZero (mid.world.position "SPY") (final.world.position "SPY") := by
  have start : tenLong.Reducing "SPY" := ⟨by decide, by decide⟩
  have unhurried : (flattenMachine "alpaca").Guarded (Unhurried "SPY")
      ⟨flatten halt "alpaca", tenLong⟩ (partFilled ++ crashed) := by
    decide +kernel
  have early : (((flattenMachine "alpaca").run ⟨flatten halt "alpaca", tenLong⟩ partFilled).map
      fun c => c.world.position "SPY") = some (6 * 10 ^ 18) := by
    decide +kernel
  have late : (((flattenMachine "alpaca").run ⟨flatten halt "alpaca", tenLong⟩
      partFilled).bind fun mid => ((flattenMachine "alpaca").run mid crashed).map
        fun c => c.world.position "SPY") = some 0 := by
    decide +kernel
  obtain ⟨mid, ran, six⟩ := Option.map_eq_some_iff.1 early
  rw [ran, Option.bind_some] at late
  obtain ⟨final, onward, zero⟩ := Option.map_eq_some_iff.1 late
  exact ⟨mid, final, six, zero, flatten_only_reduces start unhurried ran onward⟩

end Sample

end RebalancerRun
