import SignalEngine.FakeBroker.Exchange
import Mathlib.Algebra.BigOperators.Group.List.Basic

/-! # The exchange's ledger balances

Every balance is what was moved in from outside plus the effect of the fills,
orders are filled up to their volume and closed exactly then, and an order that
is no longer live stays as it is. One lemma says what each elementary change of
the exchange keeps; the operations are sequences of these changes.
-/

open BrokerAdapters Outcome

namespace FakeBroker

open Money

/-! ## Effects on amounts -/

/-- What an execution adds to an amount of `asset`, in units of the smallest decimal. -/
def effect (pair : String) (side : Side) (qty cost fee : Dec) (asset : String) : Int :=
  match side with
  | .buy =>
      (if asset = baseOf pair then qty.atto else 0) -
        if asset = quoteOf pair then cost.atto + fee.atto else 0
  | .sell =>
      (if asset = quoteOf pair then cost.atto - fee.atto else 0) -
        if asset = baseOf pair then qty.atto else 0

theorem effect_buy (pair : String) (qty cost fee : Dec) (asset : String) :
    effect pair .buy qty cost fee asset = (if asset = baseOf pair then qty.atto else 0) -
      if asset = quoteOf pair then cost.atto + fee.atto else 0 := rfl

theorem effect_sell (pair : String) (qty cost fee : Dec) (asset : String) :
    effect pair .sell qty cost fee asset = (if asset = quoteOf pair then cost.atto - fee.atto else 0) -
      if asset = baseOf pair then qty.atto else 0 := rfl

theorem Amounts.of_insert (m : Amounts) (key asset : String) (d : Dec) :
    Amounts.of (m.insert key d) asset = if asset = key then d else m.of asset := by
  unfold Amounts.of
  rw [Std.ExtTreeMap.getElem?_insert]
  by_cases same : asset = key
  · subst same
    simp
  · have other : ¬ key = asset := fun h => same h.symm
    simp [same, other]

theorem Amounts.of_traded {m : Amounts} {base quote : String} {newBase newQuote : Dec} {bought paid : Int}
    (distinct : base ≠ quote) (baseAtto : newBase.atto = (m.of base).atto + bought)
    (quoteAtto : newQuote.atto = (m.of quote).atto - paid) (asset : String) :
    (Amounts.of ((m.insert base newBase).insert quote newQuote) asset).atto =
      (m.of asset).atto + ((if asset = base then bought else 0) - if asset = quote then paid else 0) := by
  rw [Amounts.of_insert, Amounts.of_insert]
  by_cases isQuote : asset = quote
  · have notBase : ¬ asset = base := fun h => distinct (h.symm.trans isQuote)
    rw [if_pos isQuote, if_pos isQuote, if_neg notBase, isQuote]
    omega
  · by_cases isBase : asset = base
    · rw [if_neg isQuote, if_neg isQuote, if_pos isBase, if_pos isBase, isBase]
      omega
    · simp [isQuote, isBase]

theorem applyTrade_ok {m m' : Amounts} {pair : String} {side : Side} {qty cost fee : Dec}
    (distinct : baseOf pair ≠ quoteOf pair) (h : applyTrade m pair side qty cost fee = .ok m')
    (asset : String) :
    (m'.of asset).atto = (m.of asset).atto + effect pair side qty cost fee asset := by
  cases side with
  | buy =>
      simp only [applyTrade, bind_eq_ok, pure_eq_ok] at h
      obtain ⟨nb, base, paid, total, nq, quote, rfl⟩ := h
      have quoteAtto := sub_ok quote
      rw [add_ok total] at quoteAtto
      rw [Amounts.of_traded distinct (add_ok base) quoteAtto, effect_buy]
  | sell =>
      simp only [applyTrade, bind_eq_ok, pure_eq_ok] at h
      obtain ⟨nb, base, received, total, nq, quote, rfl⟩ := h
      have baseAtto : nb.atto = (m.of (baseOf pair)).atto + -qty.atto := sub_ok base
      have quoteAtto : nq.atto = (m.of (quoteOf pair)).atto - -(cost.atto - fee.atto) := by
        have quoteAtto := add_ok quote
        rw [sub_ok total] at quoteAtto
        omega
      rw [Amounts.of_traded distinct baseAtto quoteAtto, effect_sell]
      split <;> split <;> omega

theorem applyTrade_nonneg {m m' : Amounts} {pair : String} {side : Side} {qty cost fee : Dec}
    (distinct : baseOf pair ≠ quoteOf pair) (h : applyTrade m pair side qty cost fee = .ok m')
    (canPay : affordable m pair side qty cost fee = .ok true) (nonneg : ∀ asset, 0 ≤ (m.of asset).atto)
    (qtyPos : 0 < qty.atto) (feeLe : fee.atto ≤ cost.atto) (asset : String) :
    0 ≤ (m'.of asset).atto := by
  rw [applyTrade_ok distinct h]
  have here := nonneg asset
  cases side with
  | buy =>
      simp only [affordable, bind_eq_ok, pure_eq_ok, decide_eq_true_eq] at canPay
      obtain ⟨paid, total, le⟩ := canPay
      have paidAtto := add_ok total
      have bound := Dec.le_iff.1 le
      rw [effect_buy]
      by_cases isQuote : asset = quoteOf pair
      · have notBase : ¬ asset = baseOf pair := fun h => distinct (h.symm.trans isQuote)
        rw [if_neg notBase, if_pos isQuote, isQuote]
        omega
      · rw [if_neg isQuote]
        split <;> omega
  | sell =>
      have le : qty ≤ m.of (baseOf pair) := by simpa [affordable, pure_eq_ok] using canPay
      have bound := Dec.le_iff.1 le
      rw [effect_sell]
      by_cases isBase : asset = baseOf pair
      · have notQuote : ¬ asset = quoteOf pair := fun h => distinct (isBase.symm.trans h)
        rw [if_neg notQuote, if_pos isBase, isBase]
        omega
      · rw [if_neg isBase]
        split <;> omega

/-! ## The invariant -/

namespace Order

/-- What the fills of an order added to an amount. -/
def net (o : Order) (asset : String) : Int :=
  (o.fills.map fun f => effect o.pair o.side f.qty f.cost f.fee asset).sum

def netOf (o : Order) (account asset : String) : Int := if o.account = account then o.net asset else 0

def executed (o : Order) : Int := (o.fills.map fun f => f.qty.atto).sum

structure Sound (o : Order) : Prop where
  volume : 0 < o.volume.atto
  limit : ∀ p, o.kind = .limit p → 0 ≤ p.atto
  queue : ∀ s ∈ o.queue, ∀ p, s.price = some p → 0 ≤ p.atto
  fills : ∀ f ∈ o.fills, 0 < f.qty.atto ∧ 0 ≤ f.fee.atto ∧ mul f.qty f.price = .ok f.cost
  within : o.executed ≤ o.volume.atto
  closed : o.status = .closed ↔ o.executed = o.volume.atto

theorem volExec_ok {o : Order} {d : Dec} (h : o.volExec = .ok d) : d.atto = o.executed := by
  rw [sum_ok h, executed, List.map_map]
  rfl

theorem remaining_ok {o : Order} {d : Dec} (h : o.remaining = .ok d) :
    d.atto = o.volume.atto - o.executed := by
  obtain ⟨exec, executed, rest⟩ := bind_eq_ok.1 h
  rw [sub_ok rest, volExec_ok executed]

end Order

def FillPolicy.Priced : FillPolicy → Prop
  | .fullFill price => ∀ p, price = some p → 0 ≤ p.atto
  | .partly steps => ∀ s ∈ steps, ∀ p, s.price = some p → 0 ≤ p.atto
  | _ => True

def FeeSchedule.Fair (f : FeeSchedule) : Prop :=
  (0 ≤ f.maker.atto ∧ f.maker.atto ≤ 10 ^ maxScale) ∧ 0 ≤ f.taker.atto ∧ f.taker.atto ≤ 10 ^ maxScale

structure PairMarket.Sound (name : String) (m : PairMarket) : Prop where
  named : m.spec.canonical = name
  distinct : baseOf name ≠ quoteOf name
  bid : 0 ≤ m.bid.atto
  ask : 0 ≤ m.ask.atto

namespace Core

/-- What all fills of an account added to an amount. -/
def net (core : Core) (account asset : String) : Int :=
  (core.orders.map fun o => o.netOf account asset).sum

/-- An account's balances are not negative and explained by its history. -/
def Explained (core : Core) (name : String) (a : AccountState) : Prop :=
  ∀ asset, 0 ≤ (a.balances.of asset).atto ∧
    (a.balances.of asset).atto = (a.external.of asset).atto + core.net name asset

structure Sound (core : Core) : Prop where
  pairs : ∀ (name : String) (m : PairMarket), core.pairs[name]? = some m → m.Sound name
  feeDefault : core.feeDefault.Fair
  fees : ∀ (name : String) (a : AccountState), core.accounts[name]? = some a →
    ∀ f, a.fees = some f → f.Fair
  defaultPolicy : core.defaultPolicy.Priced
  rules : ∀ r ∈ core.rules, r.policy.Priced
  orders : ∀ o ∈ core.orders, o.Sound
  traded : ∀ o ∈ core.orders, core.pairs.contains o.pair = true
  owned : ∀ o ∈ core.orders, core.accounts.contains o.account = true
  ledger : ∀ (name : String) (a : AccountState), core.accounts[name]? = some a →
    core.Explained name a

/-- An order that is no longer live is not touched. -/
def Frozen (core core' : Core) : Prop :=
  ∀ (i : Nat) (o : Order), core.orders[i]? = some o → o.status.isLive = false →
    core'.orders[i]? = some o

theorem Frozen.refl (core : Core) : Frozen core core := fun _ _ found _ => found

theorem Frozen.trans {a b c : Core} (first : Frozen a b) (second : Frozen b c) : Frozen a c :=
  fun i o found dead => second i o (first i o found dead) dead

theorem Frozen.of_orders {core core' : Core} (same : core'.orders = core.orders) : Frozen core core' :=
  fun _ _ found _ => same ▸ found

/-- One change of the exchange: the invariant is kept, dead orders stay. -/
def Advances (core core' : Core) : Prop := core.Sound → core'.Sound ∧ Frozen core core'

theorem Advances.refl (core : Core) : Advances core core := fun sound => ⟨sound, .refl core⟩

theorem Advances.trans {a b c : Core} (first : Advances a b) (second : Advances b c) : Advances a c := by
  intro sound
  obtain ⟨middle, frozen⟩ := first sound
  obtain ⟨last, frozen'⟩ := second middle
  exact ⟨last, frozen.trans frozen'⟩

end Core

/-! ## Elementary changes -/

theorem sum_map_set {α : Type} {l : List α} {i : Nat} {a : α} (b : α) (g : α → Int)
    (found : l[i]? = some a) : ((l.set i b).map g).sum = (l.map g).sum + (g b - g a) := by
  induction l generalizing i with
  | nil => cases found
  | cons x l ih =>
      cases i with
      | zero =>
          obtain rfl := Option.some.inj found
          simp only [List.set_cons_zero, List.map_cons, List.sum_cons]
          omega
      | succ i =>
          rw [List.getElem?_cons_succ] at found
          simp only [List.set_cons_succ, List.map_cons, List.sum_cons, ih found]
          omega

namespace Core

variable {core : Core}

theorem advances_market {name : String} {m : PairMarket} (good : core.Sound → m.Sound name) :
    Advances core { core with pairs := core.pairs.insert name m } := by
  intro sound
  refine ⟨{ sound with pairs := ?_, traded := ?_ }, .of_orders rfl⟩
  · intro other m' found
    rw [Std.ExtTreeMap.getElem?_insert] at found
    split at found
    next same =>
      obtain rfl := Option.some.inj found
      obtain rfl : name = other := by simpa using same
      exact good sound
    next => exact sound.pairs other m' found
  · intro o member
    rw [Std.ExtTreeMap.contains_insert, sound.traded o member, Bool.or_true]

theorem advances_account {name : String} {a : AccountState}
    (fees : core.Sound → ∀ f, a.fees = some f → f.Fair) (explained : core.Sound → core.Explained name a) :
    Advances core { core with accounts := core.accounts.insert name a } := by
  intro sound
  refine ⟨{ sound with fees := ?_, owned := ?_, ledger := ?_ }, .of_orders rfl⟩
  · intro other a' found
    rw [Std.ExtTreeMap.getElem?_insert] at found
    split at found
    next same =>
      obtain rfl := Option.some.inj found
      exact fees sound
    next => exact sound.fees other a' found
  · intro o member
    rw [Std.ExtTreeMap.contains_insert, sound.owned o member, Bool.or_true]
  · intro other a' found
    rw [Std.ExtTreeMap.getElem?_insert] at found
    split at found
    next same =>
      obtain rfl := Option.some.inj found
      obtain rfl : name = other := by simpa using same
      exact explained sound
    next => exact sound.ledger other a' found

theorem frozen_set {idx : Nat} {o o' : Order} (found : core.orders[idx]? = some o)
    (live : o.status.isLive = true) (core' : Core) (orders : core'.orders = core.orders.set idx o') :
    Frozen core core' := by
  intro i other here dead
  rw [orders]
  by_cases same : idx = i
  · subst same
    obtain rfl := Option.some.inj (found.symm.trans here)
    rw [live] at dead
    cases dead
  · rw [List.getElem?_set_ne same]
    exact here

theorem advances_order {idx : Nat} {o : Order} (change : Order → Order)
    (found : core.orders[idx]? = some o) (live : o.status.isLive = true)
    (good : o.Sound → (change o).Sound) (pair : (change o).pair = o.pair)
    (side : (change o).side = o.side) (account : (change o).account = o.account)
    (fills : (change o).fills = o.fills) : Advances core (core.withOrder idx change) := by
  have same : core.withOrder idx change = { core with orders := core.orders.set idx (change o) } := by
    simp only [withOrder, found]
  rw [same]
  intro sound
  have member : o ∈ core.orders := List.mem_of_getElem? found
  have net (name asset : String) : (change o).netOf name asset = o.netOf name asset := by
    simp only [Order.netOf, Order.net, pair, side, account, fills]
  have kept : ∀ name asset, ((core.orders.set idx (change o)).map fun o => o.netOf name asset).sum =
      core.net name asset := by
    intro name asset
    rw [sum_map_set _ _ found, net, sub_self, add_zero]
    rfl
  refine ⟨{ sound with orders := ?_, traded := ?_, owned := ?_, ledger := ?_ },
    frozen_set found live _ rfl⟩
  · intro o' inSet
    rcases List.mem_or_eq_of_mem_set inSet with old | rfl
    · exact sound.orders o' old
    · exact good (sound.orders o member)
  · intro o' inSet
    rcases List.mem_or_eq_of_mem_set inSet with old | rfl
    · exact sound.traded o' old
    · rw [pair]
      exact sound.traded o member
  · intro o' inSet
    rcases List.mem_or_eq_of_mem_set inSet with old | rfl
    · exact sound.owned o' old
    · rw [account]
      exact sound.owned o member
  · intro name a acct asset
    have explained := sound.ledger name a acct asset
    rw [Core.net, kept]
    exact explained

theorem advances_push {o : Order} (good : o.Sound) (traded : core.pairs.contains o.pair = true)
    (owned : core.accounts.contains o.account = true) (fills : o.fills = []) :
    Advances core (core.pushOrder o) := by
  intro sound
  have kept : ∀ name asset, (core.pushOrder o).net name asset = core.net name asset := by
    intro name asset
    have none : o.netOf name asset = 0 := by simp [Order.netOf, Order.net, fills]
    simp [net, pushOrder, none]
  refine ⟨{ sound with orders := ?_, traded := ?_, owned := ?_, ledger := ?_ }, ?_⟩
  · intro o' member
    rcases List.mem_append.1 member with old | new
    · exact sound.orders o' old
    · obtain rfl := List.mem_singleton.1 new
      exact good
  · intro o' member
    rcases List.mem_append.1 member with old | new
    · exact sound.traded o' old
    · obtain rfl := List.mem_singleton.1 new
      exact traded
  · intro o' member
    rcases List.mem_append.1 member with old | new
    · exact sound.owned o' old
    · obtain rfl := List.mem_singleton.1 new
      exact owned
  · intro name a acct asset
    have explained := sound.ledger name a acct asset
    rw [kept]
    exact explained
  · intro i o' found _
    obtain ⟨bound, -⟩ := List.getElem?_eq_some_iff.1 found
    simp only [pushOrder]
    rw [List.getElem?_append_left bound]
    exact found

/-- A fill: the order gains what the balances of its owner gain. -/
theorem advances_fill {idx : Nat} {o o' : Order} {a : AccountState} {balances : Amounts}
    (delta : String → Int) (glitches : List ReportGlitch) (next : UInt64)
    (found : core.orders[idx]? = some o) (live : o.status.isLive = true)
    (acct : core.accounts[o.account]? = some a) (good : core.Sound → o'.Sound)
    (pair : o'.pair = o.pair) (account : o'.account = o.account)
    (net : ∀ asset, o'.net asset = o.net asset + delta asset)
    (moved : core.Sound → ∀ asset, 0 ≤ (balances.of asset).atto ∧
      (balances.of asset).atto = (a.balances.of asset).atto + delta asset) :
    Advances core { core with
      accounts := core.accounts.insert o.account { a with balances }
      armedGlitches := glitches
      nextFill := next
      orders := core.orders.set idx o' } := by
  intro sound
  have member : o ∈ core.orders := List.mem_of_getElem? found
  have total (name asset : String) :
      ((core.orders.set idx o').map fun o => o.netOf name asset).sum =
        core.net name asset + if o.account = name then delta asset else 0 := by
    rw [sum_map_set _ _ found]
    have gain : o'.netOf name asset - o.netOf name asset = if o.account = name then delta asset else 0 := by
      simp only [Order.netOf, account, net]
      split <;> omega
    rw [gain]
    rfl
  refine ⟨{ sound with fees := ?_, orders := ?_, traded := ?_, owned := ?_, ledger := ?_ },
    frozen_set found live _ rfl⟩
  · intro other a' here
    rw [Std.ExtTreeMap.getElem?_insert] at here
    split at here
    next same =>
      obtain rfl := Option.some.inj here
      exact sound.fees o.account a acct
    next => exact sound.fees other a' here
  · intro other inSet
    rcases List.mem_or_eq_of_mem_set inSet with old | rfl
    · exact sound.orders other old
    · exact good sound
  · intro other inSet
    rcases List.mem_or_eq_of_mem_set inSet with old | rfl
    · exact sound.traded other old
    · rw [pair]
      exact sound.traded o member
  · intro other inSet
    rw [Std.ExtTreeMap.contains_insert, Bool.or_eq_true]
    rcases List.mem_or_eq_of_mem_set inSet with old | rfl
    · exact .inr (sound.owned other old)
    · rw [account]
      exact .inr (sound.owned o member)
  · intro name a' here asset
    rw [Core.net, total]
    rw [Std.ExtTreeMap.getElem?_insert] at here
    split at here
    next same =>
      obtain rfl := Option.some.inj here
      obtain rfl : o.account = name := by simpa using same
      obtain ⟨nonneg, value⟩ := moved sound asset
      have before := (sound.ledger o.account a acct asset).2
      refine ⟨nonneg, ?_⟩
      rw [if_pos rfl]
      simp only
      omega
    next other =>
      have foreign : ¬ o.account = name := by simpa using other
      have explained := sound.ledger name a' here asset
      rw [if_neg foreign, add_zero]
      exact explained

end Core

/-! ## Filling -/

/-- A fill that fits what remains, with the fee and the cost of the exchange. -/
structure Fill.Fits (fill : Fill) (o : Order) : Prop where
  qty : 0 < fill.qty.atto
  fee : 0 ≤ fill.fee.atto
  cost : mul fill.qty fill.price = .ok fill.cost
  room : fill.qty.atto ≤ o.volume.atto - o.executed

namespace Order

theorem executed_push (o : Order) (fill : Fill) :
    ({ o with fills := o.fills ++ [fill] } : Order).executed = o.executed + fill.qty.atto := by
  simp [executed]

/-- Adding a fill keeps an order sound; it closes when the volume is reached. -/
theorem filled_sound {o o' : Order} {now : Nat} {fill : Fill} (h : o.filled now fill = .ok o')
    (sound : o.Sound) (live : o.status.isLive = true) (fits : fill.Fits o) : o'.Sound := by
  obtain ⟨rest, remaining, h⟩ := bind_eq_ok.1 h
  have left := remaining_ok remaining
  rw [executed_push] at left
  have room := fits.room
  have fills : ∀ f ∈ o.fills ++ [fill], 0 < f.qty.atto ∧ 0 ≤ f.fee.atto ∧ mul f.qty f.price = .ok f.cost := by
    intro f member
    rcases List.mem_append.1 member with old | new
    · exact sound.fills f old
    · obtain rfl := List.mem_singleton.1 new
      exact ⟨fits.qty, fits.fee, fits.cost⟩
  split at h
  next more =>
    obtain rfl := Except.ok.inj h
    have positive := Dec.isPositive_iff.1 more
    refine { sound with fills, within := ?_, closed := ?_ }
    · rw [executed_push]
      omega
    · have open' : ¬ o.status = .closed := by
        intro closed
        rw [closed] at live
        cases live
      rw [executed_push]
      constructor
      · exact fun closed => absurd closed open'
      · intro full
        simp only at full left
        omega
  next done =>
    obtain rfl := Except.ok.inj h
    have empty : ¬ 0 < rest.atto := fun positive => done (Dec.isPositive_iff.2 positive)
    have full : ({ o with fills := o.fills ++ [fill] } : Order).executed = o.volume.atto := by
      rw [executed_push]
      simp only at left
      omega
    refine { sound with fills, within := full.le, closed := ?_ }
    exact ⟨fun _ => full, fun _ => rfl⟩

theorem filled_same {o o' : Order} {now : Nat} {fill : Fill} (h : o.filled now fill = .ok o') :
    o'.pair = o.pair ∧ o'.side = o.side ∧ o'.account = o.account ∧ o'.fills = o.fills ++ [fill] := by
  obtain ⟨rest, -, h⟩ := bind_eq_ok.1 h
  split at h <;> obtain rfl := Except.ok.inj h <;> exact ⟨rfl, rfl, rfl, rfl⟩

theorem filled_net {o o' : Order} {now : Nat} {fill : Fill} (h : o.filled now fill = .ok o')
    (asset : String) :
    o'.net asset = o.net asset + effect o.pair o.side fill.qty fill.cost fill.fee asset := by
  obtain ⟨pair, side, -, fills⟩ := filled_same h
  simp [net, pair, side, fills]

end Order

namespace Core

variable {core : Core}

variable {core' : Core} {spec : PairSpec} {now : Nat} {p : Order → Bool} {idx : Nat} {o : Order} {price : Option Dec}
  {txid canonical account : String} {new : NewOrder} {policy : FillPolicy} {atPlacement foreign : Bool}

theorem orderAt_eq_ok : core.orderAt idx = .ok o ↔ core.orders[idx]? = some o := by
  unfold orderAt
  split <;> simp_all

theorem market_eq_ok {name : String} {m : PairMarket} :
    core.market name = .ok m ↔ core.pairs[name]? = some m := by
  unfold market
  split <;> simp_all

theorem acct_eq_ok {name : String} {a : AccountState} :
    core.acct name = .ok a ↔ core.accounts[name]? = some a := by
  unfold acct
  split <;> simp_all

theorem feeRate_fair {liquidity : Liquidity} {rate : Dec} (sound : core.Sound)
    (h : core.feeRate account liquidity = .ok rate) : 0 ≤ rate.atto ∧ rate.atto ≤ 10 ^ maxScale := by
  simp only [feeRate, bind_eq_ok, acct_eq_ok, pure_eq_ok] at h
  obtain ⟨a, acct, rfl⟩ := h
  have fair : (a.fees.getD core.feeDefault).Fair := by
    cases given : a.fees with
    | none => exact sound.feeDefault
    | some f => exact sound.fees account a acct f given
  cases liquidity with
  | maker => exact fair.1
  | taker => exact fair.2

theorem advances_close {now : Nat} {o : Order} {status : Status} {reason : String}
    (found : core.orders[idx]? = some o) (live : o.status.isLive = true)
    (ended : status = .canceled ∨ status = .expired) :
    Advances core (core.closeOrder now idx status reason) := by
  refine advances_order _ found live (fun sound => { sound with closed := ?_ }) rfl rfl rfl rfl
  have unfilled : ¬ o.executed = o.volume.atto := by
    intro full
    rw [sound.closed.2 full] at live
    cases live
  constructor
  · intro closed
    rcases ended with rfl | rfl <;> cases closed
  · exact fun full => absurd full unfilled

theorem fillInternal_advances {qty price : Dec} {liquidity : Liquidity} {done : Bool} {o : Order}
    (h : core.fillInternal now idx qty price liquidity = .ok (core', done)) (found : core.orders[idx]? = some o)
    (live : o.status.isLive = true) (priced : core.Sound → 0 ≤ price.atto) : Advances core core' := by
  simp only [fillInternal, bind_eq_ok, orderAt_eq_ok, refuse_eq_ok, market_eq_ok, acct_eq_ok] at h
  obtain ⟨_, here, positive, remaining, rest, room, m, market, cost, costs, rate, rates, fee, fees, a,
    acct, canPay, pays, h⟩ := h
  obtain rfl := Option.some.inj (found.symm.trans here)
  cases canPay with
  | false =>
      obtain rfl := (Prod.mk.inj (Except.ok.inj h)).1
      exact advances_close found live (.inl rfl)
  | true =>
      simp only [Bool.not_true, Bool.false_eq_true, if_false, bind_eq_ok, pure_eq_ok] at h
      obtain ⟨balances, trade, filled, fill, made⟩ := h
      obtain rfl := (Prod.mk.inj made).1
      obtain ⟨pair, -, account, -⟩ := Order.filled_same fill
      have qtyPos : 0 < qty.atto := Dec.isPositive_iff.1 (by simpa using positive)
      have costNonneg (sound : core.Sound) : 0 ≤ cost.atto :=
        Money.mul_nonneg costs qtyPos.le (priced sound)
      have roomLe : qty.atto ≤ o.volume.atto - o.executed := by
        rw [← Order.remaining_ok rest]
        exact Dec.le_iff.1 (not_not.1 room)
      have fits (sound : core.Sound) : Fill.Fits
          ⟨krakenStyleId 'T' core.seed core.nextFill, o.txid, qty, price, cost, fee, now, liquidity,
            core.armedGlitches.head?.getD .normal⟩ o :=
        ⟨qtyPos, Money.mul_nonneg fees (costNonneg sound) (feeRate_fair sound rates).1, costs, roomLe⟩
      refine advances_fill (effect o.pair o.side qty cost fee) _ _ found live acct
        (fun sound => Order.filled_sound fill (sound.orders o (List.mem_of_getElem? found)) live
          (fits sound)) pair account (Order.filled_net fill) ?_
      intro sound asset
      have named := (sound.pairs o.pair m market).named
      have distinct := (sound.pairs o.pair m market).distinct
      rw [named] at trade pays
      have feeLe : fee.atto ≤ cost.atto :=
        mul_le_of_fraction fees (costNonneg sound) (feeRate_fair sound rates).2
      exact ⟨applyTrade_nonneg distinct trade pays (fun k => (sound.ledger o.account a acct k).1) qtyPos
        feeLe asset, applyTrade_ok distinct trade asset⟩

theorem touch_nonneg {pair : String} {side : Side} {t : Dec} (sound : core.Sound)
    (h : core.touch pair side = .ok t) : 0 ≤ t.atto := by
  simp only [touch, bind_eq_ok, market_eq_ok, pure_eq_ok] at h
  obtain ⟨m, market, rfl⟩ := h
  cases side with
  | buy => exact (sound.pairs pair m market).ask
  | sell => exact (sound.pairs pair m market).bid

theorem autoPrice_nonneg {px : Dec} {liq : Liquidity} (sound : core.Sound) (found : core.orders[idx]? = some o)
    (h : core.autoPrice o atPlacement = .ok (some (px, liq))) : 0 ≤ px.atto := by
  unfold autoPrice at h
  split at h
  next =>
    obtain ⟨t, touched, same⟩ := bind_eq_ok.1 h
    obtain ⟨rfl, -⟩ := Prod.mk.inj (Option.some.inj (Except.ok.inj same))
    exact touch_nonneg sound touched
  next price kind =>
    obtain ⟨crossing, -, h⟩ := bind_eq_ok.1 h
    split at h
    · cases h
    · split at h
      · obtain ⟨t, touched, same⟩ := bind_eq_ok.1 h
        obtain ⟨rfl, -⟩ := Prod.mk.inj (Option.some.inj (Except.ok.inj same))
        exact touch_nonneg sound touched
      · obtain ⟨rfl, -⟩ := Prod.mk.inj (Option.some.inj (Except.ok.inj h))
        exact (sound.orders o (List.mem_of_getElem? found)).limit price kind

theorem tryAutoFill_advances (h : core.tryAutoFill now idx atPlacement = .ok core') : Advances core core' := by
  simp only [tryAutoFill, bind_eq_ok, orderAt_eq_ok] at h
  obtain ⟨o, found, h⟩ := h
  split at h
  next =>
    obtain rfl := Except.ok.inj h
    exact .refl core
  next eligible =>
    have live : o.status.isLive = true := by
      have isOpen : o.status = .open := not_not.1 fun other => eligible (.inl other)
      rw [isOpen]
      rfl
    obtain ⟨qty, -, h⟩ := bind_eq_ok.1 h
    split at h
    next =>
      obtain rfl := Except.ok.inj h
      exact .refl core
    next =>
      obtain ⟨price, priced, h⟩ := bind_eq_ok.1 h
      split at h
      next =>
        obtain rfl := Except.ok.inj h
        exact .refl core
      next px liq =>
        obtain ⟨⟨filled, done⟩, fill, h⟩ := bind_eq_ok.1 h
        obtain rfl := Except.ok.inj h
        exact fillInternal_advances fill found live fun sound => autoPrice_nonneg sound found priced

theorem matchResting_advances {pair : String} (h : core.matchResting now pair = .ok core') : Advances core core' := by
  unfold matchResting at h
  refine foldlM_invariant (P := Advances core) (.refl core) ?_ h
  intro idx _ before after sofar step
  obtain ⟨o, -, step⟩ := bind_eq_ok.1 step
  split at step
  · exact sofar.trans (tryAutoFill_advances step)
  · obtain rfl := Except.ok.inj step
    exact sofar

theorem finishIoc_advances (h : core.finishIoc now idx = .ok core') : Advances core core' := by
  simp only [finishIoc, bind_eq_ok, orderAt_eq_ok] at h
  obtain ⟨o, found, h⟩ := h
  split at h
  next beyond =>
    obtain rfl := Except.ok.inj h
    rw [Bool.and_eq_true] at beyond
    exact advances_close found beyond.2 (.inl rfl)
  next =>
    obtain rfl := Except.ok.inj h
    exact .refl core

theorem scriptedPrice_nonneg {px : Dec} {liq : Liquidity} (sound : core.Sound) (order : o.Sound)
    (given : ∀ p, price = some p → 0 ≤ p.atto) (h : core.scriptedPrice o price atPlacement = .ok (px, liq)) :
    0 ≤ px.atto := by
  unfold scriptedPrice at h
  split at h
  next p _ =>
    obtain ⟨rfl, -⟩ := Prod.mk.inj (Except.ok.inj h)
    exact given _ rfl
  next p _ _ =>
    obtain ⟨rfl, -⟩ := Prod.mk.inj (Except.ok.inj h)
    exact given _ rfl
  next =>
    obtain ⟨t, touched, same⟩ := bind_eq_ok.1 h
    obtain ⟨rfl, -⟩ := Prod.mk.inj (Except.ok.inj same)
    exact touch_nonneg sound touched
  next limit kind =>
    obtain ⟨crossing, -, h⟩ := bind_eq_ok.1 h
    split at h
    · obtain ⟨t, touched, same⟩ := bind_eq_ok.1 h
      obtain ⟨rfl, -⟩ := Prod.mk.inj (Except.ok.inj same)
      exact touch_nonneg sound touched
    · obtain ⟨rfl, -⟩ := Prod.mk.inj (Except.ok.inj h)
      exact order.limit _ kind

theorem applyNextStep_advances {done : Bool} {o : Order}
    (h : core.applyNextStep now idx atPlacement = .ok (core', done)) (found : core.orders[idx]? = some o)
    (live : o.status.isLive = true) : Advances core core' := by
  simp only [applyNextStep, bind_eq_ok, orderAt_eq_ok] at h
  obtain ⟨_, here, h⟩ := h
  obtain rfl := Option.some.inj (found.symm.trans here)
  split at h
  next =>
    obtain rfl := (Prod.mk.inj (Except.ok.inj h)).1
    exact .refl core
  next step queue script =>
    simp only [bind_eq_ok, refuse_eq_ok, pure_eq_ok] at h
    obtain ⟨remaining, -, m, -, qty, -, -, ⟨px, liq⟩, priced, ⟨filled, _⟩, fill, same⟩ := h
    obtain rfl := (Prod.mk.inj same).1
    have popped : Advances core (core.withOrder idx fun o => { o with queue }) := by
      refine advances_order _ found live (fun sound => { sound with queue := ?_ }) rfl rfl rfl rfl
      intro s member
      exact sound.queue s (script ▸ List.mem_cons_of_mem step member)
    have there : (core.withOrder idx fun o => { o with queue }).orders[idx]? = some { o with queue } := by
      simp only [withOrder, found]
      obtain ⟨bound, -⟩ := List.getElem?_eq_some_iff.1 found
      simp [bound]
    intro sound
    have order : o.Sound := sound.orders o (List.mem_of_getElem? found)
    refine popped.trans (fillInternal_advances fill there live fun sound' => ?_) sound
    exact scriptedPrice_nonneg sound' order (order.queue step (script ▸ List.mem_cons_self)) priced

/-! ## Placing -/

structure Checked (core : Core) (new : NewOrder) : Prop where
  traded : core.pairs.contains new.pair = true
  volume : 0 < new.volume.atto
  limit : ∀ p, new.kind = .limit p → 0 ≤ p.atto

theorem checkArguments_volume (h : checkArguments spec new = .ok ()) : 0 < new.volume.atto := by
  simp only [checkArguments, refuse_eq_ok] at h
  exact Dec.isPositive_iff.1 (by simpa using h.1)

theorem refPrice_limit {ref : Dec} (h : core.refPrice spec new = .ok (.ok ref)) :
    ∀ p, new.kind = .limit p → 0 ≤ p.atto := by
  intro p kind
  simp only [refPrice, kind] at h
  split at h
  · cases Except.ok.inj h
  next fine =>
    rw [Bool.or_eq_true, not_or] at fine
    exact (Dec.isPositive_iff.1 (by simpa using fine.1)).le

theorem checkOrder_checked (h : core.checkOrder new = .ok (.ok ())) : core.Checked new := by
  unfold checkOrder at h
  split at h
  · cases Except.ok.inj h
  next m market =>
    split at h
    · cases Except.ok.inj h
    · split at h
      · cases Except.ok.inj h
      next arguments =>
        obtain ⟨outcome, priced, h⟩ := bind_eq_ok.1 h
        split at h
        · cases Except.ok.inj h
        next ref =>
          refine ⟨?_, checkArguments_volume arguments, refPrice_limit priced⟩
          rw [Std.ExtTreeMap.contains_eq_isSome_getElem?, market]
          rfl

theorem newOrder_sound {reservePrice : Dec} (checked : core.Checked new) (priced : policy.Priced) :
    (core.newOrder now new policy foreign reservePrice).Sound where
  volume := checked.volume
  limit := checked.limit
  queue := by
    cases policy with
    | partly steps => exact priced
    | _ => exact fun _ member => nomatch member
  fills := fun _ member => nomatch member
  within := checked.volume.le
  closed := by
    have volume := checked.volume
    constructor
    · intro closed
      simp only [newOrder] at closed
      split at closed <;> cases closed
    · intro full
      change (0 : Int) = new.volume.atto at full
      omega

theorem newOrder_live {reservePrice : Dec} :
    (core.newOrder now new policy foreign reservePrice).status.isLive = true := by
  simp only [newOrder]
  split <;> rfl

theorem fullFillPrice_nonneg {px : Dec} {liq : Liquidity} (sound : core.Sound) (order : o.Sound)
    (given : ∀ p, price = some p → 0 ≤ p.atto) (h : core.fullFillPrice o price = .ok (px, liq)) : 0 ≤ px.atto := by
  unfold fullFillPrice at h
  split at h
  next p _ =>
    obtain ⟨rfl, -⟩ := Prod.mk.inj (Except.ok.inj h)
    exact given _ rfl
  next =>
    obtain ⟨t, touched, same⟩ := bind_eq_ok.1 h
    obtain ⟨rfl, -⟩ := Prod.mk.inj (Except.ok.inj same)
    exact touch_nonneg sound touched
  next limit kind =>
    obtain ⟨rfl, -⟩ := Prod.mk.inj (Except.ok.inj h)
    exact order.limit _ kind

theorem startPolicy_advances (h : core.startPolicy now idx o policy = .ok core') (found : core.orders[idx]? = some o)
    (live : o.status.isLive = true) (priced : policy.Priced) : Advances core core' := by
  cases policy with
  | auto => exact tryAutoFill_advances h
  | fullFill price =>
      obtain ⟨⟨px, liq⟩, price, h⟩ := bind_eq_ok.1 h
      obtain ⟨⟨filled, done⟩, fill, h⟩ := bind_eq_ok.1 h
      obtain rfl := Except.ok.inj h
      exact fillInternal_advances fill found live fun sound =>
        fullFillPrice_nonneg sound (sound.orders o (List.mem_of_getElem? found)) priced price
  | partly steps =>
      obtain ⟨⟨filled, done⟩, step, h⟩ := bind_eq_ok.1 h
      obtain rfl := Except.ok.inj h
      exact applyNextStep_advances step found live
  | noFill | pending | reject codes =>
      obtain rfl := Except.ok.inj h
      exact .refl core

theorem create_advances {answer : Except Reject Placed} (h : core.create now new policy foreign = .ok (core', answer))
    (checked : core.Checked new) (owned : core.accounts.contains new.account = true) (priced : policy.Priced) :
    Advances core core' := by
  simp only [create, bind_eq_ok, pure_eq_ok] at h
  obtain ⟨reservePrice, -, started, start, finished, finish, same⟩ := h
  obtain rfl := (Prod.mk.inj same).1
  have pushed : Advances core
      (core.pushOrder (core.newOrder now new policy foreign reservePrice)) :=
    advances_push (newOrder_sound checked priced) checked.traded owned rfl
  have there : (core.pushOrder (core.newOrder now new policy foreign reservePrice)).orders[core.orders.length]? =
      some (core.newOrder now new policy foreign reservePrice) := by
    simp [pushOrder]
  exact (pushed.trans (startPolicy_advances start there newOrder_live priced)).trans
    (finishIoc_advances finish)

theorem createChecked_advances {answer : Except Reject Placed}
    (h : core.createChecked now new policy foreign = .ok (core', answer))
    (owned : core.accounts.contains new.account = true) (priced : policy.Priced) :
    Advances core core' := by
  unfold createChecked at h
  split at h
  · obtain rfl := (Prod.mk.inj (Except.ok.inj h)).1
    exact .refl core
  · obtain ⟨outcome, checks, h⟩ := bind_eq_ok.1 h
    split at h
    · obtain rfl := (Prod.mk.inj (Except.ok.inj h)).1
      exact .refl core
    · split at h
      · obtain rfl := (Prod.mk.inj (Except.ok.inj h)).1
        exact .refl core
      · exact create_advances h (checkOrder_checked checks) owned priced

theorem takePolicy_advances (core : Core) (new : NewOrder) (consume : Bool) :
    Advances core (core.takePolicy new consume).2 ∧
      (core.Sound → (core.takePolicy new consume).1.Priced) ∧
      (core.takePolicy new consume).2.accounts = core.accounts := by
  have rules (list : List OrderRule) (kept : ∀ r ∈ list, ∃ r' ∈ core.rules, r.policy = r'.policy) :
      Advances core { core with rules := list } := by
    intro sound
    refine ⟨{ sound with rules := ?_ }, .of_orders rfl⟩
    intro r member
    obtain ⟨r', old, same⟩ := kept r member
    rw [same]
    exact sound.rules r' old
  unfold takePolicy
  simp only
  split
  · exact ⟨.refl core, fun sound => sound.defaultPolicy, rfl⟩
  · split
    · exact ⟨.refl core, fun sound => sound.defaultPolicy, rfl⟩
    next i _ rule found =>
      have member : rule ∈ core.rules := List.mem_of_getElem? found
      split
      · exact ⟨.refl core, fun sound => sound.rules rule member, rfl⟩
      · split
        · refine ⟨rules _ ?_, fun sound => sound.rules rule member, rfl⟩
          exact fun r erased => ⟨r, List.mem_of_mem_eraseIdx erased, rfl⟩
        · refine ⟨rules _ ?_, fun sound => sound.rules rule member, rfl⟩
          intro r inSet
          rcases List.mem_or_eq_of_mem_set inSet with old | rfl
          · exact ⟨r, old, rfl⟩
          · exact ⟨rule, member, rfl⟩

theorem placeInner_advances {forced : Option FillPolicy} {foreign : Bool} {answer : Except Reject Placed}
    (h : core.placeInner now new forced foreign = .ok (core', answer)) (priced : ∀ p, forced = some p → p.Priced) :
    Advances core core' := by
  unfold placeInner at h
  split at h
  · cases h
  next known =>
    have owned : core.accounts.contains new.account = true := by simpa using known
    cases forced with
    | some p => exact createChecked_advances h owned (priced p rfl)
    | none =>
        obtain ⟨taken, policy, accounts⟩ := takePolicy_advances core new (!new.validate)
        intro sound
        exact taken.trans (createChecked_advances h (accounts ▸ owned) (policy sound)) sound

/-! ## Operations -/

theorem applyNextFill_advances {answer : Except String Unit} (h : core.applyNextFill now txid = .ok (core', answer)) :
    Advances core core' := by
  unfold applyNextFill at h
  split at h
  · obtain rfl := (Prod.mk.inj (Except.ok.inj h)).1
    exact .refl core
  next idx _ =>
    obtain ⟨o, found, h⟩ := bind_eq_ok.1 h
    rw [orderAt_eq_ok] at found
    split at h
    · obtain rfl := (Prod.mk.inj (Except.ok.inj h)).1
      exact .refl core
    next live =>
      obtain ⟨⟨stepped, done⟩, step, h⟩ := bind_eq_ok.1 h
      obtain rfl := (Prod.mk.inj (Except.ok.inj h)).1
      exact applyNextStep_advances step found (by simpa using live)

theorem scriptFill_advances {qty : Dec} {price : Option Dec} {answer : Except String Unit}
    (h : core.scriptFill now txid qty price = .ok (core', answer)) (given : ∀ p, price = some p → 0 ≤ p.atto) :
    Advances core core' := by
  unfold scriptFill at h
  split at h
  · obtain rfl := (Prod.mk.inj (Except.ok.inj h)).1
    exact .refl core
  next idx _ =>
    obtain ⟨o, found, h⟩ := bind_eq_ok.1 h
    rw [orderAt_eq_ok] at found
    split at h
    · obtain rfl := (Prod.mk.inj (Except.ok.inj h)).1
      exact .refl core
    next live =>
      obtain ⟨remaining, -, h⟩ := bind_eq_ok.1 h
      split at h
      · obtain rfl := (Prod.mk.inj (Except.ok.inj h)).1
        exact .refl core
      · obtain ⟨⟨px, liq⟩, priced, h⟩ := bind_eq_ok.1 h
        obtain ⟨⟨filled, done⟩, fill, h⟩ := bind_eq_ok.1 h
        obtain rfl := (Prod.mk.inj (Except.ok.inj h)).1
        exact fillInternal_advances fill found (by simpa using live) fun sound =>
          scriptedPrice_nonneg sound (sound.orders o (List.mem_of_getElem? found)) given priced

theorem addForeignOrder_advances {f : ForeignOrder} {answer : Except Reject String}
    (h : core.addForeignOrder now account f = .ok (core', answer)) :
    Advances core core' := by
  obtain ⟨⟨placed, outcome⟩, place, h⟩ := bind_eq_ok.1 h
  have first : Advances core placed := by
    apply placeInner_advances place
    intro p same
    obtain rfl := Option.some.inj same
    trivial
  simp only at h
  split at h
  · obtain rfl := (Prod.mk.inj (Except.ok.inj h)).1
    exact first
  · cases h
  next txid _ =>
    split at h
    · obtain ⟨⟨filled, done⟩, fill, h⟩ := bind_eq_ok.1 h
      have second : Advances placed filled := scriptFill_advances fill fun _ none => nomatch none
      simp only at h
      split at h
      · obtain rfl := (Prod.mk.inj (Except.ok.inj h)).1
        exact first.trans second
      · obtain rfl := (Prod.mk.inj (Except.ok.inj h)).1
        exact first.trans second
    · obtain rfl := (Prod.mk.inj (Except.ok.inj h)).1
      exact first

theorem activate_advances {answer : Except String Unit} (h : core.activate now txid = .ok (core', answer)) :
    Advances core core' := by
  unfold activate at h
  split at h
  · obtain rfl := (Prod.mk.inj (Except.ok.inj h)).1
    exact .refl core
  next idx _ =>
    obtain ⟨o, found, h⟩ := bind_eq_ok.1 h
    rw [orderAt_eq_ok] at found
    split at h
    · obtain rfl := (Prod.mk.inj (Except.ok.inj h)).1
      exact .refl core
    next waiting =>
      have pending : o.status = .pending := not_not.1 waiting
      obtain ⟨filled, fill, h⟩ := bind_eq_ok.1 h
      obtain ⟨finished, finish, h⟩ := bind_eq_ok.1 h
      obtain rfl := (Prod.mk.inj (Except.ok.inj h)).1
      have opened : Advances core (core.withOrder idx fun o => { o with status := .open }) := by
        refine advances_order _ found (by rw [pending]; rfl) (fun sound => ?_) rfl rfl rfl rfl
        have unfilled : ¬ o.executed = o.volume.atto := by
          rw [← sound.closed, pending]
          rintro ⟨⟩
        exact { sound with closed := iff_of_false (by rintro ⟨⟩) unfilled }
      exact (opened.trans (tryAutoFill_advances fill)).trans (finishIoc_advances finish)

theorem endLive_advances {status : Status} {reason : String} {answer : Except String Unit}
    (h : core.endLive now txid status reason = .ok (core', answer)) (ended : status = .canceled ∨ status = .expired) :
    Advances core core' := by
  unfold endLive at h
  split at h
  · obtain rfl := (Prod.mk.inj (Except.ok.inj h)).1
    exact .refl core
  next idx _ =>
    obtain ⟨o, found, h⟩ := bind_eq_ok.1 h
    rw [orderAt_eq_ok] at found
    split at h
    · obtain rfl := (Prod.mk.inj (Except.ok.inj h)).1
      exact .refl core
    next live =>
      obtain rfl := (Prod.mk.inj (Except.ok.inj h)).1
      exact advances_close found (by simpa using live) ended

theorem mem_positions (member : idx ∈ core.positions p) : ∃ o, core.orders[idx]? = some o ∧ p o = true := by
  simp only [positions, List.mem_map, List.mem_filter, Prod.exists] at member
  obtain ⟨o, i, ⟨inList, holds⟩, rfl⟩ := member
  exact ⟨o, List.mem_zipIdx_iff_getElem?.1 inList, holds⟩

theorem positions_nodup (p : Order → Bool) : (core.positions p).Nodup := by
  have all : (core.orders.zipIdx.map Prod.snd).Nodup := by
    rw [List.zipIdx_map_snd]
    exact List.nodup_range'
  exact all.sublist (List.filter_sublist.map Prod.snd)

/-- Changing live orders one after the other; a change touches no other order. -/
theorem changeAll_advances (change : Order → Order)
    (one : ∀ (core : Core) (idx : Nat) (o : Order), core.orders[idx]? = some o → o.status.isLive = true →
      Advances core (core.withOrder idx change)) (idxs : List Nat) : ∀ core : Core, idxs.Nodup →
    (∀ idx ∈ idxs, ∃ o, core.orders[idx]? = some o ∧ o.status.isLive = true) →
    Advances core (idxs.foldl (fun core idx => core.withOrder idx change) core) := by
  induction idxs with
  | nil => exact fun core _ _ => .refl core
  | cons idx idxs ih =>
      intro core nodup live
      obtain ⟨fresh, rest⟩ := List.nodup_cons.1 nodup
      obtain ⟨o, found, alive⟩ := live idx (by simp)
      refine (one core idx o found alive).trans (ih _ rest ?_)
      intro idx' member
      obtain ⟨o', found', alive'⟩ := live idx' (by simp [member])
      have other : idx ≠ idx' := fun same => fresh (same ▸ member)
      refine ⟨o', ?_, alive'⟩
      simp only [withOrder, found]
      rw [List.getElem?_set_ne other]
      exact found'

theorem cancelAll_advances (live : ∀ o, p o = true → o.status.isLive = true) :
    Advances core (core.cancelAll now (core.positions p)) := by
  refine changeAll_advances _ (fun _ _ _ found alive => advances_close found alive (.inl rfl)) _ core
    (positions_nodup p) ?_
  intro idx member
  obtain ⟨o, found, holds⟩ := mem_positions member
  exact ⟨o, found, live o holds⟩

theorem requestAll_advances (live : ∀ o, p o = true → o.status.isLive = true) :
    Advances core (core.requestAll (core.positions p)) := by
  refine changeAll_advances _ (fun _ _ _ found alive => ?_) _ core (positions_nodup p) ?_
  · exact advances_order _ found alive (fun sound => { sound with }) rfl rfl rfl rfl
  · intro idx member
    obtain ⟨o, found, holds⟩ := mem_positions member
    exact ⟨o, found, live o holds⟩

theorem cancel_advances (now : Nat) (account : String) (target : CancelTarget) :
    Advances core (core.cancel now account target).1 := by
  have live : ∀ o : Order, (o.account == account && o.status.isLive && target.hits o) = true →
      o.status.isLive = true := by
    intro o hit
    simp only [Bool.and_eq_true] at hit
    exact hit.1.2
  unfold cancel
  simp only
  split
  · exact .refl core
  · split
    · intro sound
      have counted : ({ core with deferredCancels := core.deferredCancels - 1 } : Core).Sound :=
        { sound with }
      exact requestAll_advances live counted
    · exact cancelAll_advances live

theorem settlePendingCancels_advances (now : Nat) : Advances core (core.settlePendingCancels now).1 := by
  apply cancelAll_advances
  intro o waiting
  simp only [Bool.and_eq_true] at waiting
  exact waiting.2

theorem externalAdjust_advances {asset : String} {delta : Dec}
    (h : core.externalAdjust account asset delta = .ok core') : Advances core core' := by
  simp only [externalAdjust, bind_eq_ok, refuse_eq_ok, pure_eq_ok, acct_eq_ok] at h
  obtain ⟨a, found, balance, booked, nonneg, external, recorded, rfl⟩ := h
  refine advances_account (fun sound => sound.fees account a found) fun sound other => ?_
  obtain ⟨positive, explained⟩ := sound.ledger account a found other
  simp only [Amounts.of_insert]
  by_cases same : other = asset
  · subst same
    rw [if_pos rfl, if_pos rfl, add_ok booked, add_ok recorded]
    have kept := add_ok booked
    have fine : ¬ balance.atto < 0 := by simpa [Dec.isNegative_iff] using nonneg
    omega
  · rw [if_neg same, if_neg same]
    exact ⟨positive, explained⟩

theorem setBalance_advances {asset : String} {amount : Dec} (h : core.setBalance account asset amount = .ok core') :
    Advances core core' := by
  obtain ⟨a, -, h⟩ := bind_eq_ok.1 h
  obtain ⟨delta, -, h⟩ := bind_eq_ok.1 h
  exact externalAdjust_advances h

theorem addAccount_advances (name : String) : Advances core (core.addAccount name) := by
  unfold addAccount
  split
  · exact .refl core
  next fresh =>
    refine advances_account (fun _ f none => nomatch none) fun sound asset => ?_
    have unused : core.net name asset = 0 := by
      apply List.sum_eq_zero
      intro n member
      obtain ⟨o, inList, rfl⟩ := List.mem_map.1 member
      have other : ¬ o.account = name := by
        rintro rfl
        exact fresh (sound.owned o inList)
      rw [Order.netOf, if_neg other]
    rw [unused]
    simp [Amounts.of]

theorem setAccountFees_advances {fees : Option FeeSchedule} (h : core.setAccountFees account fees = .ok core')
    (fair : ∀ f, fees = some f → f.Fair) :
    Advances core core' := by
  obtain ⟨a, found, h⟩ := bind_eq_ok.1 h
  obtain rfl := Except.ok.inj h
  exact advances_account (fun _ => fair) fun sound =>
    sound.ledger account a (acct_eq_ok.1 found)

/-! ## Markets -/

theorem addPair_advances {price : Dec} (h : core.addPair spec price = .ok core') (distinct : spec.base ≠ spec.quote)
    (bid : 0 ≤ price.atto) (ask : 0 ≤ price.atto + spec.tickSize.atto) : Advances core core' := by
  obtain ⟨offered, sum, h⟩ := bind_eq_ok.1 h
  obtain rfl := Except.ok.inj h
  have total := add_ok sum
  exact advances_market fun _ => ⟨rfl, distinct, bid, by simp only; omega⟩

theorem setPairStatus_advances {status : String} (h : core.setPairStatus canonical status = .ok core') :
    Advances core core' := by
  obtain ⟨m, found, h⟩ := bind_eq_ok.1 h
  obtain rfl := Except.ok.inj h
  refine advances_market fun sound => ?_
  have here := sound.pairs canonical m (market_eq_ok.1 found)
  exact { here with named := here.named }

theorem setPrice_advances {price : Dec} (h : core.setPrice now canonical price = .ok core') (bid : 0 ≤ price.atto)
    (ask : ∀ m, core.pairs[canonical]? = some m → 0 ≤ price.atto + m.spread.atto) :
    Advances core core' := by
  obtain ⟨m, found, h⟩ := bind_eq_ok.1 h
  obtain ⟨offered, sum, h⟩ := bind_eq_ok.1 h
  rw [market_eq_ok] at found
  have total := add_ok sum
  refine .trans (advances_market fun sound => ?_) (matchResting_advances h)
  have here := sound.pairs canonical m found
  have positive := ask m found
  exact ⟨here.named, here.distinct, bid, by simp only; omega⟩

theorem setSpread_advances {spread : Dec} (h : core.setSpread canonical spread = .ok core')
    (ask : ∀ m, core.pairs[canonical]? = some m → 0 ≤ m.bid.atto + spread.atto) :
    Advances core core' := by
  obtain ⟨m, found, h⟩ := bind_eq_ok.1 h
  obtain ⟨offered, sum, h⟩ := bind_eq_ok.1 h
  obtain rfl := Except.ok.inj h
  rw [market_eq_ok] at found
  have total := add_ok sum
  refine advances_market fun sound => ?_
  have here := sound.pairs canonical m found
  have positive := ask m found
  exact ⟨here.named, here.distinct, here.bid, by simp only; omega⟩

theorem setQuote_advances {bid ask last : Dec} (h : core.setQuote now canonical bid ask last = .ok core')
    (bidNonneg : 0 ≤ bid.atto) (askNonneg : 0 ≤ ask.atto) : Advances core core' := by
  obtain ⟨m, found, h⟩ := bind_eq_ok.1 h
  refine .trans (advances_market fun sound => ?_) (matchResting_advances h)
  have here := sound.pairs canonical m (market_eq_ok.1 found)
  exact ⟨here.named, here.distinct, bidNonneg, askNonneg⟩

end Core

end FakeBroker
