import SignalEngine.FakeBroker.Ledger

/-! # The exchange's check over whole runs

A sound exchange passes its own check, and every sane operation keeps it sound,
so the check passes after every step of every run.
-/

open BrokerAdapters Outcome

namespace FakeBroker

open Money

/-! ## The check of a sound exchange -/

def Panic.IsOverflow : Panic → Prop
  | .overflow _ => True
  | .assertion _ => False

theorem expect_gives {α : Type} {text : String} {x : Option α} {P : α → Prop}
    (holds : ∀ a, x = some a → P a) : Gives Panic.IsOverflow P (expect text x) := by
  cases x with
  | some a => exact holds a rfl
  | none => trivial

theorem add_gives (a b : Dec) : Gives Panic.IsOverflow (fun z => z.atto = a.atto + b.atto) (add a b) :=
  expect_gives fun _ h => Dec.atto_checkedAdd h

theorem sub_gives (a b : Dec) : Gives Panic.IsOverflow (fun z => z.atto = a.atto - b.atto) (sub a b) := by
  have negation : Gives Panic.IsOverflow (fun z => z.atto = -b.atto) (neg b) :=
    expect_gives fun _ h => neg_ok (expect_eq_ok.2 h)
  refine negation.bind fun negated opposite => (add_gives a negated).mono fun z total => ?_
  rw [total, opposite, sub_eq_add_neg]

theorem sum_gives (items : List Dec) :
    Gives Panic.IsOverflow (fun z => z.atto = (items.map Dec.atto).sum) (sum items) := by
  let left (rest : List Dec) (z : Dec) : Prop :=
    z.atto + (rest.map Dec.atto).sum = (items.map Dec.atto).sum
  have step (item : Dec) (rest : List Dec) (z : Dec) (before : left (item :: rest) z) :
      Gives Panic.IsOverflow (left rest) (add z item) := by
    refine (add_gives z item).mono fun z' total => ?_
    simp only [left, List.map_cons, List.sum_cons] at before ⊢
    omega
  refine (Gives.foldlM step items Dec.zero (by simp [left])).mono fun z total => ?_
  simpa [left] using total

theorem applyTrade_gives {pair : String} (distinct : baseOf pair ≠ quoteOf pair) (m : Amounts)
    (side : Side) (qty cost fee : Dec) :
    Gives Panic.IsOverflow
      (fun m' => ∀ asset, (m'.of asset).atto = (m.of asset).atto + effect pair side qty cost fee asset)
      (applyTrade m pair side qty cost fee) := by
  have stops : Gives Panic.IsOverflow (fun _ => True) (applyTrade m pair side qty cost fee) := by
    cases side with
    | buy =>
        exact (add_gives _ _).bind fun _ _ => (add_gives _ _).bind fun _ _ =>
          (sub_gives _ _).bind fun _ _ => trivial
    | sell =>
        exact (sub_gives _ _).bind fun _ _ => (sub_gives _ _).bind fun _ _ =>
          (add_gives _ _).bind fun _ _ => trivial
  cases h : applyTrade m pair side qty cost fee with
  | ok m' => exact applyTrade_ok distinct h
  | error p =>
      rw [h] at stops
      exact stops

namespace Core

variable {core : Core}

theorem expected_gives (sound : core.Sound) (name : String) (a : AccountState) :
    Gives Panic.IsOverflow
      (fun m => ∀ asset, (m.of asset).atto = (a.external.of asset).atto + core.net name asset)
      (core.expected name a) := by
  -- what the orders not yet folded in still add
  let left (orders : List Order) (m : Amounts) : Prop :=
    (∀ o ∈ orders, o ∈ core.orders ∧ o.account = name) ∧
      ∀ asset, (m.of asset).atto + (orders.map fun o => o.net asset).sum =
        (a.external.of asset).atto + core.net name asset
  have start : left (core.orders.filter fun o => o.account == name) a.external := by
    refine ⟨fun o member => ?_, fun asset => ?_⟩
    · simpa using member
    · have own : ∀ orders : List Order, ((orders.filter fun o => o.account == name).map fun o => o.net asset).sum =
          (orders.map fun o => o.netOf name asset).sum := by
        intro orders
        induction orders with
        | nil => rfl
        | cons o orders ih =>
            by_cases mine : o.account = name
            · simp [Order.netOf, mine, ih]
            · simp [Order.netOf, mine, ih]
      rw [own]
      rfl
  refine (Gives.foldlM ?_ _ a.external start).mono fun m done asset => ?_
  · rintro o orders m ⟨members, total⟩
    obtain ⟨member, mine⟩ := members o (by simp)
    have traded := sound.traded o member
    rw [Std.ExtTreeMap.contains_eq_isSome_getElem?] at traded
    obtain ⟨market, found⟩ := Option.isSome_iff_exists.1 traded
    have good := sound.pairs o.pair market found
    have here : core.market o.pair = .ok market := market_eq_ok.2 found
    rw [here]
    let rest (fills : List Fill) (m : Amounts) : Prop :=
      ∀ asset, (m.of asset).atto +
        (fills.map fun f => effect o.pair o.side f.qty f.cost f.fee asset).sum +
          (orders.map fun o => o.net asset).sum = (a.external.of asset).atto + core.net name asset
    have fold : Gives Panic.IsOverflow (rest []) (o.fills.foldlM
        (fun m f => applyTrade m market.spec.canonical o.side f.qty f.cost f.fee) m) := by
      refine Gives.foldlM ?_ o.fills m fun asset => ?_
      · intro f fills m before
        rw [good.named]
        refine (applyTrade_gives good.distinct m o.side f.qty f.cost f.fee).mono fun m' moved asset => ?_
        have now := before asset
        simp only [List.map_cons, List.sum_cons] at now
        rw [moved asset]
        omega
      · have now := total asset
        simp only [List.map_cons, List.sum_cons] at now
        rw [← now, add_assoc]
        rfl
    refine fold.mono fun m' after => ⟨fun o' member' => members o' (by simp [member']), fun asset => ?_⟩
    simpa [rest] using after asset
  · simpa [left] using done.2 asset

abbrev Passes (x : Except Panic (Except String Unit)) : Prop :=
  Gives Panic.IsOverflow (fun verdict => verdict = .ok ()) x

theorem firstComplaint_passes {α : Type} {check : α → Except Panic (Except String Unit)} (as : List α)
    (each : ∀ a ∈ as, Passes (check a)) : Passes (firstComplaint check as) := by
  induction as with
  | nil => rfl
  | cons a as ih =>
      refine (each a (by simp)).bind fun verdict fine => ?_
      rw [fine]
      exact ih fun a' member => each a' (by simp [member])

theorem checkAccount_passes (sound : core.Sound) {name : String} {a : AccountState}
    (found : core.accounts[name]? = some a) : Passes (core.checkAccount (name, a)) := by
  refine (expected_gives sound name a).bind fun expected rebuilt => ?_
  have asset : ∀ asset, checkAsset name a.balances expected asset = .ok () := by
    intro asset
    obtain ⟨nonneg, explained⟩ := sound.ledger name a found asset
    have positive : (a.balances.of asset).isNegative = false := by
      rw [Bool.eq_false_iff, Ne, Dec.isNegative_iff]
      omega
    have equal : (a.balances.of asset).eq (expected.of asset) = true := by
      rw [Dec.eq_iff, rebuilt asset, explained]
    simp [checkAsset, positive, equal]
  change List.forM (Std.ExtTreeSet.ofList (a.balances.keys ++ expected.keys)).toList
    (checkAsset name a.balances expected) = .ok ()
  generalize (Std.ExtTreeSet.ofList (a.balances.keys ++ expected.keys)).toList = assets
  induction assets with
  | nil => rfl
  | cons first rest ih =>
      change (checkAsset name a.balances expected first >>= fun _ => rest.forM _) = .ok ()
      rw [asset first]
      exact ih

end Core

theorem Order.check_passes {o : Order} (sound : o.Sound) : Core.Passes o.check := by
  have volume : Gives Panic.IsOverflow (fun exec => exec.atto = o.executed) o.volExec := by
    refine (sum_gives _).mono fun exec total => ?_
    rw [total, executed, List.map_map]
    rfl
  refine volume.bind fun exec executed => ?_
  have within : ¬ exec > o.volume := by
    rw [gt_iff_lt, Dec.lt_iff, executed]
    exact not_lt.2 sound.within
  have closed : ¬ (o.status = .closed ∧ exec.eq o.volume = false) := by
    rintro ⟨isClosed, differs⟩
    rw [Bool.eq_false_iff, Ne, Dec.eq_iff, executed] at differs
    exact differs (sound.closed.1 isClosed)
  have live : ¬ (o.status.isLive = true ∧ o.volume ≤ exec) := by
    rintro ⟨alive, full⟩
    rw [Dec.le_iff, executed] at full
    have isClosed := sound.closed.2 (le_antisymm sound.within full)
    rw [isClosed] at alive
    cases alive
  have costs : (o.fills.mapM fun f => mul f.qty f.price) = .ok (o.fills.map Fill.cost) := by
    rw [mapM_eq_ok, List.forall₂_map_right_iff, List.forall₂_same]
    exact fun f member => (sound.fills f member).2.2
  have positive : ¬ (o.fills.any fun f => !f.qty.isPositive || f.fee.isNegative) = true := by
    rw [List.any_eq_true]
    rintro ⟨f, member, bad⟩
    obtain ⟨qty, fee, -⟩ := sound.fills f member
    have qtyPositive := Dec.isPositive_iff.2 qty
    have feeNegative : f.fee.isNegative = true := by simpa [qtyPositive] using bad
    rw [Dec.isNegative_iff] at feeNegative
    omega
  rw [if_neg within, if_neg (by simpa using closed), if_neg (by simpa using live), costs]
  -- the cost is summed twice from the same amounts
  cases total : sum (o.fills.map Fill.cost) with
  | error p =>
      have stopped := sum_gives (o.fills.map Fill.cost)
      rw [total] at stopped
      change Core.Passes (sum (o.fills.map Fill.cost) >>= _)
      rw [total]
      exact stopped
  | ok cost =>
      have same : o.cost = .ok cost := total
      have equal : cost.eq cost = true := Dec.eq_iff.2 rfl
      change Core.Passes (sum (o.fills.map Fill.cost) >>= _)
      rw [total]
      change Core.Passes (o.cost >>= _)
      rw [same]
      simp only [bind, Except.bind, equal, positive]
      rfl

theorem Core.checkInvariants_passes {core : Core} (sound : core.Sound) : Passes core.checkInvariants := by
  have accounts : Passes (firstComplaint core.checkAccount core.accounts.toList) := by
    apply firstComplaint_passes
    rintro ⟨name, a⟩ member
    exact checkAccount_passes sound (Std.ExtTreeMap.mem_toList_iff_getElem?_eq_some.1 member)
  refine accounts.bind fun verdict fine => ?_
  rw [fine]
  exact firstComplaint_passes core.orders fun o member => Order.check_passes (sound.orders o member)

/-! ## Runs -/

/-- Prices that are not negative, fee rates between nothing and the whole cost,
    and two different assets in every pair. -/
def Op.Sane (core : Core) : Op → Prop
  | .addPair spec price =>
      spec.base ≠ spec.quote ∧ 0 ≤ price.atto ∧ 0 ≤ price.atto + spec.tickSize.atto
  | .setFeeDefault fees => fees.Fair
  | .setAccountFees _ fees => ∀ f, fees = some f → f.Fair
  | .setDefaultPolicy policy => policy.Priced
  | .pushRule rule => rule.policy.Priced
  | .setPrice _ canonical price =>
      0 ≤ price.atto ∧ ∀ m, core.pairs[canonical]? = some m → 0 ≤ price.atto + m.spread.atto
  | .setSpread canonical spread =>
      ∀ m, core.pairs[canonical]? = some m → 0 ≤ m.bid.atto + spread.atto
  | .setQuote _ _ bid ask _ => 0 ≤ bid.atto ∧ 0 ≤ ask.atto
  | .scriptFill _ _ _ price => ∀ p, price = some p → 0 ≤ p.atto
  | _ => True

namespace Core

/-- Every operation is sane in the state it meets. -/
def SaneRun (core : Core) : List Op → Prop
  | [] => True
  | op :: ops => op.Sane core ∧ ∀ next, core.apply op = .ok next → next.SaneRun ops

theorem map_fst_eq_ok {α : Type} {x : Except Panic (Core × α)} {core' : Core} :
    Prod.fst <$> x = .ok core' ↔ ∃ answer, x = .ok (core', answer) := by
  cases x with
  | error p => simp [Functor.map, Except.map]
  | ok pair =>
      obtain ⟨core, answer⟩ := pair
      simp [Functor.map, Except.map]

variable {core : Core}

theorem apply_advances {core' : Core} {op : Op} (h : core.apply op = .ok core') (sane : op.Sane core) :
    Advances core core' := by
  cases op with
  | addPair spec price => exact addPair_advances h sane.1 sane.2.1 sane.2.2
  | addAccount name =>
      obtain rfl := Except.ok.inj h
      exact addAccount_advances name
  | setPairStatus canonical status => exact setPairStatus_advances h
  | setFeeDefault fees =>
      obtain rfl := Except.ok.inj h
      exact fun sound => ⟨{ sound with feeDefault := sane }, .of_orders rfl⟩
  | setAccountFees account fees => exact setAccountFees_advances h sane
  | setDefaultPolicy policy =>
      obtain rfl := Except.ok.inj h
      exact fun sound => ⟨{ sound with defaultPolicy := sane }, .of_orders rfl⟩
  | pushRule rule =>
      obtain rfl := Except.ok.inj h
      refine fun sound => ⟨{ sound with rules := ?_ }, .of_orders rfl⟩
      intro r member
      rcases List.mem_append.1 member with old | new
      · exact sound.rules r old
      · obtain rfl := List.mem_singleton.1 new
        exact sane
  | clearRules =>
      obtain rfl := Except.ok.inj h
      exact fun sound => ⟨{ sound with rules := by simp }, .of_orders rfl⟩
  | armGlitch glitch =>
      obtain rfl := Except.ok.inj h
      exact fun sound => ⟨{ sound with }, .of_orders rfl⟩
  | deferNextCancels n =>
      obtain rfl := Except.ok.inj h
      exact fun sound => ⟨{ sound with }, .of_orders rfl⟩
  | externalAdjust account asset delta => exact externalAdjust_advances h
  | setBalance account asset amount => exact setBalance_advances h
  | setPrice now canonical price => exact setPrice_advances h sane.1 sane.2
  | setSpread canonical spread => exact setSpread_advances h sane
  | setQuote now canonical bid ask last => exact setQuote_advances h sane.1 sane.2
  | place now new =>
      obtain ⟨answer, h⟩ := map_fst_eq_ok.1 h
      exact placeInner_advances h fun _ none => nomatch none
  | addForeignOrder now account f =>
      obtain ⟨answer, h⟩ := map_fst_eq_ok.1 h
      exact addForeignOrder_advances h
  | applyNextFill now txid =>
      obtain ⟨answer, h⟩ := map_fst_eq_ok.1 h
      exact applyNextFill_advances h
  | scriptFill now txid qty price =>
      obtain ⟨answer, h⟩ := map_fst_eq_ok.1 h
      exact scriptFill_advances h sane
  | activate now txid =>
      obtain ⟨answer, h⟩ := map_fst_eq_ok.1 h
      exact activate_advances h
  | expire now txid reason =>
      obtain ⟨answer, h⟩ := map_fst_eq_ok.1 h
      exact endLive_advances h (.inr rfl)
  | cancelFromExchange now txid reason =>
      obtain ⟨answer, h⟩ := map_fst_eq_ok.1 h
      exact endLive_advances h (.inl rfl)
  | cancel now account target =>
      obtain rfl := Except.ok.inj h
      exact cancel_advances now account target
  | settlePendingCancels now =>
      obtain rfl := Except.ok.inj h
      exact settlePendingCancels_advances now

theorem run_advances {core' : Core} (ops : List Op) (h : core.run ops = .ok core')
    (sane : core.SaneRun ops) : Advances core core' := by
  induction ops generalizing core with
  | nil =>
      obtain rfl := Except.ok.inj h
      exact .refl core
  | cons op ops ih =>
      obtain ⟨next, step, rest⟩ := bind_eq_ok.1 h
      exact (apply_advances step sane.1).trans (ih rest (sane.2 next step))

theorem SaneRun.append {before after : List Op} (sane : core.SaneRun (before ++ after)) :
    core.SaneRun before ∧ ∀ mid, core.run before = .ok mid → mid.SaneRun after := by
  induction before generalizing core with
  | nil =>
      refine ⟨trivial, fun mid h => ?_⟩
      obtain rfl := Except.ok.inj h
      exact sane
  | cons op before ih =>
      refine ⟨⟨sane.1, fun next step => (ih (sane.2 next step)).1⟩, fun mid h => ?_⟩
      obtain ⟨next, step, rest⟩ := bind_eq_ok.1 h
      exact (ih (sane.2 next step)).2 mid rest

theorem new_sound (seed : UInt64) {fees : FeeSchedule} (fair : fees.Fair) : (new seed fees).Sound where
  pairs := by simp [new]
  feeDefault := fair
  fees := by simp [new]
  defaultPolicy := trivial
  rules := by simp [new]
  orders := by simp [new]
  traded := by simp [new]
  owned := by simp [new]
  ledger := by simp [new]

/-- The books of an exchange: its own check, and what the check is about. -/
structure Balanced (core : Core) : Prop where
  check : (∀ text, core.checkInvariants ≠ .error (.overflow text)) → core.checkInvariants = .ok (.ok ())
  balances : ∀ (name : String) (a : AccountState), core.accounts[name]? = some a → core.Explained name a
  within : ∀ o ∈ core.orders, o.executed ≤ o.volume.atto
  closed : ∀ o ∈ core.orders, (o.status = .closed ↔ o.executed = o.volume.atto)
  live : ∀ o ∈ core.orders, o.status.isLive = true → o.executed < o.volume.atto

theorem Sound.balanced (sound : core.Sound) : core.Balanced where
  check fits := by
    have passes := checkInvariants_passes sound
    cases h : core.checkInvariants with
    | ok verdict =>
        rw [h] at passes
        exact congrArg Except.ok passes
    | error p =>
        rw [h] at passes
        cases p with
        | overflow text => exact (fits text h).elim
        | assertion text => exact passes.elim
  balances := sound.ledger
  within o member := (sound.orders o member).within
  closed o member := (sound.orders o member).closed
  live o member alive := by
    refine lt_of_le_of_ne (sound.orders o member).within fun full => ?_
    rw [(sound.orders o member).closed.2 full] at alive
    cases alive

/-- In every state of a sane run the books balance, and an order that is closed,
    cancelled or expired there is the same order in every later state. -/
theorem run_balanced (seed : UInt64) (fees : FeeSchedule) (fair : fees.Fair) (before after : List Op)
    (sane : (new seed fees).SaneRun (before ++ after)) (mid last : Core)
    (reached : (new seed fees).run before = .ok mid) (goesOn : mid.run after = .ok last) :
    mid.Balanced ∧ ∀ (i : Nat) (o : Order), mid.orders[i]? = some o → o.status.isLive = false →
      last.orders[i]? = some o := by
  obtain ⟨first, second⟩ := SaneRun.append sane
  obtain ⟨sound, -⟩ := run_advances before reached first (new_sound seed fair)
  obtain ⟨-, frozen⟩ := run_advances after goesOn (second mid reached) sound
  exact ⟨sound.balanced, frozen⟩

private def btcusd : PairSpec :=
  ⟨"BTC/USD", 1, 8, ⟨⟨1, Dec.fits_one⟩, 4, Dec.scale_four⟩, ⟨⟨5, Dec.fits_five⟩, 1, Dec.scale_one⟩,
    ⟨⟨1, Dec.fits_one⟩, 1, Dec.scale_one⟩, "online"⟩

private def usual : FeeSchedule := ⟨⟨⟨25, Dec.fits_twentyFive⟩, 4, Dec.scale_four⟩, ⟨⟨4, Dec.fits_four⟩, 3, Dec.scale_three⟩⟩

private def buying : List Op := [
  .addPair btcusd ⟨⟨50000, by decide⟩, 0, Dec.scale_zero⟩,
  .addAccount "a",
  .externalAdjust "a" "USD" ⟨⟨1000, by decide⟩, 0, Dec.scale_zero⟩,
  .place 1 ⟨"a", "BTC/USD", .buy, .market, ⟨⟨1, Dec.fits_one⟩, 2, Dec.scale_two⟩, none, .gtc, false, false⟩]

private def move : List Op := [.setQuote 2 "BTC/USD" ⟨⟨40000, by decide⟩, 0, Dec.scale_zero⟩
  ⟨⟨40001, by decide⟩, 0, Dec.scale_zero⟩ ⟨⟨40000, by decide⟩, 0, Dec.scale_zero⟩]

/-- A market order is filled and closed, and a later quote leaves it alone. -/
theorem bought_stays_bought : ∃ mid last, (new 7 usual).run buying = .ok mid ∧ mid.run move = .ok last ∧
    mid.orders.map Order.status = [.closed] ∧ mid.checkInvariants = .ok (.ok ()) ∧
    ∀ o, mid.orders[0]? = some o → o.status = .closed → last.orders[0]? = some o := by
  have fair : usual.Fair := ⟨⟨by decide, by decide⟩, by decide, by decide⟩
  have sane : (new 7 usual).SaneRun (buying ++ move) := by
    refine ⟨⟨by decide +kernel, by decide, by decide⟩, fun _ _ => ⟨trivial, fun _ _ => ⟨trivial, fun _ _ => ?_⟩⟩⟩
    exact ⟨trivial, fun _ _ => ⟨⟨by decide, by decide⟩, fun _ _ => trivial⟩⟩
  have statuses : ((new 7 usual).run buying).toOption.map (fun mid => mid.orders.map Order.status) =
      some [.closed] := by decide +kernel
  have fits : ((new 7 usual).run buying).toOption.map (fun mid => mid.checkInvariants.isOk) =
      some true := by decide +kernel
  have moves : ((new 7 usual).run buying >>= fun mid => mid.run move).isOk = true := by decide +kernel
  cases reached : (new 7 usual).run buying with
  | error p =>
      rw [reached] at statuses
      cases statuses
  | ok mid =>
      rw [reached] at statuses fits moves
      cases goesOn : mid.run move with
      | error p =>
          change (mid.run move).isOk = true at moves
          rw [goesOn] at moves
          cases moves
      | ok last =>
          obtain ⟨balanced, frozen⟩ :=
            run_balanced 7 usual fair buying move sane mid last reached goesOn
          refine ⟨mid, last, rfl, goesOn, Option.some.inj statuses, balanced.check ?_, ?_⟩
          · intro text stopped
            have checked : mid.checkInvariants.isOk = true := Option.some.inj fits
            rw [stopped] at checked
            cases checked
          · intro o found closed
            exact frozen 0 o found (by rw [closed]; rfl)

end Core

end FakeBroker
