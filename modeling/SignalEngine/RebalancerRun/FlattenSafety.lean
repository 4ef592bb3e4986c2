import SignalEngine.RebalancerRun.Flatten

/-! # Flatten only reduces

The broker's side of a flatten: positions, the orders of this program, fills at
any moment, answers that may fail, readings that are accurate when taken, and a
caller that may crash and call again. An order is safe as long as none of our
orders in its symbol has been live since the reading it is sized from; under
that condition every position only moves toward zero.
-/

open BrokerAdapters Interaction Text

namespace RebalancerRun

open RebalancerCore (Instant Sha256)
open RebalancerCore.DecMath (neg neg_ok)

/-! ## What flatten sends -/

/-- The request trades against a holding of the reading, by no more than is held. -/
structure Closes (snap : BrokerSnapshot) (req : OrderRequest) (h : Holding) : Prop where
  held : h ∈ snap.holdings
  symbol : req.symbol = h.symbol
  sell : req.side = .sell → req.quantity.atto ≤ h.quantity.atto
  buy : req.side = .buy → req.quantity.atto ≤ -h.quantity.atto

def noteReading (last : Option BrokerSnapshot) : (op : BrokerOp) → op.Answer → Option BrokerSnapshot
  | .snapshot _, .ok snap => some snap
  | _, _ => last

/-- Orders may only close what the last reading showed. -/
def closeOnly : Law BrokerOp BrokerOp.Answer (Option BrokerSnapshot) where
  allowed last op := ∀ req, op = .place req → ∃ snap h, last = some snap ∧ Closes snap req h
  next last op answer last' := last' = noteReading last op answer

def Silent {α : Type} (x : FlattenM α) : Prop :=
  ∀ last, Triple closeOnly (fun _ g => g = last) x fun _ _ g => g = last

namespace Silent

variable {α β : Type}

theorem pure (value : α) : Silent (pure value) := fun _ _ _ same => same

theorem bind {x : FlattenM α} {f : α → FlattenM β} (first : Silent x) (second : ∀ a, Silent (f a)) :
    Silent (x >>= f) := fun last => (first last).bind fun a => second a last

theorem modify (f : Flattener → Flattener) : Silent (modify f) := fun _ _ _ same => same

theorem get : Silent get := fun _ _ _ same => same

theorem ask {op : BrokerOp} (unsent : ∀ req, op ≠ .place req)
    (unread : ∀ last answer, noteReading last op answer = last) :
    Silent (ask op : FlattenM op.Answer) := by
  intro last
  apply Triple.ask.weaken
  · rintro _ _ rfl
    exact ⟨fun req sent => absurd sent (unsent req), fun answer g' logged => logged.trans (unread _ answer)⟩
  · intro _ _ _ same
    exact same

theorem forM {γ : Type} {f : γ → FlattenM Unit} {items : List γ} (each : ∀ item ∈ items, Silent (f item)) :
    Silent (items.forM f) :=
  fun last => Triple.forM fun item member => each item member last

theorem getOrder (id : String) : Silent (Broker.getOrder id) := ask (by simp) (fun _ _ => rfl)
theorem sleepSecs (secs : Nat) : Silent (Broker.sleepSecs secs) := ask (by simp) (fun _ _ => rfl)
theorem openOrders : Silent Broker.openOrders := ask (by simp) (fun _ _ => rfl)
theorem findByTag (tag : String) : Silent (Broker.findByTag tag) := ask (by simp) (fun _ _ => rfl)
theorem now : Silent Broker.now := ask (by simp) (fun _ _ => rfl)
theorem cancelAndSettle (id : String) : Silent (Broker.cancelAndSettle id) :=
  ask (by simp) (fun _ _ => rfl)

theorem fail (code : FlattenCode) (message : String) : Silent (fail code message) := modify _

theorem failIf (problem : Bool) (code : FlattenCode) (message : String) :
    Silent (failIf problem code message) := by
  unfold RebalancerRun.failIf
  split
  · exact fail code message
  · exact pure ()

variable (spec : FlattenSpec)

theorem pollOrder (id : String) : ∀ polls, Silent (pollOrder spec id polls) := by
  intro polls
  induction polls with
  | zero => exact pure none
  | succ polls ih =>
      apply bind (getOrder id)
      intro read
      cases read with
      | error e => exact pure _
      | ok r =>
          dsimp only
          split
          · exact pure _
          · split
            · exact ih
            · exact bind (sleepSecs _) fun _ => ih

theorem settle (id : String) : Silent (settle spec id) := by
  apply bind (pollOrder spec id _)
  intro polled
  cases polled with
  | some result => exact pure result
  | none =>
      apply bind (cancelAndSettle id)
      intro canceled
      cases canceled with
      | error e => exact pure _
      | ok ended => exact bind (failIf _ _ _) fun _ => pure _

variable [DebugText]

theorem confirmCancel (id : String) : Silent (confirmCancel spec id) := by
  apply bind (settle spec id)
  intro settled
  cases settled with
  | error e => exact fail _ _
  | ok r =>
      dsimp only
      split
      · exact fail _ _
      · exact modify _

theorem cancelOpenOrder (o : OrderReport) : Silent (cancelOpenOrder spec o) := by
  unfold RebalancerRun.cancelOpenOrder
  split
  · exact modify _
  · apply bind (cancelAndSettle _)
    intro canceled
    split
    · apply bind (modify _)
      intro _
      split
      · exact confirmCancel spec _
      · exact pure ()
    · exact fail _ _
    · split
      · exact fail _ _
      · exact fail _ _

theorem cancelOwnOpenOrders : Silent (cancelOwnOpenOrders spec) := by
  apply bind openOrders
  intro listed
  cases listed with
  | error e => exact bind (fail _ _) fun _ => pure _
  | ok orders => exact bind (forM fun o _ => cancelOpenOrder spec o) fun _ => pure _

theorem settleAndRecord (leg : Leg) (id : String) (adopted : Bool) :
    Silent (settleAndRecord spec leg id adopted) := by
  apply bind (settle spec id)
  intro settled
  cases settled with
  | ok report => exact modify _
  | error e =>
      dsimp only
      split
      · exact bind (fail _ _) fun _ => modify _
      · exact bind (fail _ _) fun _ => modify _

variable [UnicodeCase] [Sha256]

theorem freeTagFrom (symbol : String) (side : Side) :
    ∀ left k, Silent (freeTagFrom spec symbol side k left) := by
  intro left
  induction left with
  | zero =>
      intro k
      exact bind (fail _ _) fun _ => pure _
  | succ left ih =>
      intro k
      unfold RebalancerRun.freeTagFrom
      apply bind (findByTag _)
      intro found
      split
      · exact pure _
      · exact ih (k + 1)
      · exact bind (fail _ _) fun _ => pure _

end Silent

section Sending

variable {spec : FlattenSpec} {snap : BrokerSnapshot}

/-- The piece of program sends only orders that close what `snap` shows. -/
def SendsWithin {α : Type} (snap : BrokerSnapshot) (x : FlattenM α) : Prop :=
  Triple closeOnly (fun _ g => g = some snap) x fun _ _ g => g = some snap

theorem sendLeg_within [DebugText] {leg : Leg} {req : OrderRequest} {h : Holding}
    {missing : String → FlattenM Unit} (closes : Closes snap req h)
    (after : ∀ reason, SendsWithin snap (missing reason)) :
    SendsWithin snap (sendLeg spec leg req missing) := by
  have placed : Triple closeOnly (fun (_ : Flattener) g => g = some snap) (Broker.place req)
      fun _ _ g => g = some snap := by
    apply Triple.ask.weaken
    · rintro _ _ rfl
      refine ⟨fun req' same => ?_, fun _ g' logged => logged⟩
      cases same
      exact ⟨snap, h, rfl, closes⟩
    · intro _ _ _ same
      exact same
  apply placed.bind
  intro answer
  split
  · exact Silent.settleAndRecord spec leg _ _ _
  · exact Silent.bind (Silent.fail _ _) (fun _ => Silent.modify _) _
  · exact Silent.bind (Silent.fail _ _) (fun _ => Silent.modify _) _
  · apply (Silent.findByTag leg.tag _).bind
    intro found
    split
    · exact Silent.settleAndRecord spec leg _ _ _
    · exact after _
    · exact Silent.bind (Silent.fail _ _) (fun _ => Silent.modify _) _
  · exact Silent.bind (Silent.fail _ _) (fun _ => Silent.modify _) _

/-- A leg as `placeLeg` sends it, whatever tag and price it carries. -/
theorem closes_market {h : Holding} {side : Side} {qty : Dec} (held : h ∈ snap.holdings)
    (sell : side = .sell → qty.atto ≤ h.quantity.atto)
    (buy : side = .buy → qty.atto ≤ -h.quantity.atto) (tag : String) (price : Option Dec) :
    Closes snap { OrderRequest.market tag h.symbol side qty with referencePrice := price } h :=
  ⟨held, rfl, sell, buy⟩

theorem coverSize_le [UnicodeCase] {venue symbol : String} {allowance price q : Dec}
    (sized : coverSize spec venue symbol allowance price = some q) : q ≤ allowance := by
  unfold coverSize at sized
  split at sized
  · cases sized
  · split at sized
    · split at sized
      next fits =>
          cases sized
          exact fits
      next => cases sized
    · cases sized

variable [UnicodeCase] [Sha256] [DebugText]

theorem placeLeg_within {h : Holding} {side : Side} {qty price : Dec} (held : h ∈ snap.holdings)
    (sell : side = .sell → qty.atto ≤ h.quantity.atto)
    (buy : side = .buy → qty.atto ≤ -h.quantity.atto) :
    SendsWithin snap (placeLeg spec h.symbol side qty price) := by
  apply (Silent.freeTagFrom spec h.symbol side spec.maxTagIndex 1 _).bind
  intro free
  cases free with
  | none => exact Silent.pure () _
  | some tag =>
      have closes := closes_market held sell buy tag (some price)
      apply sendLeg_within closes
      intro _
      apply sendLeg_within closes
      intro reason
      exact Silent.bind (Silent.fail _ _) (fun _ => Silent.modify _) _

theorem cover_within {venue : String} {h : Holding} {qty price : Dec} (held : h ∈ snap.holdings)
    (short : qty.atto ≤ -h.quantity.atto) : SendsWithin snap (cover spec venue h.symbol qty price) := by
  apply (Silent.modify _ _).bind
  intro _
  apply (Silent.get _).bind
  intro f
  dsimp only
  split
  · exact Silent.fail _ _ _
  · split
    next below =>
        split
        next q sized =>
            apply placeLeg_within held (by simp)
            intro _
            have fits := Dec.le_iff.1 (coverSize_le sized)
            have less := Dec.lt_iff.1 below
            omega
        next => exact Silent.fail _ _ _
    next => exact placeLeg_within held (by simp) fun _ => short

theorem sell_within {h : Holding} {qty price : Dec} (held : h ∈ snap.holdings)
    (long : qty.atto ≤ h.quantity.atto) : SendsWithin snap (sell spec h.symbol qty price) :=
  placeLeg_within held (fun _ => long) (by simp)

end Sending

/-! ## What a reading says to trade -/

/-- Every close of the plan is of a holding of the reading, within what is held. -/
structure PlanWithin (snap : BrokerSnapshot) (plan : SellPlan) : Prop where
  covers : ∀ c ∈ plan.covers, ∃ h ∈ snap.holdings, c.symbol = h.symbol ∧
    c.quantity.atto ≤ -h.quantity.atto
  sells : ∀ c ∈ plan.sells, ∃ h ∈ snap.holdings, c.symbol = h.symbol ∧
    c.quantity.atto ≤ h.quantity.atto

namespace PlanWithin

variable {snap : BrokerSnapshot} {plan : SellPlan} {h : Holding} {side : Side} {held : Dec}

theorem closing_held (sided : closing h = some (side, held)) :
    (side = .sell → held.atto = h.quantity.atto) ∧ (side = .buy → held.atto = -h.quantity.atto) := by
  unfold closing at sided
  split at sided
  · split at sided
    next magnitude negated =>
        cases sided
        exact ⟨by simp, fun _ => neg_ok negated⟩
    next => cases sided
  · cases sided
    exact ⟨fun _ => rfl, by simp⟩

theorem addSized (within : PlanWithin snap plan) (member : h ∈ snap.holdings)
    (sided : closing h = some (side, held)) (sym : String) (q price : Dec) :
    PlanWithin snap (plan.addSized sym h side held q price) := by
  unfold SellPlan.addSized
  split
  · exact ⟨within.covers, within.sells⟩
  next fits =>
      have below : q.atto ≤ held.atto := by
        rw [Dec.lt_iff] at fits
        omega
      have noted : PlanWithin snap (if q < held then
          plan.addDust sym (restOf side held q) "below the venue's lot precision after rounding down"
          else plan) := by
        split
        · exact ⟨within.covers, within.sells⟩
        · exact within
      obtain ⟨long, short⟩ := closing_held sided
      cases side with
      | buy =>
          refine ⟨fun c among => ?_, noted.sells⟩
          simp only [SellPlan.addClose, List.mem_append, List.mem_singleton] at among
          obtain before | rfl := among
          · exact noted.covers c before
          · exact ⟨h, member, rfl, by rw [← short rfl]; exact below⟩
      | sell =>
          refine ⟨noted.covers, fun c among => ?_⟩
          simp only [SellPlan.addClose, List.mem_append, List.mem_singleton] at among
          obtain before | rfl := among
          · exact noted.sells c before
          · exact ⟨h, member, rfl, by rw [← long rfl]; exact below⟩

theorem addHolding [UnicodeCase] (within : PlanWithin snap plan) (member : h ∈ snap.holdings)
    (spec : FlattenSpec) (venue : String) : PlanWithin snap (plan.addHolding spec venue h) := by
  have kept : ∀ {plan'}, plan'.covers = plan.covers → plan'.sells = plan.sells →
      PlanWithin snap plan' := by
    intro plan' covers sells
    exact ⟨covers ▸ within.covers, sells ▸ within.sells⟩
  unfold SellPlan.addHolding
  dsimp only
  split
  · exact within
  split
  · exact kept rfl rfl
  split
  · exact kept rfl rfl
  next side held sided =>
      split
      · split
        · exact within.addSized member sided _ _ _
        · exact kept rfl rfl
        · exact kept rfl rfl
        · exact kept rfl rfl
        · exact kept rfl rfl
      · exact kept rfl rfl

theorem planSells [UnicodeCase] (spec : FlattenSpec) (venue : String) (snap : BrokerSnapshot) :
    PlanWithin snap (planSells spec venue snap) := by
  unfold RebalancerRun.planSells
  apply List.foldlRecOn (motive := PlanWithin snap)
  · exact ⟨by simp [SellPlan.empty], by simp [SellPlan.empty]⟩
  · intro plan within h member
    exact within.addHolding ((List.mem_insertionSort _).1 member) spec venue

end PlanWithin

section Whole

/-- The piece of program keeps the law, whatever was read before. -/
def SendsLawfully {α : Type} (x : FlattenM α) : Prop :=
  Triple closeOnly (fun _ _ => True) x fun _ _ _ => True

variable {α β : Type}

theorem Silent.lawfully {x : FlattenM α} (silent : Silent x) : SendsLawfully x := by
  intro s last _
  exact (silent last s last rfl).mono fun _ _ _ => trivial

theorem SendsLawfully.bind {x : FlattenM α} {f : α → FlattenM β} (first : SendsLawfully x)
    (second : ∀ a, SendsLawfully (f a)) : SendsLawfully (x >>= f) :=
  Triple.bind first second

theorem snapshot_noted (now : Instant) {f : Except SnapshotError BrokerSnapshot → FlattenM β}
    (failed : ∀ e, SendsLawfully (f (.error e)))
    (read : ∀ snap, Triple closeOnly (fun _ g => g = some snap) (f (.ok snap)) fun _ _ _ => True) :
    SendsLawfully (Broker.snapshot now >>= f) := by
  intro s g _
  constructor
  · intro req sent
    cases sent
  · intro answer g' logged
    cases answer with
    | error e => exact failed e s g' trivial
    | ok snap => exact read snap s g' logged

variable [UnicodeCase] [Sha256] [DebugText] (spec : FlattenSpec) (venue : String)

theorem trade_within {snap : BrokerSnapshot} {plan : SellPlan} (within : PlanWithin snap plan) :
    SendsWithin snap (trade spec venue plan) := by
  have covers : SendsWithin snap
      (plan.covers.forM fun c => cover spec venue c.symbol c.quantity c.price) := by
    apply Triple.forM
    intro c member
    obtain ⟨h, held, symbol, short⟩ := within.covers c member
    rw [symbol]
    exact cover_within held short
  apply covers.bind
  intro _
  apply Triple.forM
  intro c member
  obtain ⟨h, held, symbol, long⟩ := within.sells c member
  rw [symbol]
  exact sell_within held long

theorem runRounds_lawful : ∀ left at_, SendsLawfully (runRounds spec venue at_ left) := by
  intro left
  induction left with
  | zero =>
      intro at_
      exact (Silent.pure at_).lawfully
  | succ left ih =>
      intro at_
      apply (Silent.cancelOwnOpenOrders spec).lawfully.bind
      intro listed
      split
      · exact (Silent.pure _).lawfully
      · apply Silent.now.lawfully.bind
        intro now
        apply snapshot_noted now
        · intro e
          exact (Silent.bind (Silent.fail _ _) fun _ => Silent.pure _).lawfully
        · intro snap
          dsimp only
          split
          · exact (Silent.pure _ (some snap)).weaken (fun _ _ same => same) fun _ _ _ _ => trivial
          · apply (trade_within spec venue (PlanWithin.planSells spec venue snap)).bind
            intro _
            exact (ih _).weaken (fun _ _ _ => trivial) fun _ _ _ same => same

omit [Sha256] [DebugText] in
theorem verifyWith_silent (snap : BrokerSnapshot) : Silent (verifyWith spec venue snap) := by
  apply Silent.bind (Silent.modify _)
  intro _
  apply Silent.bind (Silent.failIf _ _ _)
  intro _
  apply Silent.bind (Silent.failIf _ _ _)
  intro _
  exact Silent.bind Silent.get fun _ => Silent.pure _

omit [Sha256] in
theorem verify_lawful (at_ : Rounds) : SendsLawfully (verify spec venue at_) := by
  apply Silent.now.lawfully.bind
  intro now
  apply snapshot_noted now
  · intro e
    exact (Silent.bind (Silent.fail _ _) fun _ => Silent.pure _).lawfully
  · intro snap
    exact (verifyWith_silent spec venue snap (some snap)).weaken (fun _ _ same => same)
      fun _ _ _ _ => trivial

/-- Whatever the broker answers, flatten sends only orders that close what its
    last reading showed. -/
theorem flatten_closes_only (last : Option BrokerSnapshot) :
    (flatten spec venue).Obeys closeOnly last fun _ _ => True := by
  have whole : SendsLawfully (flattenCall spec venue) := by
    apply Silent.now.lawfully.bind
    intro startedAt
    apply (runRounds_lawful spec venue _ _).bind
    intro done
    apply (verify_lawful spec venue done).bind
    intro checked
    apply Silent.now.lawfully.bind
    intro finishedAt
    exact (Silent.bind Silent.get fun _ => Silent.pure _).lawfully
  apply Prog.Obeys.bind
  exact (whole Flattener.new last trivial).mono fun _ _ _ => trivial

end Whole

end RebalancerRun
