import SignalEngine.RebalancerRun.FlattenSafety
import SignalEngine.RebalancerRun.View

/-! # What a flat verdict says

Flatten ends with one more reading of the account. When it calls the account flat,
the holdings of that reading are gone or too small to trade and none of our orders
is listed as open. A position that the reading lists without a price is not looked
at, and an order that the reading does not list is taken to be gone.
-/

open BrokerAdapters Interaction Text

namespace RebalancerRun

open RebalancerCore (Instant Sha256 SizeRefusal)

/-! ## The last look -/

def SizeRefusal.isTooSmall : SizeRefusal → Bool
  | .roundsToZero | .belowMinQuantity _ | .belowMinCost _ => true
  | _ => false

/-! ### Plans only grow -/

structure Extends (plan plan' : SellPlan) : Prop where
  dust : plan.dust ≠ [] → plan'.dust ≠ []
  covers : plan.covers ≠ [] → plan'.covers ≠ []
  sells : plan.sells ≠ [] → plan'.sells ≠ []
  blockers : plan.blockers ≠ [] → plan'.blockers ≠ []

theorem Extends.refl (plan : SellPlan) : Extends plan plan := ⟨id, id, id, id⟩

theorem extends_block (plan : SellPlan) (message : String) :
    Extends plan (plan.block message) ∧ (plan.block message).blockers ≠ [] := by
  refine ⟨⟨id, id, id, fun _ => ?_⟩, ?_⟩
  · simp [SellPlan.block]
  · simp [SellPlan.block]

theorem extends_addDust (plan : SellPlan) (symbol : String) (quantity : Dec) (reason : String) :
    Extends plan (plan.addDust symbol quantity reason) ∧ (plan.addDust symbol quantity reason).dust ≠ [] := by
  refine ⟨⟨fun _ => ?_, id, id, id⟩, ?_⟩
  · simp [SellPlan.addDust]
  · simp [SellPlan.addDust]

theorem extends_addSized (plan : SellPlan) (sym : String) (h : Holding) (side : Side) (held q price : Dec) :
    Extends plan (plan.addSized sym h side held q price) ∧
      ((plan.addSized sym h side held q price).covers ≠ [] ∨ (plan.addSized sym h side held q price).sells ≠ [] ∨
        (plan.addSized sym h side held q price).blockers ≠ []) := by
  unfold SellPlan.addSized
  split
  · obtain ⟨more, blocked⟩ := extends_block plan
      s!"{sym}: venue rounding produced {q.display}, more than the {held.display} held"
    exact ⟨more, .inr (.inr blocked)⟩
  · have noted : Extends plan (if q < held then
        plan.addDust sym (restOf side held q) "below the venue's lot precision after rounding down" else plan) := by
      split
      · exact (extends_addDust plan _ _ _).1
      · exact .refl plan
    cases side with
    | buy =>
        refine ⟨⟨noted.dust, fun _ => ?_, noted.sells, noted.blockers⟩, .inl ?_⟩
        · simp [SellPlan.addClose]
        · simp [SellPlan.addClose]
    | sell =>
        refine ⟨⟨noted.dust, noted.covers, fun _ => ?_, noted.blockers⟩, .inr (.inl ?_)⟩
        · simp [SellPlan.addClose]
        · simp [SellPlan.addClose]

section Plan

variable [UnicodeCase] {spec : FlattenSpec} {venue : String}

/-- The venue's rules refuse an order that closes the holding as too small. -/
def TooSmall (spec : FlattenSpec) (venue : String) (h : Holding) : Prop :=
  ∃ side held rules price refusal, closing h = some (side, held) ∧
    spec.venueRules.get venue = some rules ∧ priceOf h = some price ∧
    rules.roundQuantity h.symbol side held price = .error refusal ∧ SizeRefusal.isTooSmall refusal = true

/-- What a plan knows of a holding of the universe: it is gone, it is dust, it is
    to be closed, or it cannot be closed. -/
def Accounts (spec : FlattenSpec) (venue : String) (plan : SellPlan) (h : Holding) : Prop :=
  spec.universe.contains (toUppercase h.symbol) = true →
    h.quantity.isZero = true ∨ (TooSmall spec venue h ∧ plan.dust ≠ []) ∨
      plan.covers ≠ [] ∨ plan.sells ≠ [] ∨ plan.blockers ≠ []

theorem Accounts.extend {plan plan' : SellPlan} {h : Holding} (known : Accounts spec venue plan h)
    (more : Extends plan plan') : Accounts spec venue plan' h := by
  intro managed
  rcases known managed with gone | ⟨small, dust⟩ | covers | sells | blockers
  · exact .inl gone
  · exact .inr (.inl ⟨small, more.dust dust⟩)
  · exact .inr (.inr (.inl (more.covers covers)))
  · exact .inr (.inr (.inr (.inl (more.sells sells))))
  · exact .inr (.inr (.inr (.inr (more.blockers blockers))))

theorem addHolding_accounts (spec : FlattenSpec) (venue : String) (plan : SellPlan) (h : Holding) :
    Extends plan (plan.addHolding spec venue h) ∧ Accounts spec venue (plan.addHolding spec venue h) h := by
  unfold SellPlan.addHolding
  dsimp only
  split
  next gone => exact ⟨.refl plan, fun _ => .inl gone⟩
  split
  next outside =>
    refine ⟨⟨id, id, id, id⟩, fun managed => ?_⟩
    rw [managed] at outside
    cases outside
  split
  · obtain ⟨more, blocked⟩ := extends_block plan s!"{toUppercase h.symbol}: the short of {h.quantity.display} cannot be sized"
    exact ⟨more, fun _ => .inr (.inr (.inr (.inr blocked)))⟩
  next side held sided =>
    -- a refusal as too small is the only way to dust
    have dust (rules price refusal) (found : spec.venueRules.get venue = some rules) (priced : priceOf h = some price)
        (refused : rules.roundQuantity h.symbol side held price = .error refusal)
        (small : SizeRefusal.isTooSmall refusal = true) (reason : String) :
        Extends plan (plan.addDust (toUppercase h.symbol) h.quantity reason) ∧
          Accounts spec venue (plan.addDust (toUppercase h.symbol) h.quantity reason) h := by
      obtain ⟨more, noted⟩ := extends_addDust plan (toUppercase h.symbol) h.quantity reason
      exact ⟨more, fun _ => .inr (.inl ⟨⟨side, held, rules, price, refusal, sided, found, priced, refused, small⟩, noted⟩)⟩
    split
    next rules price found priced =>
      split
      next q sized =>
        obtain ⟨more, planned⟩ := extends_addSized plan (toUppercase h.symbol) h side held q price
        exact ⟨more, fun _ => .inr (.inr planned)⟩
      next refused => exact dust rules price _ found priced refused rfl _
      next refused => exact dust rules price _ found priced refused rfl _
      next refused => exact dust rules price _ found priced refused rfl _
      next refusal _ _ _ _ =>
        obtain ⟨more, blocked⟩ := extends_block plan s!"{toUppercase h.symbol}: {refusal.display}"
        exact ⟨more, fun _ => .inr (.inr (.inr (.inr blocked)))⟩
    · obtain ⟨more, blocked⟩ := extends_block plan _
      exact ⟨more, fun _ => .inr (.inr (.inr (.inr blocked)))⟩

theorem foldl_accounts {holdings : List Holding} : ∀ plan : SellPlan,
    Extends plan (holdings.foldl (SellPlan.addHolding spec venue) plan) ∧
      ∀ h ∈ holdings, Accounts spec venue (holdings.foldl (SellPlan.addHolding spec venue) plan) h := by
  induction holdings with
  | nil =>
      intro plan
      exact ⟨.refl plan, by simp⟩
  | cons h holdings ih =>
      intro plan
      obtain ⟨first, here⟩ := addHolding_accounts spec venue plan h
      obtain ⟨rest, later⟩ := ih (plan.addHolding spec venue h)
      refine ⟨⟨rest.dust ∘ first.dust, rest.covers ∘ first.covers, rest.sells ∘ first.sells,
        rest.blockers ∘ first.blockers⟩, ?_⟩
      intro h' member
      rcases List.mem_cons.1 member with rfl | inRest
      · exact here.extend rest
      · exact later h' inRest

theorem planSells_accounts (snap : BrokerSnapshot) :
    ∀ h ∈ snap.holdings, Accounts spec venue (planSells spec venue snap) h := by
  intro h member
  exact (foldl_accounts _).2 h ((List.mem_insertionSort _).2 member)

end Plan

/-! ## The verification -/

theorem mem_addBlockers {b : FlattenFailure} {blockers : List FlattenFailure} : ∀ {failures : List FlattenFailure},
    (b ∈ failures ∨ b ∈ blockers) → b ∈ addBlockers blockers failures := by
  induction blockers with
  | nil =>
      rintro failures (known | new)
      · exact known
      · cases new
  | cons b' blockers ih =>
      intro failures among
      refine ih ?_
      dsimp only
      rcases among with known | new
      · left
        split
        · exact known
        · exact List.mem_append_left _ known
      · rcases List.mem_cons.1 new with rfl | later
        · left
          split
          next already => simpa using already
          next => simp
        · exact .inr later

def SizeBlocked (plan : SellPlan) : Prop := ∀ b ∈ plan.blockers, b.code = .cannotSize

theorem SizeBlocked.block {plan : SellPlan} (sized : SizeBlocked plan) (message : String) :
    SizeBlocked (plan.block message) := by
  intro b member
  rcases List.mem_append.1 member with before | new
  · exact sized b before
  · rw [List.mem_singleton.1 new]

theorem SizeBlocked.addSized {plan : SellPlan} (sized : SizeBlocked plan) (sym : String) (h : Holding)
    (side : Side) (held q price : Dec) : SizeBlocked (plan.addSized sym h side held q price) := by
  unfold SellPlan.addSized
  split
  · exact sized.block _
  · have noted : SizeBlocked (if q < held then
        plan.addDust sym (restOf side held q) "below the venue's lot precision after rounding down" else plan) := by
      split
      · exact sized
      · exact sized
    cases side with
    | buy => exact noted
    | sell => exact noted

theorem SizeBlocked.planSells [UnicodeCase] (spec : FlattenSpec) (venue : String) (snap : BrokerSnapshot) :
    SizeBlocked (planSells spec venue snap) := by
  unfold RebalancerRun.planSells
  apply List.foldlRecOn (motive := SizeBlocked)
  · simp [SizeBlocked, SellPlan.empty]
  · intro plan sized h _
    unfold SellPlan.addHolding
    dsimp only
    split
    · exact sized
    split
    · exact sized
    split
    · exact sized.block _
    split
    · split
      · exact sized.addSized _ _ _ _ _ _
      · exact sized
      · exact sized
      · exact sized
      · exact sized.block _
    · exact sized.block _

def lookFailures [UnicodeCase] (spec : FlattenSpec) (venue : String) (snap : BrokerSnapshot)
    (failures : List FlattenFailure) : List FlattenFailure :=
  let plan := planSells spec venue snap
  let list := ", ".intercalate (plan.residual.map fun r => s!"{r.quantity.display} {r.symbol}")
  addBlockers plan.blockers failures ++
    (if !plan.residual.isEmpty then [⟨.notFlat, s!"still holding: {list}"⟩] else []) ++
    if snap.openOrders.any fun o => isOwnOrder o spec.knownOrderIds then
      [⟨.openOrdersRemain, "one of our orders is still open after the flatten"⟩]
    else []

theorem verifyWith_eq [UnicodeCase] (spec : FlattenSpec) (venue : String) (snap : BrokerSnapshot) (f : Flattener) :
    ∃ f', verifyWith spec venue snap f =
      .done (⟨(planSells spec venue snap).dust, (planSells spec venue snap).unmanaged,
        (planSells spec venue snap).residual, (planSells spec venue snap).residual.isEmpty &&
          !f'.failures.any fun x => x.code == .shortHeld || x.code == .cannotSize⟩, f') ∧
      f'.failures = lookFailures spec venue snap f.failures := by
  simp only [verifyWith, failIf, lookFailures]
  by_cases left : (!(planSells spec venue snap).residual.isEmpty) = true
  · by_cases isOpen : (snap.openOrders.any fun o => isOwnOrder o spec.knownOrderIds) = true
    · simp only [left, isOpen, if_true]
      exact ⟨_, rfl, rfl⟩
    · simp only [left, isOpen, if_true]
      exact ⟨_, rfl, by simp⟩
  · by_cases isOpen : (snap.openOrders.any fun o => isOwnOrder o spec.knownOrderIds) = true
    · simp only [left, isOpen, if_true]
      exact ⟨_, rfl, by simp⟩
    · simp only [left, isOpen]
      exact ⟨_, rfl, by simp⟩

/-- What the last look shows when the account is called flat. -/
structure LooksFlat [UnicodeCase] (spec : FlattenSpec) (venue : String) (snap : BrokerSnapshot)
    (verdict : FlattenVerdict) : Prop where
  holdings : ∀ h ∈ snap.holdings, spec.universe.contains (toUppercase h.symbol) = true →
    h.quantity.isZero = true ∨ TooSmall spec venue h
  openOrders : ∀ o ∈ snap.openOrders, isOwnOrder o spec.knownOrderIds = false
  nothing : verdict = .flat → ∀ h ∈ snap.holdings, spec.universe.contains (toUppercase h.symbol) = true →
    h.quantity.isZero = true

theorem looksFlat_of_verdict [UnicodeCase] {spec : FlattenSpec} {venue : String} {snap : BrokerSnapshot}
    {failures before : List FlattenFailure} (looked : failures = lookFailures spec venue snap before)
    (flat : verdictOf ((planSells spec venue snap).residual.isEmpty &&
      !failures.any fun x => x.code == .shortHeld || x.code == .cannotSize) failures
      (planSells spec venue snap).dust ≠ .haltAndAlert) :
    LooksFlat spec venue snap (verdictOf ((planSells spec venue snap).residual.isEmpty &&
      !failures.any fun x => x.code == .shortHeld || x.code == .cannotSize) failures
      (planSells spec venue snap).dust) := by
  unfold verdictOf at flat
  split at flat
  · exact absurd rfl flat
  next calm =>
    simp only [Bool.or_eq_true, Bool.not_eq_true', Bool.and_eq_false_iff, not_or, Bool.not_eq_false',
      Bool.not_eq_false, Bool.not_eq_true] at calm
    obtain ⟨⟨none, sized⟩, unblocked⟩ := calm
    have noCovers : (planSells spec venue snap).covers = [] := by
      simpa [SellPlan.residual] using (List.append_eq_nil_iff.1 (List.isEmpty_iff.1 none)).1
    have noSells : (planSells spec venue snap).sells = [] := by
      simpa [SellPlan.residual] using (List.append_eq_nil_iff.1 (List.isEmpty_iff.1 none)).2
    have noBlockers : (planSells spec venue snap).blockers = [] := by
      cases blockers : (planSells spec venue snap).blockers with
      | nil => rfl
      | cons b rest =>
          have among : b ∈ (planSells spec venue snap).blockers := by simp [blockers]
          have code := SizeBlocked.planSells spec venue snap b among
          have listed : b ∈ failures := by
            rw [looked]
            exact List.mem_append_left _ (List.mem_append_left _ (mem_addBlockers (.inr among)))
          have clear := List.any_eq_false.1 sized b listed
          simp [code] at clear
    have known (h : Holding) (member : h ∈ snap.holdings)
        (managed : spec.universe.contains (toUppercase h.symbol) = true) :
        h.quantity.isZero = true ∨ (TooSmall spec venue h ∧ (planSells spec venue snap).dust ≠ []) := by
      rcases planSells_accounts snap h member managed with gone | small | covers | sells | blockers
      · exact .inl gone
      · exact .inr small
      · exact absurd noCovers covers
      · exact absurd noSells sells
      · exact absurd noBlockers blockers
    refine ⟨fun h member managed => (known h member managed).imp_right And.left, ?_, ?_⟩
    · intro o member
      by_contra own
      have anyOwn : (snap.openOrders.any fun o => isOwnOrder o spec.knownOrderIds) = true :=
        List.any_eq_true.2 ⟨o, member, by simpa using own⟩
      have listed : (⟨.openOrdersRemain, "one of our orders is still open after the flatten"⟩ : FlattenFailure) ∈
          failures := by
        rw [looked]
        apply List.mem_append_right
        rw [if_pos anyOwn]
        exact List.mem_singleton_self _
      exact List.any_eq_false.1 unblocked _ listed rfl
    · intro isFlat h member managed
      rcases known h member managed with gone | ⟨-, dust⟩
      · exact gone
      · unfold verdictOf at isFlat
        split at isFlat
        · cases isFlat
        · split at isFlat
          next empty => exact absurd (List.isEmpty_iff.1 empty) dust
          next => cases isFlat

/-! ## Runs of one call -/

structure CallOrder where
  tag : String
  live : Bool
  deriving DecidableEq

structure CallWorld where
  orders : List CallOrder
  /-- Whether a request whose outcome stays unknown reaches the broker. -/
  reached : Bool
  /-- The last reading the broker gave. -/
  reading : Option BrokerSnapshot

inductive CallMove where
  /-- An order ends. -/
  | finish (index : Nat)
  | connect (reached : Bool)

namespace CallWorld

def start : CallWorld := ⟨[], true, none⟩

def move (w : CallWorld) : CallMove → Option CallWorld
  | .finish index => w.orders[index]?.map fun o => { w with orders := w.orders.set index { o with live := false } }
  | .connect reached => some { w with reached }

def send (w : CallWorld) (req : OrderRequest) : CallWorld := { w with orders := w.orders ++ [⟨req.tag, true⟩] }

/-- Any answer can be given; only readings and orders leave a trace. -/
def reply (w : CallWorld) : (op : BrokerOp) → op.Answer → Option CallWorld
  | .snapshot _, .ok snap => some { w with reading := some snap }
  | .place req, .ok (.accepted _ _ _ _) => some (w.send req)
  | .place req, .ok (.unknownOutcome _ _) => if w.reached then some (w.send req) else some w
  | _, _ => some w

end CallWorld

/-- One call of flatten against a broker that answers anything. -/
def callMachine : Machine BrokerOp BrokerOp.Answer CallWorld CallMove Empty FlattenReport where
  reply := CallWorld.reply
  move := CallWorld.move
  start s := s.elim

/-- Every call may be made; the log is the last reading. -/
def anyCall : Law BrokerOp BrokerOp.Answer (Option BrokerSnapshot) where
  allowed _ _ := True
  next last op answer last' := last' = noteReading last op answer

section Call

variable [UnicodeCase] [Sha256] [DebugText] {spec : FlattenSpec} {venue : String}

omit [UnicodeCase] [Sha256] [DebugText] in
theorem anything {α : Type} (x : FlattenM α) : Triple anyCall (fun _ _ => True) x fun _ _ _ => True :=
  fun s g _ => Prog.obeys_of_allowed (fun _ _ => trivial) (x s) g

omit [Sha256] in
theorem verify_looksFlat (spec : FlattenSpec) (venue : String) (at_ : Rounds) :
    Triple anyCall (fun _ _ => True) (verify spec venue at_) fun v f g =>
      verdictOf v.verifiedFlat f.failures v.dust ≠ .haltAndAlert →
        ∃ snap, g = some snap ∧ LooksFlat spec venue snap (verdictOf v.verifiedFlat f.failures v.dust) := by
  apply (anything Broker.now).bind
  intro now f g _
  refine ⟨trivial, ?_⟩
  intro answer g' logged
  cases answer with
  | error e => exact fun flat => absurd rfl flat
  | ok snap =>
      obtain ⟨f', looked, failures⟩ := verifyWith_eq spec venue snap f
      change Prog.Obeys anyCall (verifyWith spec venue snap f) g' _
      rw [looked]
      exact fun flat => ⟨snap, logged, looksFlat_of_verdict failures flat⟩

theorem flatten_looksFlat (spec : FlattenSpec) (venue : String) (last : Option BrokerSnapshot) :
    (flatten spec venue).Obeys anyCall last fun report g => report.verdict ≠ .haltAndAlert →
      ∃ snap, g = some snap ∧ LooksFlat spec venue snap report.verdict := by
  have whole : Triple anyCall (fun _ _ => True) (flattenCall spec venue) fun report _ g =>
      report.verdict ≠ .haltAndAlert → ∃ snap, g = some snap ∧ LooksFlat spec venue snap report.verdict := by
    apply (anything _).bind
    intro startedAt
    apply (anything _).bind
    intro done
    apply (verify_looksFlat spec venue done).bind
    intro checked f g looked
    -- the clock does not change the log
    refine ⟨trivial, ?_⟩
    rintro finishedAt g' rfl
    exact looked
  apply Prog.Obeys.bind
  exact (whole Flattener.new last trivial).mono fun _ _ looked => looked

omit [UnicodeCase] [Sha256] [DebugText] in
theorem reply_reading {w w' : CallWorld} {op : BrokerOp} {answer : op.Answer}
    (replied : w.reply op answer = some w') : w'.reading = noteReading w.reading op answer := by
  unfold CallWorld.reply at replied
  split at replied
  · cases replied
    rfl
  · cases replied
    rfl
  · split at replied
    · cases replied
      rfl
    · cases replied
      rfl
  next unread _ _ =>
    cases replied
    unfold noteReading
    split
    · exact (unread _ _ rfl HEq.rfl).elim
    · rfl

omit [UnicodeCase] [Sha256] [DebugText] in
theorem move_reading {w w' : CallWorld} {e : CallMove} (moved : w.move e = some w') : w'.reading = w.reading := by
  cases e with
  | finish index =>
      obtain ⟨o, -, rfl⟩ := Option.map_eq_some_iff.1 moved
      rfl
  | connect reached =>
      cases moved
      rfl

/-- The account is flat: nothing of the universe is left but what is too small to
    trade, and no order of ours is open. A position without a price has no size
    that the rules could refuse. -/
structure FlatAccount (spec : FlattenSpec) (venue : String) (snap : BrokerSnapshot) (orders : List CallOrder)
    (verdict : FlattenVerdict) : Prop extends LooksFlat spec venue snap verdict where
  unvalued : ∀ u ∈ snap.unvalued, spec.universe.contains (toUppercase (snap.instrumentOf u)) = true →
    u.quantity.isZero = true
  ended : ∀ o ∈ orders, o.live = false

/-- Whenever a call ends with a flat verdict, whatever the broker answered, the
    account is flat exactly when the last reading lists nothing of the universe
    without a price and lists every order of the call that is still live. -/
theorem flat_verdict_iff {events : List (Event BrokerOp BrokerOp.Answer CallMove Empty)}
    {final : Config BrokerOp BrokerOp.Answer CallWorld FlattenReport} {report : FlattenReport}
    (ran : callMachine.run ⟨flatten spec venue, CallWorld.start⟩ events = some final)
    (returned : final.prog = .done report) (flat : report.verdict ≠ .haltAndAlert) :
    ∃ snap, final.world.reading = some snap ∧
      (FlatAccount spec venue snap final.world.orders report.verdict ↔
        (∀ u ∈ snap.unvalued, spec.universe.contains (toUppercase (snap.instrumentOf u)) = true →
          u.quantity.isZero = true) ∧
        ∀ o ∈ final.world.orders, o.live = true →
          ∃ r ∈ snap.openOrders, isOwnOrder r spec.knownOrderIds = true ∧ r.tag = some o.tag) := by
  have start : Machine.Ends anyCall (fun g w => g = w.reading)
      (fun report g => report.verdict ≠ .haltAndAlert →
        ∃ snap, g = some snap ∧ LooksFlat spec venue snap report.verdict)
      (⟨flatten spec venue, CallWorld.start⟩ : Config BrokerOp BrokerOp.Answer CallWorld FlattenReport) :=
    ⟨none, flatten_looksFlat spec venue none, rfl⟩
  obtain ⟨g, ended, rfl⟩ := Machine.Ends.run (C := fun _ _ => True)
    (fun same _ moved => same.trans (move_reading moved).symm)
    (fun same _ _ replied => ⟨_, rfl, by rw [same]; exact (reply_reading replied).symm⟩)
    start (Machine.guarded_true _ _) ran
  rw [returned] at ended
  obtain ⟨snap, reading, looks⟩ := ended flat
  refine ⟨snap, reading, ?_⟩
  constructor
  · intro account
    refine ⟨account.unvalued, fun o member live => ?_⟩
    rw [account.ended o member] at live
    cases live
  · rintro ⟨unvalued, listed⟩
    refine ⟨looks, unvalued, fun o member => ?_⟩
    by_contra live
    obtain ⟨r, isOpen, own, -⟩ := listed o member (by simpa using live)
    rw [looks.openOrders r isOpen] at own
    cases own

end Call

/-! ## A position without a price -/

namespace NoPrice

open RebalancerCore (VenueRules InstrumentRules)
open RebalancerCore.Amount (cents)

@[reducible] private def anyHash : Sha256 := ⟨fun _ => "77aa54727158c6611a38c8ed70cbde3db33ab54ace8071a0da848a6a6ab952e4"⟩

@[reducible] private def inQuotes : DebugText := ⟨fun s => "\"" ++ s ++ "\""⟩

attribute [local instance] asciiCase anyHash inQuotes

private def halt : FlattenSpec :=
  FlattenSpec.new "fund" "halt1" (.ofList ["ADA/USD"])
    ⟨.ofList [("kraken", VenueRules.anySize)], InstrumentRules.empty⟩ ∅

private def account (entries : List BalanceEntry) (mark : Option Dec) : KrakenViewInput where
  balances := ⟨entries⟩
  equity := some (cents 100000)
  equivalentBalance := none
  openOrders := []
  marks _ := mark
  quoteAsset := "USD"
  assetClass := "crypto_spot"

private def reading (entries : List BalanceEntry) (mark : Option Dec) : BrokerSnapshot :=
  match krakenSnapshot (account entries mark) 0 with
  | .ok snap => snap
  | .error _ => ⟨"", "", Dec.zero, Dec.zero, [], [], [], 0, Dec.zero⟩

private def holdsAda : List BalanceEntry := [⟨"ADA", .spot, cents 50000⟩]

private def cashOnly : List BalanceEntry := [⟨"USD", .spot, cents 100000⟩]

/-- Nothing to cancel, the reading, nothing to trade, and the reading again. -/
private def quietCall (snap : BrokerSnapshot) : List (Event BrokerOp BrokerOp.Answer CallMove Empty) :=
  [.reply .now (0 : Int), .reply .openOrders (.ok []), .reply .now (0 : Int), .reply (.snapshot 0) (.ok snap),
    .reply .now (0 : Int), .reply (.snapshot 0) (.ok snap), .reply .now (0 : Int)]

private def verdictAfter (events : List (Event BrokerOp BrokerOp.Answer CallMove Empty)) : Option FlattenVerdict :=
  (callMachine.run ⟨flatten halt "kraken", CallWorld.start⟩ events).bind fun c =>
    match c.prog with
    | .done report => some report.verdict
    | .call _ _ => none

/-- Five hundred ADA that have no price are still there, and the verdict is flat. -/
theorem unpriced_position_called_flat :
    verdictAfter (quietCall (reading holdsAda none)) = some .flat ∧
      ∃ u ∈ (reading holdsAda none).unvalued,
        halt.universe.contains (toUppercase ((reading holdsAda none).instrumentOf u)) = true ∧
          u.quantity = cents 50000 := by
  refine ⟨by decide +kernel, ⟨"ADA", cents 50000, "no price for ADA/USD"⟩, ?_, ?_, rfl⟩
  · decide +kernel
  · decide +kernel

private def sale : OrderRequest :=
  { OrderRequest.market (flattenTag "fund" "halt1" "ADA/USD" 1) "ADA/USD" .sell (cents 50000) with
    referencePrice := some (cents 200) }

private def sold : OrderReport where
  brokerOrderId := "O1"
  tag := some sale.tag
  symbol := "ADA/USD"
  side := some .sell
  status := .filled
  quantity := cents 50000
  executedQuantity := cents 50000
  avgPrice := some (cents 200)
  cost := some (cents 100000)
  fee := none

/-- The ADA has a price: it is sold, the order ends, and the second round finds cash. -/
private def sellingCall : List (Event BrokerOp BrokerOp.Answer CallMove Empty) :=
  [.reply .now (0 : Int), .reply .openOrders (.ok []), .reply .now (0 : Int),
    .reply (.snapshot 0) (.ok (reading holdsAda (some (cents 200)))), .reply (.findByTag sale.tag) (.ok []),
    .reply (.place sale) (.ok (.accepted "O1" none ⟨"ADAUSD", .sell, cents 50000, none, 7, false⟩ [])), .move (.finish 0), .reply (.getOrder "O1") (.ok sold),
    .reply .openOrders (.ok []), .reply .now (0 : Int), .reply (.snapshot 0) (.ok (reading cashOnly none)),
    .reply .now (0 : Int), .reply (.snapshot 0) (.ok (reading cashOnly none)), .reply .now (0 : Int)]

/-- An account whose position was sold. -/
theorem sold_position_is_flat :
    ∃ final report, callMachine.run ⟨flatten halt "kraken", CallWorld.start⟩ sellingCall = some final ∧
      final.prog = .done report ∧ report.verdict = .flat ∧ final.world.orders = [⟨sale.tag, false⟩] ∧
      FlatAccount halt "kraken" (reading cashOnly none) final.world.orders report.verdict := by
  have verdict : verdictAfter sellingCall = some .flat := by decide +kernel
  obtain ⟨final, ran, ended⟩ := Option.bind_eq_some_iff.1 verdict
  cases prog : final.prog with
  | call op next =>
      rw [prog] at ended
      cases ended
  | done report =>
      rw [prog] at ended
      have isFlat := Option.some.inj ended
      obtain ⟨snap, read, sound⟩ := flat_verdict_iff ran prog (by rw [isFlat]; rintro ⟨⟩)
      have world : (callMachine.run ⟨flatten halt "kraken", CallWorld.start⟩ sellingCall).map
          (fun c => (c.world.reading, c.world.orders)) = some (some (reading cashOnly none), [⟨sale.tag, false⟩]) := by
        decide +kernel
      rw [ran] at world
      obtain ⟨same, orders⟩ := Prod.mk.inj (Option.some.inj world)
      obtain rfl := Option.some.inj (read.symm.trans same)
      refine ⟨final, report, ran, prog, isFlat, orders, sound.2 ⟨?_, ?_⟩⟩
      · have nothing : (reading cashOnly none).unvalued = [] := by decide +kernel
        simp [nothing]
      · simp [orders]

end NoPrice

end RebalancerRun
