import SignalEngine.RebalancerRun.FlattenCovers

/-! # The allowance of a cover

What flatten counts of its covers is at least what they can come to, so the
allowance it leaves for the next cover keeps the total below the short first seen.
-/

open BrokerAdapters Interaction Text

namespace RebalancerRun

open RebalancerCore (Instant Sha256)
open RebalancerCore.DecMath (add add_fits sub sub_ok)
open MachineInt (Fits)

/-! ## What is counted -/

def FlattenOrder.counted (o : FlattenOrder) : Int :=
  if o.outcome = .unsettled then o.quantity.atto else o.executedQuantity.atto

/-- What the allowance counts for a report on an order of `quantity`. -/
def countedReport (quantity : Int) (r : OrderReport) : Int :=
  if reportOutcome r = .unsettled then quantity else r.executedQuantity.atto

section Counting

variable [UnicodeCase]

def coveredOf (orders : List FlattenOrder) (key : String) : Int :=
  (orders.map fun o => if o.side = .buy ∧ toUppercase o.symbol = key then o.counted else 0).sum

theorem coveredOf_append (orders more : List FlattenOrder) (key : String) :
    coveredOf (orders ++ more) key = coveredOf orders key + coveredOf more key := by
  simp [coveredOf]

theorem coveredOf_nonneg {orders : List FlattenOrder}
    (nonneg : ∀ o ∈ orders, o.side = .buy → 0 ≤ o.counted) (key : String) : 0 ≤ coveredOf orders key := by
  apply List.sum_nonneg
  intro x member
  obtain ⟨o, among, rfl⟩ := List.mem_map.1 member
  split
  next own => exact nonneg o among own.1
  next => exact le_refl 0

theorem coverQuantityUsed_eq {orders : List FlattenOrder} {symbol : String}
    (nonneg : ∀ o ∈ orders, o.side = .buy → 0 ≤ o.counted)
    (spelled : ∀ o ∈ orders, o.side = .buy → toUppercase o.symbol = toUppercase symbol →
      eqIgnoreAsciiCase o.symbol symbol = true)
    (fits : Fits 128 (coveredOf orders (toUppercase symbol))) :
    (coverQuantityUsed orders symbol).atto = coveredOf orders (toUppercase symbol) := by
  -- the orders that are added up are those of the upper-case symbol
  have same : ∀ o ∈ orders, (o.side = .buy && eqIgnoreAsciiCase o.symbol symbol) =
      decide (o.side = .buy ∧ toUppercase o.symbol = toUppercase symbol) := by
    intro o member
    by_cases buy : o.side = .buy
    · cases alike : eqIgnoreAsciiCase o.symbol symbol with
      | true => simp [buy, toUppercase_of_eqIgnoreAsciiCase alike]
      | false =>
          have other : toUppercase o.symbol ≠ toUppercase symbol := by
            intro equal
            rw [spelled o member buy equal] at alike
            cases alike
          simp [buy, other]
    · simp [buy]
  -- no partial sum leaves the range
  have walk : ∀ grow : Dec → FlattenOrder → Dec,
      (∀ total o sum, add total (if o.outcome = .unsettled then o.quantity else o.executedQuantity) = .ok sum →
        grow total o = sum) →
      ∀ (orders : List FlattenOrder) (start : Dec), 0 ≤ start.atto →
      (∀ o ∈ orders, o.side = .buy → 0 ≤ o.counted) →
      (∀ o ∈ orders, (o.side = .buy && eqIgnoreAsciiCase o.symbol symbol) =
        decide (o.side = .buy ∧ toUppercase o.symbol = toUppercase symbol)) →
      Fits 128 (start.atto + coveredOf orders (toUppercase symbol)) →
      ((orders.filter fun o => o.side = .buy && eqIgnoreAsciiCase o.symbol symbol).foldl grow start).atto =
        start.atto + coveredOf orders (toUppercase symbol) := by
    intro grow follows orders
    induction orders with
    | nil =>
        intro start _ _ _ _
        simp [coveredOf]
    | cons o orders ih =>
        intro start startNonneg nonneg same fits
        have rest : 0 ≤ coveredOf orders (toUppercase symbol) :=
          coveredOf_nonneg (fun o' member => nonneg o' (by simp [member])) _
        have split : coveredOf (o :: orders) (toUppercase symbol) =
            (if o.side = .buy ∧ toUppercase o.symbol = toUppercase symbol then o.counted else 0) +
              coveredOf orders (toUppercase symbol) := by
          simp [coveredOf]
        rw [split] at fits ⊢
        rw [List.filter_cons, same o (by simp)]
        by_cases own : o.side = .buy ∧ toUppercase o.symbol = toUppercase symbol
        · have counted := nonneg o (by simp) own.1
          rw [if_pos own] at fits ⊢
          rw [if_pos (by simpa using own), List.foldl_cons]
          have value : (if o.outcome = .unsettled then o.quantity else o.executedQuantity).atto = o.counted := by
            unfold FlattenOrder.counted
            split <;> rfl
          obtain ⟨sum, added, total⟩ := add_fits (a := start)
            (b := if o.outcome = .unsettled then o.quantity else o.executedQuantity)
            (fits.of_le startNonneg (by omega)) (fits.of_le (by omega) (by omega)) (fits.of_le (by omega) (by omega))
          rw [follows start o sum added]
          rw [ih sum (by omega) (fun o' member => nonneg o' (by simp [member]))
            (fun o' member => same o' (by simp [member])) (by rw [total, value]; exact fits.of_le (by omega) (by omega)),
            total, value]
          omega
        · rw [if_neg own] at fits ⊢
          rw [if_neg (by simpa using own), zero_add]
          exact ih start startNonneg (fun o' member => nonneg o' (by simp [member]))
            (fun o' member => same o' (by simp [member])) (by simpa using fits)
  have whole : (coverQuantityUsed orders symbol).atto = Dec.zero.atto + coveredOf orders (toUppercase symbol) :=
    walk _ (fun total o sum added => by simp only [added]) orders Dec.zero (by simp) nonneg same (by simpa using fits)
  rw [whole, Dec.atto_zero, zero_add]

end Counting

/-! ## Calls that leave the covers alone -/

def Flattener.view (f : Flattener) : List FlattenOrder × Std.ExtTreeMap String Dec := (f.orders, f.firstShort)

def Resting (g : CoverLog) : Prop := g.notes.phase = .clear ∨ g.notes.phase = .listed

/-- The piece of program leaves the covers and what is counted of them alone. -/
def Still [UnicodeCase] {α : Type} (spec : FlattenSpec) (venue : String) (x : FlattenM α) : Prop :=
  ∀ v g, Resting g → Triple (coverLaw spec venue) (fun f g' => f.view = v ∧ g' = g) x fun _ f g' => f.view = v ∧ g' = g

namespace Still

variable [UnicodeCase] {α β : Type} {spec : FlattenSpec} {venue : String}

theorem pure (value : α) : Still spec venue (pure value) := fun _ _ _ _ _ same => same

theorem bind {x : FlattenM α} {f : α → FlattenM β} (first : Still spec venue x)
    (second : ∀ a, Still spec venue (f a)) : Still spec venue (x >>= f) :=
  fun v g resting => (first v g resting).bind fun a => second a v g resting

theorem modify {h : Flattener → Flattener} (same : ∀ f, (h f).view = f.view) : Still spec venue (modify h) := by
  rintro v g - f g' ⟨rfl, rfl⟩
  exact ⟨same f, rfl⟩

theorem ask {op : BrokerOp} (unsent : ∀ req, op ≠ .place req)
    (same : ∀ sent g answer, Resting g → CoverLog.next spec venue sent g op answer = g) :
    Still spec venue (Interaction.ask op : FlattenM op.Answer) := by
  rintro v g resting f g' ⟨rfl, rfl⟩
  refine ⟨fun req sent => absurd sent (unsent req), ?_⟩
  rintro answer g'' ⟨sent, -, rfl⟩
  exact ⟨rfl, same sent g' answer resting⟩

theorem forM {γ : Type} {f : γ → FlattenM Unit} {items : List γ} (each : ∀ item ∈ items, Still spec venue (f item)) :
    Still spec venue (items.forM f) :=
  fun v g resting => Triple.forM fun item member => each item member v g resting

omit [UnicodeCase] in
theorem resting_ne {g : CoverLog} (resting : Resting g) (id : String) : g.notes.phase ≠ .settling id := by
  rcases resting with clear | listed
  · rw [clear]
    rintro ⟨⟩
  · rw [listed]
    rintro ⟨⟩

theorem getOrder (id : String) : Still spec venue (Broker.getOrder id) := by
  refine ask (by simp) fun sent g answer resting => ?_
  have away := resting_ne resting id
  cases answer with
  | error e => simp [CoverLog.next, CoverNotes.next, settledEntries, finalReport, sendsCover]
  | ok r => simp [CoverLog.next, CoverNotes.next, settledEntries, finalReport, sendsCover, away]

theorem cancelAndSettle (id : String) : Still spec venue (Broker.cancelAndSettle id) := by
  refine ask (by simp) fun sent g answer resting => ?_
  have away := resting_ne resting id
  cases answer with
  | error e => simp [CoverLog.next, CoverNotes.next, settledEntries, finalReport, sendsCover, away]
  | ok r => simp [CoverLog.next, CoverNotes.next, settledEntries, finalReport, sendsCover, away]

theorem sleepSecs (secs : Nat) : Still spec venue (Broker.sleepSecs secs) := by
  refine ask (by simp) fun sent g answer resting => ?_
  simp [CoverLog.next, CoverNotes.next, settledEntries, finalReport, sendsCover]

theorem fail (code : FlattenCode) (message : String) : Still spec venue (fail code message) := modify fun _ => rfl

theorem failIf (problem : Bool) (code : FlattenCode) (message : String) :
    Still spec venue (failIf problem code message) := by
  unfold RebalancerRun.failIf
  split
  · exact fail code message
  · exact pure ()

theorem pollOrder (id : String) : ∀ polls, Still spec venue (pollOrder spec id polls) := by
  intro polls
  induction polls with
  | zero => exact pure none
  | succ polls ih =>
      apply bind (getOrder id)
      intro read
      cases read with
      | error e => exact pure _
      | ok r =>
          dsimp only
          split
          · exact pure _
          · split
            · exact ih
            · exact bind (sleepSecs _) fun _ => ih

theorem settle (id : String) : Still spec venue (settle spec id) := by
  apply bind (pollOrder id _)
  intro polled
  cases polled with
  | some result => exact pure result
  | none =>
      apply bind (cancelAndSettle id)
      intro canceled
      cases canceled with
      | error e => exact pure _
      | ok ended => exact bind (failIf _ _ _) fun _ => pure _

variable [DebugText]

theorem confirmCancel (id : String) : Still spec venue (confirmCancel spec id) := by
  apply bind (settle id)
  intro settled
  cases settled with
  | error e => exact fail _ _
  | ok r =>
      dsimp only
      split
      · exact fail _ _
      · exact modify fun _ => rfl

theorem cancelOpenOrder (o : OrderReport) : Still spec venue (cancelOpenOrder spec o) := by
  unfold RebalancerRun.cancelOpenOrder
  split
  · exact modify fun _ => rfl
  · apply bind (cancelAndSettle _)
    intro canceled
    split
    · refine bind (modify ?_) fun _ => ?_
      · exact fun _ => rfl
      · split
        · exact confirmCancel _
        · exact pure ()
    · exact fail _ _
    · split
      · exact fail _ _
      · exact fail _ _

end Still

/-! ## What flatten knows of its covers -/

section Accounts

variable [UnicodeCase]

/-- What is counted belongs to the symbols that were to be covered, and the first
    short of a symbol is within what was seen of it. -/
structure Booked (f : Flattener) (n : CoverNotes) : Prop where
  known : ∀ o ∈ f.orders, o.side = .buy → o.symbol ∈ n.symbols ∧ 0 ≤ o.counted
  spelled : ∀ s ∈ n.symbols, ∀ t ∈ n.symbols, toUppercase s = toUppercase t → eqIgnoreAsciiCase s t = true
  first : ∀ key d, f.firstShort[key]? = some d → Fits 128 d.atto ∧ coveredOf f.orders key ≤ max 0 d.atto ∧
    d.atto ≤ (n.firstSeen key).getD 0
  unseen : ∀ key, f.firstShort[key]? = none → coveredOf f.orders key = 0

/-- What is counted is at least what the covers can come to. -/
structure Counts (f : Flattener) (g : CoverLog) : Prop extends Booked f g.notes where
  calm : ∀ sent, g.notes.phase ≠ .doubt sent
  total : ∀ key, totalOf g.entries key ≤ coveredOf f.orders key

variable {amount : Int} {f f' : Flattener} {g : CoverLog}

theorem Booked.of_view {n n' : CoverNotes} (booked : Booked f n) (view : f'.view = f.view)
    (symbols : n'.symbols = n.symbols) (firstSeen : n'.firstSeen = n.firstSeen) : Booked f' n' := by
  obtain ⟨orders, firstShort⟩ := Prod.mk.inj view
  refine ⟨?_, ?_, ?_, ?_⟩
  · rw [orders, symbols]
    exact booked.known
  · rw [symbols]
    exact booked.spelled
  · rw [orders, firstShort, firstSeen]
    exact booked.first
  · rw [orders, firstShort]
    exact booked.unseen

theorem Counts.of_view (counts : Counts f g) (view : f'.view = f.view) : Counts f' g := by
  refine ⟨counts.toBooked.of_view view rfl rfl, counts.calm, ?_⟩
  rw [(Prod.mk.inj view).1]
  exact counts.total

theorem Booked.record {n : CoverNotes} (booked : Booked f n) (o : FlattenOrder)
    (fits : o.side = .buy → o.symbol ∈ n.symbols ∧ 0 ≤ o.counted ∧ ∃ d, f.firstShort[toUppercase o.symbol]? = some d ∧ coveredOf f.orders (toUppercase o.symbol) + o.counted ≤ max 0 d.atto) :
    Booked { f with orders := f.orders ++ [o] } n := by
  have single (key : String) : coveredOf [o] key =
      if o.side = .buy ∧ toUppercase o.symbol = key then o.counted else 0 := by
    simp [coveredOf]
  refine ⟨?_, booked.spelled, ?_, ?_⟩
  · intro o' member buy
    rcases List.mem_append.1 member with before | new
    · exact booked.known o' before buy
    · obtain rfl := List.mem_singleton.1 new
      exact ⟨(fits buy).1, (fits buy).2.1⟩
  · intro key d found
    obtain ⟨range, covered, seen⟩ := booked.first key d found
    refine ⟨range, ?_, seen⟩
    rw [coveredOf_append, single]
    split
    next own =>
      obtain ⟨buy, rfl⟩ := own
      obtain ⟨-, -, d', found', room⟩ := fits buy
      obtain rfl := Option.some.inj (found.symm.trans found')
      exact room
    next => rwa [add_zero]
  · intro key missing
    rw [coveredOf_append, single, booked.unseen key missing, zero_add]
    split
    next own =>
      obtain ⟨buy, rfl⟩ := own
      obtain ⟨-, -, d', found', -⟩ := fits buy
      have contradiction := missing.symm.trans found'
      cases contradiction
    next => rfl

theorem Counts.recordSell (counts : Counts f g) {o : FlattenOrder} (sell : o.side = .sell) :
    Counts { f with orders := f.orders ++ [o] } g := by
  refine ⟨counts.toBooked.record o (fun buy => by rw [sell] at buy; cases buy), counts.calm, fun key => ?_⟩
  simpa [coveredOf, sell] using counts.total key

/-! ## Settling a cover -/

structure Frame where
  firstShort : Std.ExtTreeMap String Dec
  symbols : List String
  firstSeen : String → Option Int

def frameOf (f : Flattener) (n : CoverNotes) : Frame := ⟨f.firstShort, n.symbols, n.firstSeen⟩

/-- A cover was sent, and the broker's word on it bounds it by `amount`. -/
structure Sent (leg : Leg) (frame : Frame) (rest : List Promise) (amount : Int) (f : Flattener) (g : CoverLog) :
    Prop where
  framed : frameOf f g.notes = frame
  entries : ∃ bound ≤ amount, g.entries = rest ++ [⟨toUppercase leg.symbol, leg.quantity.atto, bound⟩]
  calm : ∀ sent, g.notes.phase ≠ .doubt sent
  booked : Booked f g.notes
  total : ∀ key, totalOf rest key ≤ coveredOf f.orders key
  buy : leg.side = .buy
  named : leg.symbol ∈ g.notes.symbols
  nonneg : 0 ≤ amount
  room : ∃ d, f.firstShort[toUppercase leg.symbol]? = some d ∧
    coveredOf f.orders (toUppercase leg.symbol) + amount ≤ d.atto

structure Flying (leg : Leg) (frame : Frame) (id : String) (rest : List Promise) (f : Flattener) (g : CoverLog) : Prop
    extends Sent leg frame rest leg.quantity.atto f g where
  phase : g.notes.phase = .settling id
  whole : g.entries = rest ++ [⟨toUppercase leg.symbol, leg.quantity.atto, leg.quantity.atto⟩]

variable {spec : FlattenSpec} {venue : String} {leg : Leg} {frame : Frame} {id : String} {rest : List Promise}

theorem Sent.record (sent : Sent leg frame rest amount f g) {o : FlattenOrder} (symbol : o.symbol = leg.symbol)
    (side : o.side = leg.side) (counted : o.counted = amount) :
    Counts { f with orders := f.orders ++ [o] } g := by
  obtain ⟨bound, less, entries⟩ := sent.entries
  refine ⟨sent.booked.record o fun _ => ?_, sent.calm, fun key => ?_⟩
  · rw [symbol, counted]
    obtain ⟨d, found, room⟩ := sent.room
    exact ⟨sent.named, sent.nonneg, d, found, room.trans (le_max_right _ _)⟩
  · have before := sent.total key
    rw [entries, totalOf_append, coveredOf_append]
    have single : coveredOf [o] key = if toUppercase leg.symbol = key then amount else 0 := by
      simp [coveredOf, side, sent.buy, symbol, counted]
    rw [single]
    simp only [totalOf, List.map_cons, List.map_nil, List.sum_cons, List.sum_nil, add_zero] at before ⊢
    split
    · omega
    · omega

omit [UnicodeCase] in
theorem countedReport_bounds {quantity : Int} {r : OrderReport} (bounds : OrderReport.bounds r = true) :
    countedReport quantity r = r.executedQuantity.atto := by
  refine if_neg fun unsettled => ?_
  unfold reportOutcome at unsettled
  simp only [OrderReport.bounds, Bool.or_eq_true] at bounds
  split at unsettled
  · cases unsettled
  split at unsettled
  · cases unsettled
  next idle =>
    split at unsettled
    · cases unsettled
    next live => exact bounds.elim live idle

omit [UnicodeCase] in
theorem countedReport_open {quantity : Int} {r : OrderReport} (opens : OrderReport.bounds r = false) :
    countedReport quantity r = quantity := by
  refine if_pos ?_
  simp only [OrderReport.bounds, Bool.or_eq_false_iff] at opens
  have notFilled : r.status ≠ .filled := by
    intro filled
    rw [filled] at opens
    cases opens.1
  simp [reportOutcome, notFilled, opens.1, opens.2]

theorem CoverLog.next_same {sent : Bool} {op : BrokerOp} {answer : op.Answer}
    (silent : finalReport g.notes.phase op answer = none) (unsent : sendsCover sent op answer = none)
    (notes : g.notes.next spec venue sent op answer = g.notes) :
    CoverLog.next spec venue sent g op answer = g := by
  simp [CoverLog.next, settledEntries, silent, unsent, notes]

theorem Sent.of_view (sent : Sent leg frame rest amount f g) (view : f'.view = f.view) :
    Sent leg frame rest amount f' g := by
  obtain ⟨orders, firstShort⟩ := Prod.mk.inj view
  refine ⟨?_, sent.entries, sent.calm, sent.booked.of_view view rfl rfl, ?_, sent.buy, sent.named, sent.nonneg, ?_⟩
  · rw [← sent.framed, frameOf, firstShort]
    rfl
  · rw [orders]
    exact sent.total
  · rw [orders, firstShort]
    exact sent.room

theorem Flying.landed {sent : Bool} {op : BrokerOp} {answer : op.Answer} {r : OrderReport}
    (flying : Flying leg frame id rest f g) (final : finalReport g.notes.phase op answer = some r)
    (unsent : sendsCover sent op answer = none)
    (notes : g.notes.next spec venue sent op answer = { g.notes with phase := .clear })
    (fair : Fair spec venue sent g op answer) :
    Sent leg frame rest (countedReport leg.quantity.atto r) f (CoverLog.next spec venue sent g op answer) := by
  have last : g.entries.getLast? = some ⟨toUppercase leg.symbol, leg.quantity.atto, leg.quantity.atto⟩ := by
    rw [flying.whole]
    simp
  have booked : Booked f (CoverLog.next spec venue sent g op answer).notes := by
    refine flying.booked.of_view rfl ?_ ?_
    · simp only [CoverLog.next, notes]
    · simp only [CoverLog.next, notes]
  have calm : ∀ sent', (CoverLog.next spec venue sent g op answer).notes.phase ≠ .doubt sent' := by
    intro sent'
    simp only [CoverLog.next, notes]
    rintro ⟨⟩
  have named : leg.symbol ∈ (CoverLog.next spec venue sent g op answer).notes.symbols := by
    simp only [CoverLog.next, notes]
    exact flying.named
  have framed : frameOf f (CoverLog.next spec venue sent g op answer).notes = frame := by
    simp only [CoverLog.next, notes]
    exact flying.framed
  obtain ⟨d, found, room⟩ := flying.room
  cases bounds : OrderReport.bounds r with
  | true =>
      obtain ⟨nonneg, within⟩ := fair.2.1 r final bounds _ last
      rw [countedReport_bounds bounds]
      refine ⟨framed, ⟨_, le_refl _, ?_⟩, calm, booked, flying.total, flying.buy, named, nonneg, d, found, ?_⟩
      · simp only [CoverLog.next, settledEntries, final, Option.filter_some, bounds, if_true, unsent,
          settleLast_eq last]
        simp [flying.whole]
      · simp only at within
        omega
  | false =>
      rw [countedReport_open bounds]
      refine ⟨framed, ⟨_, le_refl _, ?_⟩, calm, booked, flying.total, flying.buy, named, flying.nonneg, d, found, room⟩
      have silent : (some r).filter OrderReport.bounds = none := by simp [Option.filter_some, bounds]
      simp [CoverLog.next, settledEntries, final, silent, unsent, flying.whole]

theorem pollOrder_lands (polls : Nat) : Triple (coverLaw spec venue) (Flying leg frame id rest) (pollOrder spec id polls)
    fun polled f g =>
      match polled with
      | none => Flying leg frame id rest f g
      | some (.error _) => Sent leg frame rest leg.quantity.atto f g
      | some (.ok r) => Sent leg frame rest (countedReport leg.quantity.atto r) f g := by
  induction polls with
  | zero => exact fun _ _ flying => flying
  | succ polls ih =>
      intro f g flying
      refine ⟨(fun _ other => nomatch other), ?_⟩
      rintro answer g' ⟨sent, fair, rfl⟩
      cases answer with
      | error e =>
          rw [CoverLog.next_same rfl rfl rfl]
          exact flying.toSent
      | ok r =>
          change Prog.Obeys _ ((if r.status.isTerminal then pure (some (Except.ok r)) else _ : FlattenM _) f) _ _
          by_cases terminal : r.status.isTerminal = true
          · rw [if_pos terminal]
            refine flying.landed (r := r) ?_ rfl ?_ fair
            · simp [finalReport, flying.phase, terminal]
            · simp [CoverNotes.next, flying.phase, terminal]
          · rw [if_neg terminal]
            have same : CoverLog.next spec venue sent g (.getOrder id) (.ok r) = g := by
              refine CoverLog.next_same ?_ rfl ?_
              · simp [finalReport, terminal]
              · simp [CoverNotes.next, terminal]
            rw [same]
            split
            · exact ih f g flying
            · refine ⟨(fun _ other => nomatch other), ?_⟩
              rintro answer' g'' ⟨sent', -, rfl⟩
              rw [CoverLog.next_same rfl rfl rfl]
              exact ih f g flying

theorem settle_lands : Triple (coverLaw spec venue) (Flying leg frame id rest) (settle spec id) fun result f g =>
    match result with
    | .error _ => Sent leg frame rest leg.quantity.atto f g
    | .ok r => Sent leg frame rest (countedReport leg.quantity.atto r) f g := by
  apply (pollOrder_lands spec.maxPolls).bind
  intro polled
  cases polled with
  | some result =>
      cases result with
      | error e => exact fun _ _ landed => landed
      | ok r => exact fun _ _ landed => landed
  | none =>
      intro f g flying
      refine ⟨(fun _ other => nomatch other), ?_⟩
      rintro answer g' ⟨sent, fair, rfl⟩
      cases answer with
      | error e =>
          have notes : g.notes.next spec venue sent (.cancelAndSettle id) (.error e) =
              { g.notes with phase := .clear } := by
            simp [CoverNotes.next, flying.phase]
          refine ⟨?_, ⟨_, le_refl _, ?_⟩, ?_, flying.booked.of_view rfl ?_ ?_, flying.total, flying.buy, ?_,
            flying.nonneg, flying.room⟩
          · simp only [CoverLog.next, notes]
            exact flying.framed
          · simp [CoverLog.next, settledEntries, finalReport, sendsCover, flying.whole]
          · intro sent'
            simp only [CoverLog.next, notes]
            rintro ⟨⟩
          · simp only [CoverLog.next, notes]
          · simp only [CoverLog.next, notes]
          · simp only [CoverLog.next, notes]
            exact flying.named
      | ok ended =>
          obtain ⟨outcome, r⟩ := ended
          have final : finalReport g.notes.phase (.cancelAndSettle id) (.ok (outcome, r)) = some r := by
            simp [finalReport, flying.phase]
          have landed := flying.landed final rfl (by simp [CoverNotes.next, flying.phase]) fair
          change Prog.Obeys _ ((failIf _ _ _ >>= fun _ => pure (Except.ok r) : FlattenM _) f) _ _
          unfold failIf
          split
          · exact landed.of_view rfl
          · exact landed

/-! ## Sending a leg -/

structure Settled (frame : Frame) (f : Flattener) (g : CoverLog) : Prop extends Counts f g where
  framed : frameOf f g.notes = frame

theorem Settled.of_view (settled : Settled frame f g) (view : f'.view = f.view) : Settled frame f' g := by
  refine ⟨settled.toCounts.of_view view, ?_⟩
  rw [← settled.framed, frameOf, (Prod.mk.inj view).2]
  rfl

structure Ready (leg : Leg) (frame : Frame) (f : Flattener) (g : CoverLog) : Prop extends Settled frame f g where
  buy : leg.side = .buy
  named : leg.symbol ∈ g.notes.symbols
  room : ∃ d, f.firstShort[toUppercase leg.symbol]? = some d ∧
    coveredOf f.orders (toUppercase leg.symbol) + leg.quantity.atto ≤ d.atto

theorem Ready.recordNothing (ready : Ready leg frame f g) {o : FlattenOrder} (symbol : o.symbol = leg.symbol)
    (counted : o.counted = 0) :
    Settled frame { f with orders := f.orders ++ [o] } g := by
  obtain ⟨d, found, -⟩ := ready.room
  refine ⟨⟨ready.toBooked.record o fun _ => ?_, ready.calm, fun key => ?_⟩, ready.framed⟩
  · rw [symbol, counted, add_zero]
    exact ⟨ready.named, le_refl 0, d, found, (ready.first _ d found).2.1⟩
  · have single : coveredOf [o] key = 0 := by simp [coveredOf, counted]
    rw [coveredOf_append, single, add_zero]
    exact ready.total key

theorem Sent.recorded (sent : Sent leg frame rest amount f g) {o : FlattenOrder} (symbol : o.symbol = leg.symbol)
    (side : o.side = leg.side) (counted : o.counted = amount) :
    Settled frame { f with orders := f.orders ++ [o] } g :=
  ⟨sent.record symbol side counted, sent.framed⟩

theorem Ready.of_view (ready : Ready leg frame f g) (view : f'.view = f.view) : Ready leg frame f' g := by
  refine ⟨ready.toSettled.of_view view, ready.buy, ready.named, ?_⟩
  obtain ⟨orders, firstShort⟩ := Prod.mk.inj view
  rw [orders, firstShort]
  exact ready.room

theorem Ready.cleared (ready : Ready leg frame f g) :
    Ready leg frame f { g with notes := { g.notes with phase := .clear } } :=
  ⟨⟨⟨ready.toBooked.of_view rfl rfl rfl, (fun _ doubt => nomatch doubt), ready.total⟩, ready.framed⟩,
    ready.buy, ready.named, ready.room⟩

theorem Ready.unsent {f : Flattener} {g : CoverLog} {sent : Bool} {op : BrokerOp} {answer : op.Answer}
    (ready : Ready leg frame f g) (silent : finalReport g.notes.phase op answer = none)
    (unsent : sendsCover sent op answer = none)
    (notes : g.notes.next spec venue sent op answer = { g.notes with phase := .clear }) :
    Ready leg frame f (CoverLog.next spec venue sent g op answer) := by
  have same : CoverLog.next spec venue sent g op answer = { g with notes := { g.notes with phase := .clear } } := by
    simp [CoverLog.next, settledEntries, silent, unsent, notes]
  rw [same]
  exact ready.cleared

theorem Ready.sent {g' : CoverLog} (ready : Ready leg frame f g) (nonneg : 0 ≤ leg.quantity.atto)
    (entries : g'.entries = g.entries ++ [⟨toUppercase leg.symbol, leg.quantity.atto, leg.quantity.atto⟩])
    (notes : g'.notes = { g.notes with phase := .settling id }) : Flying leg frame id g.entries f g' := by
  refine ⟨⟨?_, ⟨_, le_refl _, entries⟩, ?_, ?_, ready.total, ready.buy, ?_, nonneg, ready.room⟩, ?_, entries⟩
  · rw [notes]
    exact ready.framed
  · rw [notes]
    exact fun _ doubt => nomatch doubt
  · rw [notes]
    exact ready.toBooked.of_view rfl rfl rfl
  · rw [notes]
    exact ready.named
  · rw [notes]

theorem Ready.allowed (ready : Ready leg frame f g) {req : OrderRequest} (symbol : req.symbol = leg.symbol)
    (quantity : req.quantity = leg.quantity) :
    (coverLaw spec venue).allowed g (.place req) := by
  rintro _ ⟨⟩ -
  obtain ⟨d, found, room⟩ := ready.room
  have total := ready.total (toUppercase leg.symbol)
  have seen := (ready.first _ d found).2.2
  rw [symbol, quantity]
  omega

variable [DebugText]

omit [UnicodeCase] [DebugText] in
theorem fail_keeps {law : Law BrokerOp BrokerOp.Answer CoverLog} {P : Flattener → CoverLog → Prop}
    (stable : ∀ f f' g, P f g → f'.view = f.view → P f' g) (code : FlattenCode) (message : String) :
    Triple law P (fail code message) fun _ => P := fun f _ holds => stable f _ _ holds rfl

theorem settleAndRecord_counts (adopted : Bool) : Triple (coverLaw spec venue) (Flying leg frame id rest)
    (settleAndRecord spec leg id adopted) fun _ => Settled frame := by
  have unsettled : Triple (coverLaw spec venue) (Sent leg frame rest leg.quantity.atto)
      (recordUnsent leg .unsettled) fun _ => Settled frame :=
    fun f g landed => landed.recorded rfl rfl rfl
  apply settle_lands.bind
  intro result
  cases result with
  | ok r => exact fun f g landed => landed.recorded rfl rfl rfl
  | error e =>
      dsimp only
      split
      · exact (fail_keeps (fun _ _ _ sent view => sent.of_view view) _ _).bind fun _ => unsettled
      · exact (fail_keeps (fun _ _ _ sent view => sent.of_view view) _ _).bind fun _ => unsettled

theorem sendLeg_counts {req : OrderRequest} {missing : String → FlattenM Unit} (symbol : req.symbol = leg.symbol)
    (quantity : req.quantity = leg.quantity) (side : req.side = leg.side)
    (later : ∀ reason, Triple (coverLaw spec venue) (Ready leg frame) (missing reason) fun _ => Settled frame) :
    Triple (coverLaw spec venue) (Ready leg frame) (sendLeg spec leg req missing) fun _ => Settled frame := by
  have nothing (outcome : FlattenOutcome) (known : outcome ≠ .unsettled) : Triple (coverLaw spec venue)
      (Ready leg frame) (recordUnsent leg outcome) fun _ => Settled frame := by
    intro f g ready
    exact ready.recordNothing rfl ((if_neg known).trans Dec.atto_zero)
  have refused (code : FlattenCode) (message : String) (outcome : FlattenOutcome) (known : outcome ≠ .unsettled) :
      Triple (coverLaw spec venue) (Ready leg frame)
        (fail code message >>= fun _ => recordUnsent leg outcome) fun _ => Settled frame :=
    (fail_keeps (fun _ _ _ ready view => ready.of_view view) _ _).bind fun _ => nothing outcome known
  intro f g ready
  have buy : req.side = .buy := side.trans ready.buy
  refine ⟨ready.allowed symbol quantity, ?_⟩
  rintro answer g' ⟨sent, fair, rfl⟩
  rcases answer with e | ⟨orderId, description, order, warnings⟩ | _ | _ | ⟨reason, order⟩
  case error => exact refused _ _ _ (by simp) f _ (ready.unsent rfl rfl rfl)
  case ok.validatedOnly => exact refused _ _ _ (by simp) f _ (ready.unsent rfl rfl rfl)
  case ok.rejected => exact refused _ _ _ (by simp) f _ (ready.unsent rfl rfl rfl)
  case ok.accepted =>
    have sends : sendsCover sent (.place req) (.ok (.accepted orderId description order warnings)) = some req := by
      simp [sendsCover, buy]
    have nonneg : 0 ≤ leg.quantity.atto := by
      rw [← quantity]
      exact fair.1 req sends
    refine settleAndRecord_counts false f _ (ready.sent nonneg ?_ ?_)
    · simp [CoverLog.next, settledEntries, finalReport_place, sends, asPromise, symbol, quantity]
    · simp [CoverLog.next, CoverNotes.next, buy]
  case ok.unknownOutcome =>
    refine ⟨(fun _ other => by cases other), ?_⟩
    rintro answer g' ⟨again, found, rfl⟩
    have looked := found.2.2
    cases sent with
    | true =>
        have sends : sendsCover true (.place req) (.ok (.unknownOutcome reason order)) = some req := by
          simp [sendsCover, buy]
        have nonneg : 0 ≤ leg.quantity.atto := by
          rw [← quantity]
          exact fair.1 req sends
        have doubt : (g.notes.next spec venue true (.place req) (.ok (.unknownOutcome reason order))) =
            { g.notes with phase := .doubt true } := by
          simp [CoverNotes.next, buy]
        simp only [CoverLog.next, doubt] at looked
        rcases answer with e | _ | ⟨o, others⟩
        · simp [rightAnswer] at looked
        · simp [rightAnswer] at looked
        · refine settleAndRecord_counts true f _ (ready.sent nonneg ?_ ?_)
          · simp [CoverLog.next, settledEntries, finalReport, sendsCover, buy, asPromise, symbol, quantity]
          · simp [CoverLog.next, CoverNotes.next, buy]
    | false =>
        have doubt : (g.notes.next spec venue false (.place req) (.ok (.unknownOutcome reason order))) =
            { g.notes with phase := .doubt false } := by
          simp [CoverNotes.next, buy]
        simp only [CoverLog.next, doubt] at looked
        -- no order is found, and none was sent
        rcases answer with e | _ | ⟨o, others⟩
        · refine refused _ _ _ (by simp) f _ ?_
          have log : ((g.next spec venue false (.place req) (.ok (.unknownOutcome reason order))).next spec venue again
              (.findByTag leg.tag) (.error e)) = { g with notes := { g.notes with phase := .clear } } := by
            simp [CoverLog.next, CoverNotes.next, settledEntries, finalReport, sendsCover, buy]
          rw [log]
          exact ready.cleared
        · refine later reason f _ ?_
          have log : ((g.next spec venue false (.place req) (.ok (.unknownOutcome reason order))).next spec venue again
              (.findByTag leg.tag) (.ok [])) = { g with notes := { g.notes with phase := .clear } } := by
            simp [CoverLog.next, CoverNotes.next, settledEntries, finalReport, sendsCover, buy]
          rw [log]
          exact ready.cleared
        · simp [rightAnswer] at looked

theorem sendLeg_sell {req : OrderRequest} {missing : String → FlattenM Unit} (sell : leg.side = .sell)
    (side : req.side = leg.side)
    (later : ∀ reason, Triple (coverLaw spec venue) (Settled frame) (missing reason) fun _ => Settled frame) :
    Triple (coverLaw spec venue) (Settled frame) (sendLeg spec leg req missing) fun _ => Settled frame := by
  have unsent (outcome : FlattenOutcome) : Triple (coverLaw spec venue) (Settled frame) (recordUnsent leg outcome)
      fun _ => Settled frame :=
    fun f g settled => ⟨settled.recordSell sell, settled.framed⟩
  have refused (code : FlattenCode) (message : String) (outcome : FlattenOutcome) : Triple (coverLaw spec venue)
      (Settled frame) (fail code message >>= fun _ => recordUnsent leg outcome) fun _ => Settled frame :=
    (fail_keeps (fun _ _ _ settled view => settled.of_view view) _ _).bind fun _ => unsent outcome
  have recorded (id : String) (adopted : Bool) : Triple (coverLaw spec venue)
      (fun f g => Settled frame f g ∧ g.notes.phase = .clear) (settleAndRecord spec leg id adopted)
        fun _ => Settled frame := by
    intro f g ⟨settled, clear⟩
    apply Prog.Obeys.bind
    refine (Still.settle id f.view g (.inl clear) f g ⟨rfl, rfl⟩).mono ?_
    rintro ⟨result, f'⟩ g' ⟨view, rfl⟩
    have settled' := settled.of_view view
    cases result with
    | ok r => exact ⟨settled'.recordSell sell, settled'.framed⟩
    | error e =>
        dsimp only
        split
        · exact refused _ _ _ f' g' settled'
        · exact refused _ _ _ f' g' settled'
  intro f g settled
  have sells : req.side ≠ .buy := by
    rw [side, sell]
    rintro ⟨⟩
  have cleared : Settled frame f { g with notes := { g.notes with phase := .clear } } :=
    ⟨⟨settled.toBooked.of_view rfl rfl rfl, (fun _ doubt => by cases doubt), settled.total⟩, settled.framed⟩
  refine ⟨(fun _ other buy => ?_), ?_⟩
  · cases other
    exact absurd buy sells
  rintro answer g' ⟨sent, -, rfl⟩
  have log : g.next spec venue sent (.place req) answer = { g with notes := { g.notes with phase := .clear } } := by
    rcases answer with e | _ | _ | _ | _
    all_goals simp [CoverLog.next, CoverNotes.next, settledEntries, finalReport, sendsCover, sells]
  rw [log]
  rcases answer with e | _ | _ | _ | ⟨reason, order⟩
  case error => exact refused _ _ _ f _ cleared
  case ok.validatedOnly => exact refused _ _ _ f _ cleared
  case ok.rejected => exact refused _ _ _ f _ cleared
  case ok.accepted => exact recorded _ false f _ ⟨cleared, rfl⟩
  case ok.unknownOutcome =>
    refine ⟨(fun _ other => by cases other), ?_⟩
    rintro answer g' ⟨again, -, rfl⟩
    have same : CoverLog.next spec venue again { g with notes := { g.notes with phase := .clear } }
        (.findByTag leg.tag) answer = { g with notes := { g.notes with phase := .clear } } := by
      simp [CoverLog.next, CoverNotes.next, settledEntries, finalReport, sendsCover]
    rw [same]
    rcases answer with e | _ | ⟨o, others⟩
    · exact refused _ _ _ f _ cleared
    · exact later reason f _ cleared
    · exact recorded _ true f _ ⟨cleared, rfl⟩

/-! ## Placing -/

variable [Sha256]

theorem freeTagFrom_keeps {P : Flattener → CoverLog → Prop} (stable : ∀ f f' g, P f g → f'.view = f.view → P f' g)
    (calm : ∀ f g, P f g → ∀ sent, g.notes.phase ≠ .doubt sent) (symbol : String) (side : Side) :
    ∀ left k, Triple (coverLaw spec venue) P (freeTagFrom spec symbol side k left) fun _ => P := by
  intro left
  induction left with
  | zero => exact fun k f g holds => stable f _ g holds rfl
  | succ left ih =>
      intro k f g holds
      refine ⟨(fun _ other => nomatch other), ?_⟩
      rintro answer g' ⟨sent, -, rfl⟩
      have same (tag : String) (answer : (BrokerOp.findByTag tag).Answer) :
          CoverLog.next spec venue sent g (.findByTag tag) answer = g := by
        refine CoverLog.next_same rfl rfl ?_
        cases phase : g.notes.phase with
        | doubt unknown => exact absurd phase (calm f g holds unknown)
        | clear => simp [CoverNotes.next, phase]
        | listed => simp [CoverNotes.next, phase]
        | settling id => simp [CoverNotes.next, phase]
      rw [same]
      rcases answer with e | _ | ⟨o, others⟩
      · exact stable f _ g holds rfl
      · exact holds
      · exact ih (k + 1) f g holds

theorem placeLeg_sell (symbol : String) (qty price : Dec) : Triple (coverLaw spec venue) (Settled frame)
    (placeLeg spec symbol .sell qty price) fun _ => Settled frame := by
  refine (freeTagFrom_keeps (fun _ _ _ settled view => settled.of_view view) (fun _ _ settled => settled.calm)
    symbol .sell _ _).bind fun tag => ?_
  cases tag with
  | none => exact fun _ _ settled => settled
  | some tag =>
      refine sendLeg_sell rfl rfl fun _ => sendLeg_sell rfl rfl fun _ => ?_
      refine (fail_keeps (fun _ _ _ settled view => settled.of_view view) _ _).bind fun _ => ?_
      exact fun f g settled => ⟨settled.recordSell rfl, settled.framed⟩

omit [DebugText] [Sha256] in
theorem Ready.retag (ready : Ready leg frame f g) (tag : String) : Ready { leg with tag } frame f g :=
  ⟨ready.toSettled, ready.buy, ready.named, ready.room⟩

theorem placeLeg_counts (symbol : String) (qty price : Dec) : Triple (coverLaw spec venue)
    (Ready ⟨"", symbol, .buy, qty⟩ frame) (placeLeg spec symbol .buy qty price) fun _ => Settled frame := by
  refine (freeTagFrom_keeps (fun _ _ _ ready view => ready.of_view view) (fun _ _ ready => ready.calm)
    symbol .buy _ _).bind fun tag => ?_
  cases tag with
  | none => exact fun _ _ ready => ready.toSettled
  | some tag =>
      intro f g ready
      refine sendLeg_counts rfl rfl rfl (fun _ => sendLeg_counts rfl rfl rfl fun _ => ?_) f g (ready.retag tag)
      refine (fail_keeps (fun _ _ _ ready view => ready.of_view view) _ _).bind fun _ => ?_
      exact fun f g ready => ready.recordNothing rfl Dec.atto_zero

/-! ## The allowance -/

omit [DebugText] [Sha256] in
theorem Settled.noteFirst (settled : Settled frame f g) {key : String} {qty : Dec}
    (first : f.firstShort[key]? = none → Fits 128 qty.atto ∧ qty.atto ≤ (g.notes.firstSeen key).getD 0) :
    Settled { frame with firstShort := frame.firstShort.insertIfNew key qty }
      { f with firstShort := f.firstShort.insertIfNew key qty } g := by
  have noted (other : String) : (f.firstShort.insertIfNew key qty)[other]? =
      if key = other ∧ f.firstShort[key]? = none then some qty else f.firstShort[other]? := by
    rw [Std.ExtTreeMap.getElem?_insertIfNew]
    simp
  refine ⟨⟨⟨settled.known, settled.spelled, ?_, ?_⟩, settled.calm, settled.total⟩, ?_⟩
  · intro other d found
    rw [noted] at found
    split at found
    next new =>
      obtain ⟨rfl, missing⟩ := new
      obtain rfl := Option.some.inj found
      obtain ⟨fits, seen⟩ := first missing
      refine ⟨fits, ?_, seen⟩
      exact (settled.unseen key missing).le.trans (le_max_left _ _)
    next => exact settled.first other d found
  · intro other missing
    rw [noted] at missing
    split at missing
    · cases missing
    · exact settled.unseen other missing
  · rw [← settled.framed]
    rfl

omit [DebugText] [Sha256] in
theorem Settled.ready (settled : Settled frame f g) {symbol : String} {first q : Dec}
    (named : symbol ∈ g.notes.symbols) (found : f.firstShort[toUppercase symbol]? = some first)
    (positive : (subOrZero first (coverQuantityUsed f.orders symbol)).isPositive = true)
    (within : q.atto ≤ (subOrZero first (coverQuantityUsed f.orders symbol)).atto) :
    Ready ⟨"", symbol, .buy, q⟩ frame f g := by
  have nonneg : ∀ o ∈ f.orders, o.side = .buy → 0 ≤ o.counted :=
    fun o member buy => (settled.known o member buy).2
  have used : (coverQuantityUsed f.orders symbol).atto = coveredOf f.orders (toUppercase symbol) := by
    obtain ⟨range, covered, -⟩ := settled.first _ first found
    refine coverQuantityUsed_eq nonneg ?_ ?_
    · intro o member buy alike
      exact settled.spelled _ (settled.known o member buy).1 _ named alike
    · rcases le_or_gt 0 first.atto with least | negative
      · rw [max_eq_right least] at covered
        exact range.of_le (coveredOf_nonneg nonneg _) covered
      · rw [max_eq_left negative.le] at covered
        rw [le_antisymm covered (coveredOf_nonneg nonneg _)]
        decide
  refine ⟨settled, rfl, named, first, found, ?_⟩
  unfold subOrZero at positive within
  split at positive
  next d subtracted =>
    simp only [subtracted] at within
    rw [sub_ok subtracted, used] at within
    simp only
    omega
  next => simp [Dec.isPositive_iff] at positive

theorem cover_counts (symbol : String) (qty price : Dec) : Triple (coverLaw spec venue)
    (fun f g => Settled frame f g ∧ symbol ∈ g.notes.symbols ∧ (f.firstShort[toUppercase symbol]? = none →
      Fits 128 qty.atto ∧ qty.atto ≤ (g.notes.firstSeen (toUppercase symbol)).getD 0))
    (cover spec venue symbol qty price)
    fun _ => Settled { frame with firstShort := frame.firstShort.insertIfNew (toUppercase symbol) qty } := by
  have noted : Triple (coverLaw spec venue)
      (fun f g => Settled frame f g ∧ symbol ∈ g.notes.symbols ∧ (f.firstShort[toUppercase symbol]? = none →
        Fits 128 qty.atto ∧ qty.atto ≤ (g.notes.firstSeen (toUppercase symbol)).getD 0))
      (modify fun f => { f with firstShort := f.firstShort.insertIfNew (toUppercase symbol) qty })
      fun _ f g => Settled { frame with firstShort := frame.firstShort.insertIfNew (toUppercase symbol) qty } f g ∧
        symbol ∈ g.notes.symbols ∧ ∃ first, f.firstShort[toUppercase symbol]? = some first := by
    rintro f g ⟨before, named, seen⟩
    refine ⟨before.noteFirst seen, named, ?_⟩
    rw [← Option.isSome_iff_exists]
    simp
  refine noted.bind fun _ => Triple.reading fun _ => ?_
  rintro f g ⟨rfl, settled, named, first, found⟩
  have firstIs : f.firstShort.getD (toUppercase symbol) qty = first := by
    rw [Std.ExtTreeMap.getD_eq_getD_getElem?, found, Option.getD_some]
  dsimp only
  rw [firstIs]
  split
  · exact settled.of_view rfl
  next positive =>
    rw [Bool.not_eq_true', Bool.not_eq_false] at positive
    split
    · cases sized : coverSize spec venue symbol (subOrZero first (coverQuantityUsed f.orders symbol)) price with
      | none => exact settled.of_view rfl
      | some q =>
          have within : q ≤ subOrZero first (coverQuantityUsed f.orders symbol) := by
            unfold coverSize at sized
            split at sized
            · cases sized
            split at sized
            · split at sized
              next le =>
                obtain rfl := Option.some.inj sized
                exact le
              next => cases sized
            · cases sized
          exact placeLeg_counts symbol q price f g (settled.ready named found positive (Dec.le_iff.1 within))
    next enough =>
      rw [Dec.lt_iff, not_lt] at enough
      exact placeLeg_counts symbol qty price f g (settled.ready named found positive enough)

/-! ## The covers of a round -/

/-- Everything sent is counted, and the symbols in `named` have a first short. -/
structure Noted (named : List String) (symbols : List String) (firstSeen : String → Option Int) (f : Flattener)
    (g : CoverLog) : Prop extends Counts f g where
  symbols_eq : g.notes.symbols = symbols
  firstSeen_eq : g.notes.firstSeen = firstSeen
  seen : ∀ s ∈ named, (f.firstShort[toUppercase s]?).isSome

theorem covers_count {old symbols : List String} {firstSeen : String → Option Int} {covers : List Close}
    (listed : ∀ c ∈ covers, c.symbol ∈ symbols)
    (fit : ∀ c ∈ covers, (∀ s ∈ old, toUppercase s ≠ toUppercase c.symbol) →
      covers.find? (fun c' => toUppercase c'.symbol == toUppercase c.symbol) = some c →
        Fits 128 c.quantity.atto ∧ c.quantity.atto ≤ (firstSeen (toUppercase c.symbol)).getD 0) :
    ∀ remaining finished, covers = finished ++ remaining → Triple (coverLaw spec venue)
      (Noted (old ++ finished.map Close.symbol) symbols firstSeen)
      (remaining.forM fun c => cover spec venue c.symbol c.quantity c.price)
      fun _ => Noted (old ++ covers.map Close.symbol) symbols firstSeen := by
  intro remaining
  induction remaining with
  | nil =>
      intro finished whole f g noted
      rw [whole, List.append_nil]
      exact noted
  | cons c remaining ih =>
      intro finished whole
      have member : c ∈ covers := by simp [whole]
      refine Triple.bind ?_ fun _ => ih (finished ++ [c]) (by simp [whole])
      intro f g noted
      have settled : Settled (frameOf f g.notes) f g := ⟨noted.toCounts, rfl⟩
      refine (cover_counts c.symbol c.quantity c.price f g ⟨settled, ?_, ?_⟩).mono ?_
      · rw [noted.symbols_eq]
        exact listed c member
      · intro missing
        -- nothing before this cover has its symbol
        have new : ∀ s ∈ old ++ finished.map Close.symbol, toUppercase s ≠ toUppercase c.symbol := by
          intro s among same
          have present := noted.seen s among
          rw [same, missing] at present
          cases present
        rw [noted.firstSeen_eq]
        refine fit c member (fun s among => new s (by simp [among])) ?_
        rw [whole, List.find?_append, List.find?_eq_none.2, Option.none_or, List.find?_cons_of_pos (by simp)]
        intro c' among
        have other := new c'.symbol (List.mem_append_right _ (List.mem_map_of_mem among))
        simpa using other
      · rintro ⟨_, f'⟩ g' after
        have frame : f'.firstShort = f.firstShort.insertIfNew (toUppercase c.symbol) c.quantity ∧
            g'.notes.symbols = g.notes.symbols ∧ g'.notes.firstSeen = g.notes.firstSeen := by
          have framed := after.framed
          simp only [frameOf, Frame.mk.injEq] at framed
          exact framed
        obtain ⟨firstShort, symbols, firstSeen⟩ := frame
        refine ⟨after.toCounts, symbols.trans noted.symbols_eq, firstSeen.trans noted.firstSeen_eq, ?_⟩
        intro s among
        simp only [firstShort, Std.ExtTreeMap.getElem?_insertIfNew, Std.compare_eq_iff_eq]
        split
        · rfl
        next other =>
          rw [List.map_append, ← List.append_assoc, List.mem_append] at among
          rcases among with before | last
          · exact noted.seen s before
          · obtain rfl : s = c.symbol := by simpa using last
            rw [not_and, not_not] at other
            exact Std.ExtTreeMap.mem_iff_isSome_getElem?.1 (other rfl)

theorem trade_counts {old symbols : List String} {firstSeen : String → Option Int} {plan : SellPlan}
    (listed : ∀ c ∈ plan.covers, c.symbol ∈ symbols)
    (fit : ∀ c ∈ plan.covers, (∀ s ∈ old, toUppercase s ≠ toUppercase c.symbol) →
      plan.covers.find? (fun c' => toUppercase c'.symbol == toUppercase c.symbol) = some c →
        Fits 128 c.quantity.atto ∧ c.quantity.atto ≤ (firstSeen (toUppercase c.symbol)).getD 0) :
    Triple (coverLaw spec venue) (Noted old symbols firstSeen) (trade spec venue plan)
      fun _ => Noted (old ++ plan.covers.map Close.symbol) symbols firstSeen := by
  have covered : Triple (coverLaw spec venue) (Noted (old ++ [].map Close.symbol) symbols firstSeen)
      (plan.covers.forM fun c => cover spec venue c.symbol c.quantity c.price)
      fun _ => Noted (old ++ plan.covers.map Close.symbol) symbols firstSeen :=
    covers_count listed fit plan.covers [] rfl
  rw [List.map_nil, List.append_nil] at covered
  refine covered.bind fun _ => Triple.forM fun c _ f g noted => ?_
  have settled : Settled (frameOf f g.notes) f g := ⟨noted.toCounts, rfl⟩
  refine (placeLeg_sell c.symbol c.quantity c.price f g settled).mono ?_
  rintro ⟨_, f'⟩ g' after
  have framed := after.framed
  simp only [frameOf, Frame.mk.injEq] at framed
  refine ⟨after.toCounts, framed.2.1.trans noted.symbols_eq, framed.2.2.trans noted.firstSeen_eq, ?_⟩
  simp only [framed.1]
  exact noted.seen

/-! ## The rounds -/

structure Rested (f : Flattener) (g : CoverLog) : Prop extends Counts f g where
  seen : ∀ s ∈ g.notes.symbols, (f.firstShort[toUppercase s]?).isSome

omit [DebugText] [Sha256] in
theorem coversFit_spec {n : CoverNotes} {snap : BrokerSnapshot} (fit : coversFit spec venue n snap = true) :
    (∀ s ∈ n.symbols ++ (planSells spec venue snap).covers.map Close.symbol,
      ∀ t ∈ n.symbols ++ (planSells spec venue snap).covers.map Close.symbol,
        toUppercase s = toUppercase t → eqIgnoreAsciiCase s t = true) ∧
    ∀ c ∈ (planSells spec venue snap).covers, (∀ s ∈ n.symbols, toUppercase s ≠ toUppercase c.symbol) →
      (planSells spec venue snap).covers.find? (fun c' => toUppercase c'.symbol == toUppercase c.symbol) = some c →
        Fits 128 c.quantity.atto ∧
          c.quantity.atto ≤ (noteShorts n.firstSeen snap (toUppercase c.symbol)).getD 0 := by
  simp only [coversFit, Bool.and_eq_true, List.all_eq_true, Bool.or_eq_true, bne_iff_ne, decide_eq_true_eq,
    List.any_eq_true, beq_iff_eq] at fit
  obtain ⟨spelled, sized⟩ := fit
  refine ⟨fun s among t amongToo same => ?_, fun c member new first => ?_⟩
  · exact (spelled s among t amongToo).resolve_left (by simp [same])
  · rcases sized c member with (⟨s, among, same⟩ | other) | fits
    · exact absurd same (new s among)
    · exact absurd first other
    · exact ⟨fits.2, fits.1⟩

omit [DebugText] [Sha256] in
theorem Rested.read {snap : BrokerSnapshot} {sent : Bool} {now : Instant} (rested : Rested f g)
    (listed : g.notes.phase = .listed) (fit : coversFit spec venue g.notes snap = true) :
    Noted g.notes.symbols (g.notes.symbols ++ (planSells spec venue snap).covers.map Close.symbol)
      (noteShorts g.notes.firstSeen snap) f (g.next spec venue sent (.snapshot now) (.ok snap)) := by
  have log : g.next spec venue sent (.snapshot now) (.ok snap) =
      ⟨g.entries, .clear, g.notes.symbols ++ (planSells spec venue snap).covers.map Close.symbol,
        noteShorts g.notes.firstSeen snap⟩ := by
    simp [CoverLog.next, CoverNotes.next, settledEntries, finalReport, sendsCover, listed]
  rw [log]
  refine ⟨⟨⟨?_, (coversFit_spec fit).1, ?_, rested.unseen⟩, (fun _ doubt => by cases doubt), rested.total⟩, rfl, rfl,
    rested.seen⟩
  · intro o member buy
    obtain ⟨named, nonneg⟩ := rested.known o member buy
    exact ⟨List.mem_append_left _ named, nonneg⟩
  · intro key d found
    obtain ⟨range, covered, seen⟩ := rested.first key d found
    exact ⟨range, covered, seen.trans (noteShorts_le g.notes.firstSeen snap key)⟩

omit [DebugText] [Sha256] in
theorem Rested.phase {f : Flattener} {g : CoverLog} (rested : Rested f g) {phase : CoverPhase}
    (calm : ∀ sent, phase ≠ .doubt sent) : Rested f { g with notes := { g.notes with phase } } :=
  ⟨⟨rested.toBooked.of_view rfl rfl rfl, calm, rested.total⟩, rested.seen⟩

omit [DebugText] [Sha256] in
theorem Rested.of_view (rested : Rested f g) (view : f'.view = f.view) : Rested f' g := by
  refine ⟨rested.toCounts.of_view view, ?_⟩
  rw [(Prod.mk.inj view).2]
  exact rested.seen

omit [Sha256] in
theorem cancelOwnOpenOrders_counts : Triple (coverLaw spec venue) Rested (cancelOwnOpenOrders spec)
    fun listed f g => Rested f g ∧ (listed = true → g.notes.phase = .listed) := by
  intro f g rested
  refine ⟨(fun _ other => by cases other), ?_⟩
  rintro answer g' ⟨sent, -, rfl⟩
  cases answer with
  | error e =>
      have log : g.next spec venue sent .openOrders (.error e) = { g with notes := { g.notes with phase := .clear } } := by
        simp [CoverLog.next, CoverNotes.next, settledEntries, finalReport, sendsCover]
      rw [log]
      have clear : Rested f { g with notes := { g.notes with phase := .clear } } :=
        rested.phase fun _ doubt => by cases doubt
      exact ⟨clear.of_view rfl, fun listed => by cases listed⟩
  | ok orders =>
      have log : g.next spec venue sent .openOrders (.ok orders) = { g with notes := { g.notes with phase := .listed } } := by
        simp [CoverLog.next, CoverNotes.next, settledEntries, finalReport, sendsCover]
      rw [log]
      have listed : Rested f { g with notes := { g.notes with phase := .listed } } :=
        rested.phase fun _ doubt => by cases doubt
      change Prog.Obeys _ ((orders.forM (cancelOpenOrder spec) >>= fun _ => pure true : FlattenM Bool) f) _ _
      apply Prog.Obeys.bind
      have still : Still spec venue (orders.forM (cancelOpenOrder spec)) :=
        Still.forM fun o _ => Still.cancelOpenOrder o
      refine (still f.view { g with notes := { g.notes with phase := .listed } } (.inr rfl) f _ ⟨rfl, rfl⟩).mono ?_
      rintro ⟨_, f'⟩ g' ⟨view, rfl⟩
      exact ⟨listed.of_view view, fun _ => rfl⟩

theorem runRounds_covers : ∀ left at_, Triple (coverLaw spec venue) Rested (runRounds spec venue at_ left)
    fun _ _ _ => True := by
  intro left
  induction left with
  | zero => exact fun _ _ _ _ => trivial
  | succ left ih =>
      intro at_
      refine cancelOwnOpenOrders_counts.bind fun listed => ?_
      rintro f g ⟨rested, phase⟩
      cases listed with
      | false => exact trivial
      | true =>
          refine ⟨(fun _ other => nomatch other), ?_⟩
          rintro now g' ⟨_, -, rfl⟩
          rw [CoverLog.next_same rfl rfl rfl]
          refine ⟨(fun _ other => nomatch other), ?_⟩
          rintro answer g' ⟨sent, fair, rfl⟩
          cases answer with
          | error e => exact trivial
          | ok snap =>
              have fit : coversFit spec venue g.notes snap = true := by
                simpa [rightAnswer, phase rfl] using fair.2.2
              change Prog.Obeys _ ((if ((planSells spec venue snap).covers.isEmpty &&
                (planSells spec venue snap).sells.isEmpty) = true then _ else _ : FlattenM Rounds) f) _ _
              split
              · exact trivial
              · apply Prog.Obeys.bind
                refine (trade_counts (fun c member => ?_) (coversFit_spec fit).2 f _ (rested.read (phase rfl) fit)).mono ?_
                · exact List.mem_append_right _ (List.mem_map_of_mem member)
                · rintro ⟨_, f'⟩ g' noted
                  refine ih _ f' g' ⟨noted.toCounts, ?_⟩
                  rw [noted.symbols_eq]
                  exact noted.seen

omit [Sha256] in
theorem verify_covers (at_ : Rounds) : Triple (coverLaw spec venue) (fun _ _ => True) (verify spec venue at_)
    fun _ _ _ => True := by
  intro f g _
  refine ⟨(fun _ other => nomatch other), ?_⟩
  intro now g' _
  refine ⟨(fun _ other => nomatch other), ?_⟩
  intro answer g'' _
  cases answer with
  | error e => exact trivial
  | ok snap =>
      obtain ⟨f', looked, -⟩ := verifyWith_eq spec venue snap f
      change Prog.Obeys _ (verifyWith spec venue snap f) g'' _
      rw [looked]
      exact trivial

theorem flatten_covers : (flatten spec venue).Obeys (coverLaw spec venue) ⟨[], .start⟩ fun _ _ => True := by
  have start : Rested Flattener.new ⟨[], .start⟩ := by
    refine ⟨⟨⟨?_, ?_, ?_, ?_⟩, (fun _ doubt => by cases doubt), ?_⟩, ?_⟩
    · simp [Flattener.new]
    · simp [CoverNotes.start]
    · simp [Flattener.new]
    · simp [Flattener.new, coveredOf]
    · simp [Flattener.new, coveredOf, totalOf]
    · simp [CoverNotes.start]
  have whole : Triple (coverLaw spec venue) Rested (flattenCall spec venue) fun _ _ _ => True := by
    have clock : Triple (coverLaw spec venue) Rested Broker.now fun _ => Rested := by
      intro f g rested
      refine ⟨(fun _ other => by cases other), ?_⟩
      rintro now g' ⟨_, -, rfl⟩
      rw [CoverLog.next_same rfl rfl rfl]
      exact rested
    refine clock.bind fun startedAt => ?_
    refine (runRounds_covers spec.maxRounds ⟨0, [], []⟩).bind fun done => ?_
    refine (verify_covers done).bind fun checked f g _ => ?_
    refine ⟨(fun _ other => by cases other), ?_⟩
    intro finishedAt g' _
    exact trivial
  apply Prog.Obeys.bind
  exact (whole _ _ start).mono fun _ _ _ => trivial

/-- As long as the broker's last word on each cover is right, the covers of a call
    have not executed, and cannot execute, more than the short first seen. -/
theorem covers_within_first_short {events : List CoverEvent}
    {c : Config BrokerOp BrokerOp.Answer CoverWorld FlattenReport}
    (guarded : (coverMachine spec venue).Guarded (HonestStep spec venue) ⟨flatten spec venue, .start⟩ events)
    (ran : (coverMachine spec venue).run ⟨flatten spec venue, .start⟩ events = some c) (key : String) :
    c.world.total key ≤ (c.world.notes.firstSeen key).getD 0 := by
  have start : Tracks ⟨[], .start⟩ .start := ⟨rfl, .nil, fun _ => le_refl 0⟩
  have ends : Machine.Ends (coverLaw spec venue) Tracks (fun _ _ => True) c :=
    Machine.Ends.run (fun tracks _ moved => tracks.move moved)
      (fun tracks allowed right replied => tracks.reply allowed right replied)
      ⟨_, flatten_covers, start⟩ guarded ran
  obtain ⟨g, -, tracks⟩ := ends
  have within := tracks.fits key
  rw [tracks.notes] at within
  exact (CoverWorld.total_le tracks key).trans within

end Accounts

/-! ## A cover that stays live -/

namespace LiveCover

open RebalancerCore (VenueRules InstrumentRules)
open RebalancerCore.Amount (cents)

@[reducible] private def coverHash : Sha256 where
  hexDigest text :=
    if text = "flatten:fund:halt1:SPY:cover:1" then
      "428b7f43c9ea50fe3ced104f46f0c536e3379c44c71457d8ad71cd993b3abe3d"
    else "4c7287bc9b7ab5de0124f207c3713032ef52087c4f30ad27cdf026fb4af60dfb"

@[reducible] private def quoted : DebugText := ⟨fun s => "\"" ++ s ++ "\""⟩

attribute [local instance] asciiCase coverHash quoted

private def halt : FlattenSpec :=
  FlattenSpec.new "fund" "halt1" (.ofList ["SPY"])
    ⟨.ofList [("alpaca", VenueRules.anySize)], InstrumentRules.empty⟩ ∅

private def minus (d : Dec) : Dec :=
  match RebalancerCore.DecMath.neg d with
  | .ok negated => negated
  | .error _ => d

private def short (shares : Fin (10 ^ 9)) : BrokerSnapshot where
  venue := "alpaca"
  ccy := "USD"
  equity := cents 100000
  cash := cents 200000
  holdings := [⟨"SPY", "us_equity", minus (cents shares), some (cents 10000), minus (cents (shares * 100))⟩]
  unvalued := []
  openOrders := []
  takenAt := 0
  derivedEquity := cents 100000

private def coverTag (k : Nat) : String := flattenCoverTag "fund" "halt1" "SPY" k

private def buyBack (k : Nat) (shares : Fin (10 ^ 9)) : OrderRequest :=
  { OrderRequest.market (coverTag k) "SPY" .buy (cents shares) with referencePrice := some (cents 10000) }

private def sentCover : SentOrder := ⟨"SPY", .buy, cents 1000, none, 0, false⟩

private def report (status : OrderStatus) (executed : Fin (10 ^ 9)) : OrderReport :=
  ⟨"id1", some (coverTag 1), "SPY", some .buy, status, cents 1000, cents executed, none, none, none⟩

/-- A first round that sends a cover of the ten shares. -/
private def coverRound : List CoverEvent :=
  [.reply .now (0 : Int), .reply .openOrders (.ok []), .reply .now (0 : Int), .reply (.snapshot 0) (.ok (short 1000)),
    .reply (.findByTag (coverTag 1)) (.ok []),
    .reply (.place (buyBack 1 1000)) (.ok (.accepted "id1" none sentCover []))]

private def part : OrderReport := report .partiallyFilled 400

/-- Four shares are bought and the cancel has no effect; the next round buys six more. -/
private def coverAgain : List CoverEvent :=
  [.move (.fill 0 (4 * 10 ^ 18)), .reply (.getOrder "id1") (.ok part), .reply (.sleepSecs 1) (),
    .reply (.getOrder "id1") (.ok part), .reply (.sleepSecs 1) (), .reply (.getOrder "id1") (.ok part),
    .reply (.cancelAndSettle "id1") (.ok (⟨0, false⟩, part)), .reply .openOrders (.ok [part]),
    .reply (.cancelAndSettle "id1") (.error (.transport .timeout)), .reply .now (0 : Int),
    .reply (.snapshot 0) (.ok (short 600)), .reply (.findByTag (coverTag 1)) (.ok [part]),
    .reply (.findByTag (coverTag 2)) (.ok []),
    .reply (.place (buyBack 2 600)) (.ok (.accepted "id2" none sentCover []))]

private def boundAfter (events : List CoverEvent) : Option (Int × Option Int) :=
  ((coverMachine halt "alpaca").run ⟨flatten halt "alpaca", .start⟩ events).map fun c =>
    (c.world.total "SPY", c.world.notes.firstSeen "SPY")

/-- Ten shares were short, and sixteen can be bought. -/
theorem live_cover_bought_twice :
    ∃ (events : List CoverEvent) (c : Config BrokerOp BrokerOp.Answer CoverWorld FlattenReport),
      (coverMachine halt "alpaca").run ⟨flatten halt "alpaca", .start⟩ events = some c ∧
        c.world.notes.firstSeen "SPY" = some (10 * 10 ^ 18) ∧ c.world.total "SPY" = 16 * 10 ^ 18 := by
  have beyond : boundAfter (coverRound ++ coverAgain) = some (16 * 10 ^ 18, some (10 * 10 ^ 18)) := by decide +kernel
  obtain ⟨c, ran, bound⟩ := Option.map_eq_some_iff.1 beyond
  obtain ⟨total, first⟩ := Prod.mk.inj bound
  exact ⟨coverRound ++ coverAgain, c, ran, first, total⟩

private def filled : List CoverEvent :=
  coverRound ++ [.move (.fill 0 (10 ^ 19)), .move (.finish 0), .reply (.getOrder "id1") (.ok (report .filled 1000))]

theorem filled_cover_within :
    ∃ c, (coverMachine halt "alpaca").run ⟨flatten halt "alpaca", .start⟩ filled = some c ∧
      c.world.total "SPY" = 10 ^ 19 ∧ c.world.total "SPY" ≤ (c.world.notes.firstSeen "SPY").getD 0 := by
  have guarded : (coverMachine halt "alpaca").Guarded (HonestStep halt "alpaca")
      ⟨flatten halt "alpaca", .start⟩ filled := by
    decide +kernel
  have bound : boundAfter filled = some (10 ^ 19, some (10 ^ 19)) := by decide +kernel
  obtain ⟨c, ran, totals⟩ := Option.map_eq_some_iff.1 bound
  exact ⟨c, ran, (Prod.mk.inj totals).1, covers_within_first_short guarded ran "SPY"⟩

end LiveCover

end RebalancerRun
