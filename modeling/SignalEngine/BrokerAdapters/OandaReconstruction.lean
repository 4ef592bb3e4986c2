import SignalEngine.BrokerAdapters.OandaTransactions

/-! # Two reconstructions of an order

The same page of transactions tells about an order twice: the scan for its tag
gathers what it can read, the look-up by its id stops at the first record it
cannot. Both say the same as long as nothing that counts is unreadable.
-/

open MachineInt Outcome Text

namespace BrokerAdapters.Oanda

/-! ## Sizes -/

theorem absDec_units {d : Dec} (readable : d.units.val ≠ -2 ^ 127) : (absDec d).units.val = |d.units.val| := by
  unfold absDec
  by_cases negative : d.isNegative = true
  · have below : d.units.val < 0 := by simpa [Dec.isNegative] using negative
    obtain ⟨lower, upper⟩ := d.units.fits
    have fits : Fits 128 (-d.units.val) := ⟨by omega, by omega⟩
    have turned : (Dec.negate true d.units).val.val = -d.units.val := by
      have exact := Arith.unchecked_of_fits fits
      simp only [Dec.negate, if_true]
      rw [exact]
      rfl
    have made : Dec.new (Dec.negate true d.units).val d.scale = .ok ⟨(Dec.negate true d.units).val, d.scale, d.scale_le⟩ := by
      simp [Dec.new, d.scale_le]
    rw [if_pos negative, made]
    simp only [Except.toOption, Option.getD_some]
    rw [turned, abs_of_neg below]
  · have above : 0 ≤ d.units.val := by simpa [Dec.isNegative] using negative
    rw [if_neg negative, abs_of_nonneg above]

theorem absDec_not_negative {d : Dec} (readable : d.units.val ≠ -2 ^ 127) : (absDec d).isNegative = false := by
  simp [Dec.isNegative, absDec_units readable, abs_nonneg]

theorem absDec_isPositive {d : Dec} (readable : d.units.val ≠ -2 ^ 127) : (absDec d).isPositive = !d.isZero := by
  rw [Bool.eq_iff_iff]
  simp [Dec.isPositive, Dec.isZero, absDec_units readable]

theorem decFromValue_readable {field : String} {v : Value} {d : Dec} (read : decFromValue field v = .ok d) :
    d.units.val ≠ -2 ^ 127 := by
  unfold decFromValue at read
  obtain ⟨text, -, parsed⟩ := bind_eq_ok.1 read
  exact Dec.parse_readable (toOption_eq_some.1 (okOr_eq_ok.1 parsed))

theorem optDec_readable {obj : Value} {field : String} {d : Dec} (read : optDec obj field = .ok (some d)) :
    d.units.val ≠ -2 ^ 127 := by
  unfold optDec at read
  split at read
  · cases read
  · cases read
  next v _ _ =>
    cases number : decFromValue field v with
    | error e =>
        rw [number] at read
        cases read
    | ok d' =>
        rw [number] at read
        obtain rfl := Option.some.inj (Except.ok.inj read)
        exact decFromValue_readable number

theorem reqDec_readable {obj : Value} {field : String} {d : Dec} (read : reqDec obj field = .ok d) :
    d.units.val ≠ -2 ^ 127 := by
  unfold reqDec at read
  obtain ⟨o, found, given⟩ := bind_eq_ok.1 read
  obtain rfl := okOr_eq_ok.1 given
  exact optDec_readable found

section

variable [DebugText]

theorem parseFill_ok {v : Value} {f : FillInfo} (read : parseFill v = .ok f) :
    optStr v "orderID" = some f.orderId ∧ f.units.units.val ≠ -2 ^ 127 := by
  unfold parseFill at read
  simp only [bind_eq_ok, pure_eq_ok] at read
  obtain ⟨id, -, orderId, order, name, -, instrument, -, units, size, price, -, pl, -, commission, -, financing, -, rfl⟩ := read
  exact ⟨okOr_eq_ok.1 order, reqDec_readable size⟩

theorem parseCreate_ok {v : Value} {c : CreateInfo} (read : parseCreate v = .ok c) :
    ∀ u, c.units = some u → u.units.val ≠ -2 ^ 127 := by
  unfold parseCreate at read
  simp only [bind_eq_ok, pure_eq_ok] at read
  obtain ⟨id, -, instrument, -, units, size, price, -, rfl⟩ := read
  intro u ordered
  simp only at ordered
  subst ordered
  exact optDec_readable size

/-! ## Reports -/

/-- What a report tells about the execution of an order; nothing is said by an error. -/
def told (x : Except BrokerError OrderReport) : Option (OrderStatus × Dec × Dec) :=
  x.toOption.map fun r => (r.status, r.quantity, r.executedQuantity)

/-- The fill is one of the order: some units, no more than ordered, on the same side. -/
def Within (c : CreateInfo) (f : FillInfo) : Prop :=
  f.units.isZero = false ∧
    ∀ u, c.units = some u → ¬ absDec u < absDec f.units ∧ f.units.isNegative = u.isNegative

/-- The transactions of an order as they were read. -/
structure Read (order : TaggedOrder) : Prop where
  create : ∀ c, order.create = some c → ∀ u, c.units = some u → u.units.val ≠ -2 ^ 127
  fills : ∀ f ∈ order.fills, f.orderId = order.orderId ∧ f.units.units.val ≠ -2 ^ 127

def CreateInfo.size (c : CreateInfo) : Dec := (c.units.map absDec).getD .zero

variable {order : TaggedOrder} {tag ownPrefix : Option String}

theorem told_of_no_create (missing : order.create = none) : told (order.report tag ownPrefix) = none := by
  unfold TaggedOrder.report TaggedOrder.resource
  rw [missing]
  by_cases many : order.fills.length > 1
  · rw [refuse_of many]
    rfl
  · rw [refuse_of_not many]
    rfl

theorem told_of_fills (many : order.fills.length > 1) : told (order.report tag ownPrefix) = none := by
  unfold TaggedOrder.report
  rw [refuse_of many]
  rfl

section Derive

variable {state : String} {ordered : Option Dec} {executed : Dec} {reason : Option String}

theorem derive_pending (fits : refuseOverfill "PENDING" ordered .zero = .ok ()) :
    deriveOrderStatus "PENDING" ordered .zero reason = .ok .open := by
  unfold deriveOrderStatus
  rw [refuse_of_not (by decide), fits]
  rfl

theorem derive_cancelled (fits : refuseOverfill "CANCELLED" ordered .zero = .ok ()) :
    deriveOrderStatus "CANCELLED" ordered .zero reason =
      .ok (if reason = some "TIME_IN_FORCE_EXPIRED" then .expired else .canceled) := by
  unfold deriveOrderStatus
  rw [refuse_of_not (by decide), fits]
  by_cases expired : reason = some "TIME_IN_FORCE_EXPIRED"
  · rw [if_pos expired, expired]
    rfl
  · simp only [if_neg expired, decide_eq_false expired]
    rfl

def filledStatus (ordered : Option Dec) (executed : Dec) : OrderStatus :=
  match ordered with
  | some q => if executed < q then .partiallyFilledThenCanceled else .filled
  | none => .filled

theorem derive_filled (sized : executed.isNegative = false) (fits : refuseOverfill "FILLED" ordered executed = .ok ())
    (some : executed.isPositive = true) : deriveOrderStatus "FILLED" ordered executed reason = .ok (filledStatus ordered executed) := by
  unfold deriveOrderStatus
  rw [refuse_of_not (by simp [sized]), fits]
  simp only [ok_bind, some, reduceIte, Bool.not_true, Bool.false_eq_true, show ¬ ("FILLED" = "PENDING" ∨ "FILLED" = "TRIGGERED") by decide]
  cases ordered <;> rfl

theorem derive_filled_ok {status : OrderStatus} (derived : deriveOrderStatus "FILLED" ordered executed reason = .ok status) :
    refuseOverfill "FILLED" ordered executed = .ok () ∧ executed.isPositive = true := by
  unfold deriveOrderStatus at derived
  obtain ⟨_, -, derived⟩ := bind_eq_ok.1 derived
  obtain ⟨_, fits, derived⟩ := bind_eq_ok.1 derived
  refine ⟨fits, ?_⟩
  cases sized : executed.isPositive with
  | true => rfl
  | false =>
      simp [sized] at derived

end Derive

section IntoReport

variable {resource : OrderResource} {fill : Option FillInfo} {reason : Option String}

theorem told_intoReport {status : OrderStatus} (own : resource.refuseForeign fill = .ok ())
    (derived : deriveOrderStatus resource.state (resource.units.map absDec) ((fill.map fun f => absDec f.units).getD .zero)
      reason = .ok status)
    (along : resource.refuseOpposite fill = .ok ()) :
    told (resource.intoReport fill reason ownPrefix) =
      some (status, (resource.units.map absDec).getD .zero, (fill.map fun f => absDec f.units).getD .zero) := by
  unfold OrderResource.intoReport
  simp only [own, derived, along, ok_bind]
  rfl

theorem intoReport_ok {r : OrderReport} (reported : resource.intoReport fill reason ownPrefix = .ok r) :
    (∃ status, deriveOrderStatus resource.state (resource.units.map absDec)
      ((fill.map fun f => absDec f.units).getD .zero) reason = .ok status) ∧
      resource.refuseOpposite fill = .ok () := by
  unfold OrderResource.intoReport at reported
  obtain ⟨_, -, reported⟩ := bind_eq_ok.1 reported
  obtain ⟨status, derived, reported⟩ := bind_eq_ok.1 reported
  obtain ⟨_, along, -⟩ := bind_eq_ok.1 reported
  exact ⟨⟨status, derived⟩, along⟩

end IntoReport

theorem told_of_no_fill {c : CreateInfo} (created : order.create = some c) (none : order.fills = []) (read : Read order) :
    told (order.report tag ownPrefix) =
      some (match order.cancels with
        | [] => .open
        | cancel :: _ => if cancel.reason = "TIME_IN_FORCE_EXPIRED" then .expired else .canceled, c.size, .zero) := by
  have overfill : ∀ state, refuseOverfill state (c.units.map absDec) .zero = .ok () := by
    intro state
    cases ordered : c.units with
    | none => rfl
    | some u =>
        refine refuse_of_not ?_ _
        intro below
        have positive := absDec_not_negative (read.create c created u ordered)
        rw [Dec.lt_iff, Dec.atto_zero] at below
        rw [Dec.isNegative_iff.2 below] at positive
        cases positive
  have single : ¬ order.fills.length > 1 := by simp [none]
  unfold TaggedOrder.report TaggedOrder.resource
  rw [refuse_of_not single, created, none, ok_bind, ok_bind]
  cases order.cancels with
  | nil => exact told_intoReport rfl (derive_pending (overfill _)) rfl
  | cons cancel rest =>
      have derived : deriveOrderStatus "CANCELLED" (c.units.map absDec) .zero (some cancel.reason) = .ok _ :=
        derive_cancelled (overfill "CANCELLED")
      simp only [Option.some.injEq] at derived
      exact told_intoReport rfl derived rfl

theorem told_of_fill {c : CreateInfo} {f : FillInfo} (created : order.create = some c) (one : order.fills = [f])
    (read : Read order) (within : Within c f) :
    told (order.report tag ownPrefix) = some (filledStatus (c.units.map absDec) (absDec f.units), c.size, absDec f.units) := by
  obtain ⟨own, sized⟩ := read.fills f (by simp [one])
  obtain ⟨nonzero, side⟩ := within
  have single : ¬ order.fills.length > 1 := by simp [one]
  unfold TaggedOrder.report TaggedOrder.resource
  rw [refuse_of_not single, created, one, ok_bind, ok_bind]
  have positive : (absDec f.units).isPositive = true := by rw [absDec_isPositive sized, nonzero, Bool.not_false]
  have fits : refuseOverfill "FILLED" (c.units.map absDec) (absDec f.units) = .ok () := by
    cases ordered : c.units with
    | none => rfl
    | some u => exact refuse_of_not (side u ordered).1 _
  apply told_intoReport
  · exact refuse_of_not (by simp [own]) _
  · exact derive_filled (absDec_not_negative sized) fits positive
  · unfold OrderResource.refuseOpposite
    cases ordered : c.units with
    | none => rfl
    | some u => exact refuse_of_not (by simp [(side u ordered).2]) _

theorem within_of_told {c : CreateInfo} {f : FillInfo} (created : order.create = some c) (one : order.fills = [f])
    (read : Read order) (reported : told (order.report tag ownPrefix) ≠ none) : Within c f := by
  obtain ⟨own, sized⟩ := read.fills f (by simp [one])
  have single : ¬ order.fills.length > 1 := by simp [one]
  unfold TaggedOrder.report TaggedOrder.resource at reported
  rw [refuse_of_not single, created, one, ok_bind, ok_bind] at reported
  generalize reportIs : OrderResource.intoReport _ _ _ _ = report at reported
  cases report with
  | error e => exact absurd rfl reported
  | ok r =>
      obtain ⟨⟨status, derived⟩, along⟩ := intoReport_ok reportIs
      obtain ⟨fits, positive⟩ := derive_filled_ok derived
      refine ⟨?_, ?_⟩
      · have positive' := (absDec_isPositive sized).symm.trans positive
        simpa using positive'
      · intro u ordered
        simp only [OrderResource.refuseOpposite, List.head?_cons, ordered, refuse_eq_ok, not_not] at along
        simp only [refuseOverfill, ordered, Option.map_some, refuse_eq_ok] at fits
        exact ⟨fits, along⟩

/-- When the transactions of an order make a report. -/
def Reportable (order : TaggedOrder) : Prop :=
  ∃ c, order.create = some c ∧ (order.fills = [] ∨ ∃ f, order.fills = [f] ∧ Within c f)

theorem told_ne_none_iff (read : Read order) : told (order.report tag ownPrefix) ≠ none ↔ Reportable order := by
  constructor
  · intro reported
    cases created : order.create with
    | none => exact absurd (told_of_no_create created) reported
    | some c =>
        refine ⟨c, created, ?_⟩
        cases fills : order.fills with
        | nil => exact .inl rfl
        | cons f rest =>
            cases rest with
            | nil => exact .inr ⟨f, rfl, within_of_told created fills read reported⟩
            | cons g rest => exact absurd (told_of_fills (by simp [fills])) reported
  · rintro ⟨c, created, none | ⟨f, one, within⟩⟩
    · rw [told_of_no_fill created none read]
      exact Option.some_ne_none _
    · rw [told_of_fill created one read within]
      exact Option.some_ne_none _

theorem told_congr (read : Read order) (tag tag' ownPrefix ownPrefix' : Option String) :
    told (order.report tag ownPrefix) = told (order.report tag' ownPrefix') := by
  by_cases reportable : Reportable order
  · obtain ⟨c, created, none | ⟨f, one, within⟩⟩ := reportable
    · rw [told_of_no_fill created none read, told_of_no_fill created none read]
    · rw [told_of_fill created one read within, told_of_fill created one read within]
  · have silent : ∀ t p, told (order.report t p) = none := fun t p =>
      not_not.1 fun reported => reportable ((told_ne_none_iff read).1 reported)
    rw [silent, silent]

/-! ## Records -/

/-- A record as it was read from its body. -/
structure Faithful (r : TxnRecord) : Prop where
  numbered : parseU64 r.idText = some r.id
  order : r.orderId = optStr r.raw "orderID"

def fillsOf (records : List TxnRecord) (id : String) : List FillInfo :=
  records.filterMap fun r => if r.kind = "ORDER_FILL" ∧ r.orderId = some id then (parseFill r.raw).toOption else none

def cancelsOf (records : List TxnRecord) (id : String) : List CancelInfo :=
  records.filterMap fun r => if r.kind = "ORDER_CANCEL" ∧ r.orderId = some id then (parseCancel r.raw).toOption else none

/-- The creation with this id, where it can be read; the last of several. -/
def createOf (records : List TxnRecord) (id : String) (earlier : Option CreateInfo) : Option CreateInfo :=
  records.foldl (fun c r => if isCreateKind r.kind ∧ r.idText = id then (parseCreate r.raw).toOption else c) earlier

theorem gather_eq (page : TxnPage) (id : String) :
    gather page id = ⟨id, createOf page.records id none, fillsOf page.records id, cancelsOf page.records id⟩ := by
  have run : ∀ (records : List TxnRecord) (order : TaggedOrder), records.foldl attributeTo order =
      ⟨order.orderId, createOf records order.orderId order.create, order.fills ++ fillsOf records order.orderId,
        order.cancels ++ cancelsOf records order.orderId⟩ := by
    intro records
    induction records with
    | nil => simp [createOf, fillsOf, cancelsOf]
    | cons r records ih =>
        intro order
        rw [List.foldl_cons, ih]
        simp only [createOf, fillsOf, cancelsOf, List.foldl_cons, List.filterMap_cons]
        by_cases creates : isCreateKind r.kind ∧ r.idText = order.orderId
        · have noFill : ¬ (r.kind = "ORDER_FILL" ∧ r.orderId = some order.orderId) := by
            rintro ⟨kind, -⟩
            rw [kind] at creates
            exact absurd creates.1 (by decide)
          have noCancel : ¬ (r.kind = "ORDER_CANCEL" ∧ r.orderId = some order.orderId) := by
            rintro ⟨kind, -⟩
            rw [kind] at creates
            exact absurd creates.1 (by decide)
          simp only [attributeTo, if_pos creates, if_neg noFill, if_neg noCancel]
        · by_cases fill : r.kind = "ORDER_FILL" ∧ r.orderId = some order.orderId
          · have noCancel : ¬ (r.kind = "ORDER_CANCEL" ∧ r.orderId = some order.orderId) := by
              rintro ⟨kind, -⟩
              rw [fill.1] at kind
              exact absurd kind (by decide)
            simp only [attributeTo, if_neg creates, if_pos fill, if_neg noCancel]
            cases parseFill r.raw with
            | error e => simp [Except.toOption]
            | ok f => simp [Except.toOption]
          · by_cases cancel : r.kind = "ORDER_CANCEL" ∧ r.orderId = some order.orderId
            · simp only [attributeTo, if_neg creates, if_neg fill, if_pos cancel]
              cases parseCancel r.raw with
              | error e => simp [Except.toOption]
              | ok c => simp [Except.toOption]
            · simp only [attributeTo, if_neg creates, if_neg fill, if_neg cancel]
  rw [gather, run]
  simp

def Readable (records : List TxnRecord) (id : String) : Prop :=
  ∀ r ∈ records, r.orderId = some id →
    (r.kind = "ORDER_FILL" → ∃ f, parseFill r.raw = .ok f) ∧ (r.kind = "ORDER_CANCEL" → ∃ c, parseCancel r.raw = .ok c)

theorem collect_ok {records : List TxnRecord} {id : String} (readable : Readable records id) (order : TaggedOrder) :
    records.foldlM (collect id) order =
      .ok ⟨order.orderId, order.create, order.fills ++ fillsOf records id, order.cancels ++ cancelsOf records id⟩ := by
  induction records generalizing order with
  | nil => simp [fillsOf, cancelsOf, pure, Except.pure]
  | cons r records ih =>
      have rest := ih fun r' member => readable r' (List.mem_cons_of_mem _ member)
      have here := readable r List.mem_cons_self
      rw [List.foldlM_cons]
      simp only [fillsOf, cancelsOf, List.filterMap_cons]
      by_cases mine : r.orderId = some id
      · obtain ⟨fillRead, cancelRead⟩ := here mine
        by_cases fill : r.kind = "ORDER_FILL"
        · obtain ⟨f, parsed⟩ := fillRead fill
          have noCancel : r.kind ≠ "ORDER_CANCEL" := by rw [fill]; decide
          have step : collect id order r = .ok { order with fills := order.fills ++ [f] } := by
            simp only [collect, mine, not_true, ne_eq, if_false, fill, if_true, parsed, ok_bind]
            rfl
          rw [step, ok_bind, rest]
          simp [fillsOf, cancelsOf, mine, fill, parsed, Except.toOption]
        · by_cases cancel : r.kind = "ORDER_CANCEL"
          · obtain ⟨c, parsed⟩ := cancelRead cancel
            have step : collect id order r = .ok { order with cancels := order.cancels ++ [c] } := by
              simp only [collect, mine, not_true, ne_eq, if_false, cancel, if_true, parsed, ok_bind]
              rfl
            rw [step, ok_bind, rest]
            simp [fillsOf, cancelsOf, mine, cancel, parsed, Except.toOption]
          · have step : collect id order r = .ok order := by
              simp [collect, mine, fill, cancel]
            rw [step, ok_bind, rest]
            simp [fillsOf, cancelsOf, fill, cancel]
      · have step : collect id order r = .ok order := by
          simp [collect, mine]
        rw [step, ok_bind, rest]
        simp [fillsOf, cancelsOf, mine]

theorem readable_of_collect {records : List TxnRecord} {id : String} {order out : TaggedOrder}
    (collected : records.foldlM (collect id) order = .ok out) : Readable records id := by
  induction records generalizing order with
  | nil => simp [Readable]
  | cons r records ih =>
      rw [List.foldlM_cons] at collected
      obtain ⟨next, step, rest⟩ := bind_eq_ok.1 collected
      intro r' member mine
      rcases List.mem_cons.1 member with rfl | member
      · constructor
        · intro fill
          simp only [collect, mine, ne_eq, not_true, if_false, fill, if_true] at step
          obtain ⟨f, parsed, -⟩ := bind_eq_ok.1 step
          exact ⟨f, parsed⟩
        · intro cancel
          have noFill : ¬ ("ORDER_CANCEL" = "ORDER_FILL") := by decide
          simp only [collect, mine, ne_eq, not_true, if_false, cancel, noFill, if_true] at step
          obtain ⟨c, parsed, -⟩ := bind_eq_ok.1 step
          exact ⟨c, parsed⟩
      · exact ih rest r' member mine

/-! ## Pages -/

theorem readRecord_faithful {afterId : Nat} {t : Value} {r : TxnRecord} (read : readRecord afterId t = .ok r) : Faithful r := by
  unfold readRecord at read
  simp only [bind_eq_ok, pure_eq_ok] at read
  obtain ⟨idText, -, id, number, _, -, kind, -, rfl⟩ := read
  exact ⟨okOr_eq_ok.1 number, rfl⟩

theorem fetchPage_ok [JsonText] {read : Nat → Except BrokerError String} {afterId : Nat} {page : TxnPage}
    (fetched : fetchPage read afterId = .ok page) : page.afterId = afterId ∧ ∀ r ∈ page.records, Faithful r := by
  unfold fetchPage parseTransactionsPage at fetched
  simp only [bind_eq_ok, pure_eq_ok] at fetched
  obtain ⟨body, -, root, -, arr, -, text, -, last, -, records, parsed, rfl⟩ := fetched
  refine ⟨rfl, ?_⟩
  have each := mapM_eq_ok.1 parsed
  clear parsed
  induction each with
  | nil => simp
  | cons head _ ih =>
      intro r member
      rcases List.mem_cons.1 member with rfl | member
      · exact readRecord_faithful head
      · exact ih r member

omit [DebugText] in
theorem checkGaps_ok {records : List TxnRecord} (whole : checkGaps records = .ok ()) :
    records.Pairwise fun a b => a.id < b.id := by
  induction records with
  | nil => exact .nil
  | cons first rest ih =>
      cases rest with
      | nil => exact List.pairwise_singleton _ _
      | cons second rest =>
          unfold checkGaps at whole
          by_cases gap : second.id ≠ first.id + 1
          · rw [if_pos gap] at whole
            cases whole
          · rw [if_neg gap] at whole
            have tail := ih whole
            refine List.pairwise_cons.2 ⟨?_, tail⟩
            intro r member
            rcases List.mem_cons.1 member with rfl | later
            · omega
            · have above := (List.pairwise_cons.1 tail).1 r later
              omega

omit [DebugText] in
theorem complete_ids {page : TxnPage} (complete : page.completeness = .ok ()) {first : TxnRecord}
    (starts : page.records.head? = some first) :
    first.id = page.afterId + 1 ∧ ∃ rest, page.records = first :: rest ∧ ∀ r ∈ rest, first.id < r.id := by
  obtain ⟨rest, records⟩ : ∃ rest, page.records = first :: rest := by
    cases all : page.records with
    | nil =>
        rw [all] at starts
        cases starts
    | cons r rest =>
        rw [all] at starts
        obtain rfl := Option.some.inj starts
        exact ⟨rest, rfl⟩
  have last : page.records.getLast? = some (page.records.getLast (by simp [records])) := List.getLast?_eq_some_getLast _
  unfold TxnPage.completeness at complete
  rw [starts, last] at complete
  simp only at complete
  split at complete
  · cases complete
  next number =>
    split at complete
    · cases complete
    · rw [records] at complete
      exact ⟨not_not.1 number, rest, records, (List.pairwise_cons.1 (checkGaps_ok complete)).1⟩

/-! ## Both ways -/

theorem mem_orders {tag : String} {page : TxnPage} {coverage : Coverage} {order : TaggedOrder}
    (member : order ∈ (buildScan tag page coverage).orders) : order = gather page order.orderId := by
  unfold buildScan at member
  rw [List.mem_mergeSort, List.mem_map] at member
  obtain ⟨id, -, rfl⟩ := member
  have owner : (gather page id).orderId = id := by rw [gather_eq]
  rw [owner]

def pieces (page : TxnPage) (first : TxnRecord) (id : String) : TaggedOrder :=
  ⟨id, (parseCreate first.raw).toOption, fillsOf page.records id, cancelsOf page.records id⟩

theorem fillsOf_owner {records : List TxnRecord} {id : String} (faithful : ∀ r ∈ records, Faithful r) :
    ∀ f ∈ fillsOf records id, f.orderId = id ∧ f.units.units.val ≠ -2 ^ 127 := by
  intro f member
  obtain ⟨r, known, read⟩ := List.mem_filterMap.1 member
  by_cases fill : r.kind = "ORDER_FILL" ∧ r.orderId = some id
  · rw [if_pos fill, toOption_eq_some] at read
    obtain ⟨owner, sized⟩ := parseFill_ok read
    rw [← (faithful r known).order, fill.2] at owner
    exact ⟨(Option.some.inj owner).symm, sized⟩
  · rw [if_neg fill] at read
    cases read

theorem pieces_read {page : TxnPage} (faithful : ∀ r ∈ page.records, Faithful r) (first : TxnRecord) (id : String) :
    Read (pieces page first id) where
  create _ created := parseCreate_ok (toOption_eq_some.1 created)
  fills := fillsOf_owner faithful

/-- A page of the stream from the creation of an order to its end. -/
structure FromCreation [JsonText] (read : Nat → Except BrokerError String) (page : TxnPage) (first : TxnRecord) : Prop where
  fetched : fetchPage read (first.id - 1) = .ok page
  complete : page.completeness = .ok ()
  starts : page.records.head? = some first
  creates : isCreateKind first.kind = true

namespace FromCreation

variable [JsonText] {read : Nat → Except BrokerError String} {page : TxnPage} {first : TxnRecord}
  (stream : FromCreation read page first)

include stream

theorem faithful : ∀ r ∈ page.records, Faithful r := (fetchPage_ok stream.fetched).2

theorem positive : first.id ≠ 0 := by
  rw [(complete_ids stream.complete stream.starts).1]
  exact Nat.succ_ne_zero _

theorem createOf_eq {id : String} (number : parseU64 id = some first.id) :
    createOf page.records id none = if first.idText = id then (parseCreate first.raw).toOption else none := by
  obtain ⟨-, rest, records, above⟩ := complete_ids stream.complete stream.starts
  have numbered : ∀ r ∈ rest, r.idText ≠ id := by
    intro r member same
    have own := (stream.faithful r (by rw [records]; exact List.mem_cons_of_mem _ member)).numbered
    rw [same, number] at own
    have later := above r member
    have equal := Option.some.inj own
    omega
  have skip : ∀ c, createOf rest id c = c := by
    clear records above
    induction rest with
    | nil => exact fun c => rfl
    | cons r rest ih =>
        intro c
        have other : ¬ (isCreateKind r.kind ∧ r.idText = id) := fun both => numbered r List.mem_cons_self both.2
        have step : createOf (r :: rest) id c = createOf rest id c := by
          rw [createOf, List.foldl_cons, if_neg other]
          rfl
        rw [step]
        exact ih (fun r' member => numbered r' (List.mem_cons_of_mem _ member)) c
  have step : createOf (first :: rest) id none =
      createOf rest id (if isCreateKind first.kind ∧ first.idText = id then (parseCreate first.raw).toOption else none) := rfl
  rw [records, step, skip]
  simp only [stream.creates, true_and]

theorem gather_pieces {id : String} (number : parseU64 id = some first.id) :
    gather page id = if first.idText = id then pieces page first id else { pieces page first id with create := none } := by
  rw [gather_eq, stream.createOf_eq number]
  by_cases same : first.idText = id
  · rw [if_pos same, if_pos same, pieces]
  · rw [if_neg same, if_neg same, pieces]

theorem orderFromTransactions_eq {id : String} (number : parseU64 id = some first.id) (ownPrefix : Option String) :
    orderFromTransactions read ownPrefix id = (do
      let create ← okOr (.notFound s!"order {id} is not in the transaction stream") (parseCreate first.raw).toOption
      let order ← page.records.foldlM (collect id) ⟨id, some create, [], []⟩
      order.report create.clientId ownPrefix) := by
  have head : page.records.head?.filter (fun r => decide (r.id = first.id ∧ isCreateKind r.kind = true)) = some first := by
    rw [stream.starts]
    simp [stream.creates]
  have find : page.records.find? (fun r => decide (r.id = first.id)) = some first := by
    obtain ⟨-, rest, records, -⟩ := complete_ids stream.complete stream.starts
    rw [records, List.find?_cons_of_pos (by simp)]
  unfold orderFromTransactions
  simp only [number, okOr, ok_bind, refuse_of_not stream.positive, stream.fetched, head, stream.complete, find, Option.bind_some,
    Except.mapError]

theorem told_rebuilt {id : String} (number : parseU64 id = some first.id) (readable : Readable page.records id)
    (ownPrefix : Option String) :
    told (orderFromTransactions read ownPrefix id) = told ((pieces page first id).report none none) := by
  rw [stream.orderFromTransactions_eq number]
  cases created : (parseCreate first.raw).toOption with
  | none =>
      rw [told_of_no_create created]
      rfl
  | some c =>
      have same : (⟨id, some c, [] ++ fillsOf page.records id, [] ++ cancelsOf page.records id⟩ : TaggedOrder) =
          pieces page first id := by
        rw [pieces, created, List.nil_append, List.nil_append]
      rw [okOr, ok_bind, collect_ok readable, ok_bind, same]
      exact told_congr (pieces_read stream.faithful first id) _ _ _ _

theorem told_rebuilt_unreadable {id : String} (number : parseU64 id = some first.id)
    (unreadable : ¬ Readable page.records id) (ownPrefix : Option String) :
    told (orderFromTransactions read ownPrefix id) = none := by
  cases rebuilt : orderFromTransactions read ownPrefix id with
  | error e => rfl
  | ok r =>
      rw [stream.orderFromTransactions_eq number] at rebuilt
      obtain ⟨c, -, rebuilt⟩ := bind_eq_ok.1 rebuilt
      obtain ⟨order, collected, -⟩ := bind_eq_ok.1 rebuilt
      exact absurd (readable_of_collect collected) unreadable

end FromCreation

def HasFill (page : TxnPage) (id : String) : Prop := ∃ r ∈ page.records, r.kind = "ORDER_FILL" ∧ r.orderId = some id

omit [DebugText] in
/-- Both ways tell the same execution or nothing, and an order with a fill is over and has
something executed. -/
structure Agree (page : TxnPage) (id : String) (scanned rebuilt : Except BrokerError OrderReport) : Prop where
  same : told scanned = told rebuilt
  filled : HasFill page id → ∀ r, scanned = .ok r ∨ rebuilt = .ok r →
    r.status.isTerminal = true ∧ r.executedQuantity.isPositive = true

theorem executed_of_fill {page : TxnPage} {first : TxnRecord} {id : String} (faithful : ∀ r ∈ page.records, Faithful r)
    (readable : Readable page.records id) (filled : HasFill page id) {status : OrderStatus} {quantity executed : Dec}
    (tells : told ((pieces page first id).report none none) = some (status, quantity, executed)) :
    status.isTerminal = true ∧ executed.isPositive = true := by
  have read := pieces_read faithful first id
  obtain ⟨r, member, fill, mine⟩ := filled
  obtain ⟨g, parsed⟩ := (readable r member mine).1 fill
  have known : g ∈ fillsOf page.records id :=
    List.mem_filterMap.2 ⟨r, member, by rw [if_pos ⟨fill, mine⟩, parsed]; rfl⟩
  obtain ⟨c, created, none | ⟨f, one, within⟩⟩ := (told_ne_none_iff read).1 (tells ▸ Option.some_ne_none _)
  · exact absurd none (List.ne_nil_of_mem known)
  · rw [told_of_fill created one read within] at tells
    obtain ⟨rfl, rfl, rfl⟩ : _ ∧ _ ∧ _ := by simpa using tells
    obtain ⟨-, sized⟩ := read.fills f (by simp [one])
    refine ⟨?_, by rw [absDec_isPositive sized, within.1, Bool.not_false]⟩
    unfold filledStatus
    split
    · split <;> rfl
    · rfl

omit [DebugText] in
theorem told_of_ok {x : Except BrokerError OrderReport} {r : OrderReport} (reported : x = .ok r) :
    told x = some (r.status, r.quantity, r.executedQuantity) := by
  rw [reported]
  rfl

/-- The two reconstructions of an order agree exactly when an order whose readable records make
a report is spelled as in its creation just where nothing of it is unreadable. -/
theorem reconstructions_agree_iff [JsonText] {read : Nat → Except BrokerError String} {page : TxnPage} {first : TxnRecord}
    (stream : FromCreation read page first) {tag : String} {coverage : Coverage} {order : TaggedOrder}
    (member : order ∈ (buildScan tag page coverage).orders) (number : parseU64 order.orderId = some first.id)
    (ownPrefix : Option String) :
    Agree page order.orderId (order.report (some tag) ownPrefix) (orderFromTransactions read ownPrefix order.orderId) ↔
      (Reportable (pieces page first order.orderId) →
        (first.idText = order.orderId ↔ Readable page.records order.orderId)) := by
  have gathered := mem_orders member
  rw [stream.gather_pieces number] at gathered
  generalize order.orderId = id at *
  have wholeRead := pieces_read stream.faithful first id
  have silent_iff : told ((pieces page first id).report none none) = none ↔ ¬ Reportable (pieces page first id) := by
    have reports : told ((pieces page first id).report none none) ≠ none ↔ Reportable (pieces page first id) := told_ne_none_iff wholeRead
    rw [← reports, not_not]
  -- what the scan tells
  have spelled : first.idText = id →
      told (order.report (some tag) ownPrefix) = told ((pieces page first id).report none none) := by
    intro same
    rw [gathered, if_pos same]
    exact told_congr wholeRead _ _ _ _
  have misspelled : first.idText ≠ id → told (order.report (some tag) ownPrefix) = none := by
    intro other
    rw [gathered, if_neg other]
    exact told_of_no_create rfl
  constructor
  · intro agree reportable
    have tells : told ((pieces page first id).report none none) ≠ none := fun silent => silent_iff.1 silent reportable
    constructor
    · intro same
      by_contra unreadable
      have rebuilt := stream.told_rebuilt_unreadable number unreadable ownPrefix
      rw [← agree.same, spelled same] at rebuilt
      exact tells rebuilt
    · intro readable
      by_contra other
      have rebuilt := stream.told_rebuilt number readable ownPrefix
      rw [← agree.same, misspelled other] at rebuilt
      exact tells rebuilt.symm
  · intro condition
    have same : told (order.report (some tag) ownPrefix) = told (orderFromTransactions read ownPrefix id) := by
      by_cases readable : Readable page.records id
      · rw [stream.told_rebuilt number readable]
        by_cases spelling : first.idText = id
        · exact spelled spelling
        · rw [misspelled spelling]
          have silent : ¬ Reportable (pieces page first id) := fun reportable => spelling ((condition reportable).2 readable)
          exact (silent_iff.2 silent).symm
      · rw [stream.told_rebuilt_unreadable number readable]
        by_cases spelling : first.idText = id
        · rw [spelled spelling]
          exact silent_iff.2 fun reportable => readable ((condition reportable).1 spelling)
        · exact misspelled spelling
    refine ⟨same, ?_⟩
    intro filled r reported
    have tells : told (orderFromTransactions read ownPrefix id) = some (r.status, r.quantity, r.executedQuantity) := by
      rcases reported with scanned | rebuilt
      · rw [← same]
        exact told_of_ok scanned
      · exact told_of_ok rebuilt
    by_cases readable : Readable page.records id
    · rw [stream.told_rebuilt number readable] at tells
      exact executed_of_fill stream.faithful readable filled tells
    · rw [stream.told_rebuilt_unreadable number readable] at tells
      cases tells

end

namespace MissingPrice

local instance quotes : DebugText where
  quoted s := "\"" ++ s ++ "\""

private def creation : Value := .object [("id", .string "5"), ("type", .string "LIMIT_ORDER"),
  ("instrument", .string "EUR_USD"), ("units", .string "100"), ("price", .string "1.1"), ("timeInForce", .string "GTC"),
  ("clientExtensions", .object [("id", .string "t1")])]

private def fill (price : List (String × Value)) : Value := .object <|
  [("id", .string "6"), ("type", .string "ORDER_FILL"), ("orderID", .string "5"), ("clientOrderID", .string "t1"),
    ("instrument", .string "EUR_USD"), ("units", .string "100")] ++ price

private def body (price : List (String × Value)) : Value := .object
  [("transactions", .array [creation, fill price]), ("lastTransactionID", .string "6")]

/-- The body of a page with a limit order and its fill. -/
def text (price : String) : String :=
  "\x7b\"transactions\":[\x7b\"id\":\"5\",\"type\":\"LIMIT_ORDER\",\"instrument\":\"EUR_USD\",\"units\":\"100\"," ++
    "\"price\":\"1.1\",\"timeInForce\":\"GTC\",\"clientExtensions\":\x7b\"id\":\"t1\"\x7d\x7d," ++
    "\x7b\"id\":\"6\",\"type\":\"ORDER_FILL\",\"orderID\":\"5\",\"clientOrderID\":\"t1\"," ++
    "\"instrument\":\"EUR_USD\",\"units\":\"100\"" ++ price ++ "\x7d],\"lastTransactionID\":\"6\"\x7d"

def priced : String := text ",\"price\":\"1.1\""

def unpriced : String := text ""

/-- The library on the page with a price in its fill and on the page without. -/
local instance parser : JsonText where
  fromStr text := some (if text = priced then body [("price", .string "1.1")] else body [])

def first : TxnRecord := ⟨5, "5", "LIMIT_ORDER", none, some "t1", creation⟩

def page (price : List (String × Value)) : TxnPage :=
  ⟨4, [first, ⟨6, "6", "ORDER_FILL", some "5", some "t1", fill price⟩], 6⟩

def coverage : Coverage := ⟨.sinceCheckpoint, 4, 6⟩

def scanned (price : List (String × Value)) : TaggedOrder := gather (page price) "5"

theorem unpriced_stream : FromCreation (fun _ => .ok unpriced) (page []) first where
  fetched := by
    have parsed : JsonText.fromStr unpriced = some (body []) := congrArg some (if_neg (by decide +kernel))
    simp only [fetchPage, parseTransactionsPage, ok_bind, parsed]
    rfl
  complete := by rfl
  starts := rfl
  creates := by decide +kernel

theorem priced_stream : FromCreation (fun _ => .ok priced) (page [("price", .string "1.1")]) first where
  fetched := by
    have parsed : JsonText.fromStr priced = some (body [("price", .string "1.1")]) := congrArg some (if_pos rfl)
    simp only [fetchPage, parseTransactionsPage, ok_bind, parsed]
    rfl
  complete := by rfl
  starts := rfl
  creates := by decide +kernel

private theorem scanned_mem (price : List (String × Value)) : scanned price ∈ (buildScan "t1" (page price) coverage).orders := by
  unfold buildScan
  rw [List.mem_mergeSort, List.mem_map]
  refine ⟨"5", ?_, rfl⟩
  rw [Std.ExtTreeSet.mem_toList, Std.ExtTreeSet.mem_ofList]
  rfl

/-- A fill without a price leaves the order open for one and is an error for the other. -/
theorem unpriced_fill_disagrees : FromCreation (fun _ => .ok unpriced) (page []) first ∧
    ∃ order ∈ (buildScan "t1" (page []) coverage).orders, order.orderId = "5" ∧
      ¬ Agree (page []) "5" (order.report (some "t1") none) (orderFromTransactions (fun _ => .ok unpriced) none "5") := by
  refine ⟨unpriced_stream, scanned [], scanned_mem [], rfl, ?_⟩
  intro agree
  have reported : told ((scanned []).report (some "t1") none) = some (.open, ⟨⟨100, by decide⟩, 0, by decide⟩, .zero) := by
    decide +kernel
  have refused : told (orderFromTransactions (fun _ => .ok unpriced) none "5") = none := by
    decide +kernel
  have same := agree.same
  rw [reported, refused] at same
  cases same

/-- With its price both tell the fill. -/
theorem priced_fill_agrees : Agree (page [("price", .string "1.1")]) "5"
    ((scanned [("price", .string "1.1")]).report (some "t1") none) (orderFromTransactions (fun _ => .ok priced) none "5") := by
  refine (reconstructions_agree_iff priced_stream (scanned_mem _) (by decide +kernel) none).2 fun _ => ⟨fun _ => ?_, fun _ => rfl⟩
  intro r member _
  simp only [page, List.mem_cons, List.not_mem_nil, or_false] at member
  rcases member with rfl | rfl
  · refine ⟨fun fill => ?_, fun cancel => ?_⟩
    · exact absurd fill (by decide +kernel)
    · exact absurd cancel (by decide +kernel)
  · refine ⟨fun _ => ?_, fun cancel => ?_⟩
    · exact ⟨_, rfl⟩
    · exact absurd cancel (by decide +kernel)

end MissingPrice

end BrokerAdapters.Oanda
