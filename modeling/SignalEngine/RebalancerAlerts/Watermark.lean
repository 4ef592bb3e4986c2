import SignalEngine.RebalancerAlerts.Delivery

/-! # What the watermark passes

A tick that moves the watermark over an alert has written a row for it on every
channel, unless the batch was cut between two alerts of one time.
-/

open Text Interaction Runs

namespace RebalancerAlerts

open RebalancerCore (Instant InstantText)

namespace Ledger

def HasRow (l : Ledger) (key : String × String) : Prop :=
  ∃ d ∈ l.deliveries, d.delivery.key = key

theorem HasRow.later {l l' : Ledger} {key : String × String} (has : l.HasRow key) (later : l.Later l') :
    l'.HasRow key := by
  obtain ⟨d, member, rfl⟩ := has
  obtain ⟨d', member', follows⟩ := later.mem member
  exact ⟨d', member', by rw [follows.delivery]⟩

theorem insertIfAbsent_hasRow {l : Ledger} (sound : l.Sound) (delivery : NewDelivery) (now : Instant) :
    (l.insertIfAbsent delivery now).2.HasRow delivery.key := by
  rw [insertIfAbsent]
  by_cases known : l.byKey.contains delivery.key = true
  · rw [if_pos known]
    obtain ⟨d, member, same⟩ := List.mem_map.1 ((sound.found _).1 known)
    exact ⟨d, member, same⟩
  · rw [if_neg known]
    exact ⟨_, List.mem_append_right _ (List.mem_singleton.2 rfl), rfl⟩

end Ledger

/-- Rows for the alert on these channels. -/
def Desk.Holds (desk : Desk) (alert : PendingAlert) (channels : List Channel) : Prop :=
  ∀ c ∈ channels, desk.ledger.HasRow (c.id, alert.dedupeKey)

theorem Desk.Holds.kept {desk desk' : Desk} {alert : PendingAlert} {channels : List Channel}
    (holds : desk.Holds alert channels) (kept : desk.Kept desk') : desk'.Holds alert channels :=
  fun c member => (holds c member).later kept.rows

variable {may : WorkOp → Prop}

theorem insertFor_holds {alert : PendingAlert} {severity : Severity} {rendered : Rendered} {now : Instant}
    {targets : List Channel} : ∀ (s : Worker) (desk : Desk), desk.ledger.Sound →
    Prog.Obeys (served may) (insertFor alert severity rendered now targets s) desk fun r desk' =>
      r.2.watermark = s.watermark ∧ (r.1 = .ok () → desk'.Holds alert targets) := by
  induction targets with
  | nil =>
      intro s desk sound
      exact ⟨rfl, fun _ c member => absurd member (by simp)⟩
  | cons c targets ih =>
      intro s desk sound
      have inserted : Prog.Obeys (served may)
          (insertIfAbsent (deliveryTo alert severity rendered c) now s) desk fun r desk' =>
            r.2 = s ∧ desk'.ledger.Sound ∧
              (r.1.isOk = true → desk'.ledger.HasRow (c.id, alert.dedupeKey)) := by
        refine ⟨trivial, fun answer desk' next => ⟨rfl, (Desk.Kept.of_next next).sound sound, ?_⟩⟩
        obtain ⟨refused, -, -⟩ | ⟨result, answered⟩ := next
        · cases refused
          intro ok
          cases ok
        · cases answered
          exact fun _ => Ledger.insertIfAbsent_hasRow sound _ _
      rw [insertFor]
      apply Prog.Obeys.bind
      apply inserted.mono
      rintro ⟨answer, s'⟩ desk' ⟨rfl, sound', row⟩
      -- The row of `c` stays while the other channels get theirs.
      have rest : ∀ t : Worker, t.watermark = s'.watermark → answer.isOk = true →
          Prog.Obeys (served may) (insertFor alert severity rendered now targets t) desk' fun r desk'' =>
            r.2.watermark = s'.watermark ∧ (r.1 = .ok () → desk''.Holds alert (c :: targets)) := by
        intro t mark ok
        apply ((ih t desk' sound').and (Desk.Kept.obeys _ desk')).mono
        rintro r desk'' ⟨⟨same, holds⟩, kept⟩
        refine ⟨same.trans mark, fun done c' member => ?_⟩
        rcases List.mem_cons.1 member with rfl | other
        · exact (row ok).later kept.rows
        · exact holds done c' other
      cases answer with
      | error e => exact ⟨rfl, fun done => by cases done⟩
      | ok fresh =>
          cases fresh with
          | true => exact rest _ rfl rfl
          | false => exact rest _ rfl rfl

/-! ## The order of reading -/

theorem Ledger.mem_newerThan {l : Ledger} {since : Instant} {a : PendingAlert} :
    a ∈ l.newerThan since ↔ a ∈ l.alerts ∧ since < a.createdAt := by
  simp [newerThan]

/-- The batch of the next tick is not cut between two alerts of one time. -/
def World.Uncut (w : World) : Prop :=
  ∀ a ∈ (w.desk.ledger.newerThan w.watermark)[ALERTS_PER_TICK - 1]?,
    ∀ b ∈ (w.desk.ledger.newerThan w.watermark)[ALERTS_PER_TICK]?, a.createdAt ≠ b.createdAt

theorem Ledger.createdAt_le_of_readingOrder {a b : PendingAlert} (h : Ledger.readingOrder a b) :
    a.createdAt ≤ b.createdAt := by
  by_contra later
  have greater : compare a.createdAt b.createdAt = .gt := compare_gt_iff_gt.2 (not_le.1 later)
  exact h (by rw [greater]; rfl)

/-- The comparison of two alerts, as one order. -/
abbrev Ledger.alertOrder : PendingAlert → PendingAlert → Ordering :=
  compareLex (compareOn PendingAlert.createdAt) (compareOn PendingAlert.id)

theorem Ledger.readingOrder_iff {a b : PendingAlert} :
    Ledger.readingOrder a b ↔ (Ledger.alertOrder a b).isLE = true := by
  rw [Ordering.isLE_iff_ne_gt]
  rfl

instance : Std.Total Ledger.readingOrder where
  total a b := by
    simp only [Ledger.readingOrder_iff]
    have flipped : (Ledger.alertOrder a b).isGE = (Ledger.alertOrder b a).isLE :=
      Std.OrientedCmp.isGE_eq_isLE
    rw [← flipped]
    cases Ledger.alertOrder a b <;> simp

instance : IsTrans PendingAlert Ledger.readingOrder where
  trans a b c := by
    simp only [Ledger.readingOrder_iff]
    exact Std.TransCmp.isLE_trans

theorem Ledger.newerThan_sorted (l : Ledger) (since : Instant) :
    (l.newerThan since).Pairwise fun a b => a.createdAt ≤ b.createdAt := by
  have sorted := List.pairwise_insertionSort Ledger.readingOrder
    (l.alerts.filter fun a => since < a.createdAt)
  exact sorted.imp Ledger.createdAt_le_of_readingOrder

theorem Ledger.newerThan_le (l : Ledger) (since : Instant) {i j : Nat} (le : i ≤ j)
    (lower : i < (l.newerThan since).length) (bound : j < (l.newerThan since).length) :
    (l.newerThan since)[i].createdAt ≤ (l.newerThan since)[j].createdAt := by
  rcases Nat.lt_or_eq_of_le le with before | rfl
  · exact List.pairwise_iff_getElem.1 (l.newerThan_sorted since) i j lower bound before
  · exact le_refl _

/-- The newest time of a batch. -/
def newestOf : Instant → List PendingAlert → Instant
  | newest, [] => newest
  | newest, alert :: alerts => newestOf (newer newest alert.createdAt) alerts

theorem newestOf_cases (alerts : List PendingAlert) : ∀ newest : Instant,
    newestOf newest alerts = newest ∨ ∃ a ∈ alerts, newestOf newest alerts = a.createdAt := by
  induction alerts with
  | nil => exact fun _ => .inl rfl
  | cons alert alerts ih =>
      intro newest
      rw [newestOf]
      rcases ih (newer newest alert.createdAt) with here | ⟨a, member, same⟩
      · rw [here, newer]
        split
        · exact .inr ⟨alert, by simp, rfl⟩
        · exact .inl rfl
      · exact .inr ⟨a, by simp [member], same⟩

theorem World.Uncut.mem_batch {w : World} (uncut : w.Uncut) {a : PendingAlert}
    (listed : a ∈ w.desk.ledger.newerThan w.watermark)
    (passed : a.createdAt ≤ newestOf w.watermark (w.desk.ledger.alertsSince w.watermark ALERTS_PER_TICK)) :
    a ∈ w.desk.ledger.alertsSince w.watermark ALERTS_PER_TICK := by
  obtain ⟨-, newer⟩ := Ledger.mem_newerThan.1 listed
  obtain ⟨i, bound, rfl⟩ := List.getElem_of_mem listed
  by_cases inside : i < ALERTS_PER_TICK
  · exact List.mem_take_iff_getElem.2 ⟨i, by omega, rfl⟩
  · exfalso
    rcases newestOf_cases (w.desk.ledger.alertsSince w.watermark ALERTS_PER_TICK) w.watermark with
      stayed | ⟨b, member, newest⟩
    · rw [stayed] at passed
      exact absurd passed (not_le.2 newer)
    · obtain ⟨j, inBatch, rfl⟩ := List.mem_take_iff_getElem.1 member
      have cut : ALERTS_PER_TICK < (w.desk.ledger.newerThan w.watermark).length := by omega
      have last : ALERTS_PER_TICK - 1 < (w.desk.ledger.newerThan w.watermark).length := by omega
      have apart := uncut _ (List.getElem?_eq_getElem last) _ (List.getElem?_eq_getElem cut)
      have first := w.desk.ledger.newerThan_le w.watermark (show j ≤ ALERTS_PER_TICK - 1 by omega)
        (by omega) last
      have second := w.desk.ledger.newerThan_le w.watermark
        (show ALERTS_PER_TICK - 1 ≤ ALERTS_PER_TICK by omega) last cut
      have third := w.desk.ledger.newerThan_le w.watermark (show ALERTS_PER_TICK ≤ i by omega) cut bound
      rw [newest] at passed
      have behind := (first.trans_lt (lt_of_le_of_ne second apart)).trans_le third
      exact absurd passed (not_le.2 behind)

section Ticks

variable [InstantText]

theorem ingestAll_holds {channels : List Channel} {now : Instant} {alerts : List PendingAlert} :
    ∀ (newest : Instant) (s : Worker) (desk : Desk), desk.ledger.Sound →
    Prog.Obeys (served may) (ingestAll channels now newest alerts s) desk fun r desk' =>
      r.2.watermark = s.watermark ∧ ∀ final, r.1 = .ok final → final = newestOf newest alerts ∧
        ∀ a ∈ alerts, desk'.Holds a (channelsFor a channels) := by
  induction alerts with
  | nil =>
      intro newest s desk sound
      refine ⟨rfl, ?_⟩
      rintro final ⟨⟩
      exact ⟨rfl, by simp⟩
  | cons alert alerts ih =>
      intro newest s desk sound
      rw [ingestAll]
      apply Prog.Obeys.bind
      have one : Prog.Obeys (served may) (ingestOne channels now alert s) desk fun r desk' =>
          (r.2.watermark = s.watermark ∧ (r.1 = .ok () → desk'.Holds alert (channelsFor alert channels))) ∧
            desk.Kept desk' := (insertFor_holds _ desk sound).and (Desk.Kept.obeys _ desk)
      apply one.mono
      rintro ⟨answer, s'⟩ desk' ⟨⟨mark, holds⟩, kept⟩
      cases answer with
      | error e => exact ⟨mark, fun final done => by cases done⟩
      | ok u =>
          apply ((ih _ s' desk' (kept.sound sound)).and (Desk.Kept.obeys _ desk')).mono
          rintro r desk'' ⟨⟨same, later⟩, kept'⟩
          refine ⟨same.trans mark, fun final done => ?_⟩
          obtain ⟨rfl, rest⟩ := later final done
          refine ⟨rfl, fun a member => ?_⟩
          rcases List.mem_cons.1 member with rfl | other
          · exact (holds rfl).kept kept'
          · exact rest a other

theorem ingest_holds {now : Instant} (s : Worker) (desk : Desk) (sound : desk.ledger.Sound) :
    Prog.Obeys (served may) (ingest now s) desk fun r desk' =>
      r.2.watermark = s.watermark ∨
        let batch := desk.ledger.alertsSince s.watermark ALERTS_PER_TICK
        r.2.watermark = newestOf s.watermark batch ∧
          ∀ a ∈ batch, desk'.Holds a (channelsFor a desk.ledger.channels) := by
  refine ⟨trivial, fun answer desk' next => ?_⟩
  obtain ⟨refused, -, rfl⟩ | ⟨result, answered⟩ := next
  · cases refused
    exact .inl rfl
  · cases answered
    cases batch : desk.ledger.alertsSince s.watermark ALERTS_PER_TICK with
    | nil => exact .inl rfl
    | cons alert alerts =>
        refine ⟨trivial, fun answer desk' next => ?_⟩
        obtain ⟨refused, -, rfl⟩ | ⟨result, answered⟩ := next
        · cases refused
          exact .inl rfl
        · cases answered
          refine Prog.Obeys.bind (x := ingestAll desk.ledger.channels now s.watermark (alert :: alerts) s) ?_
          apply (ingestAll_holds s.watermark s desk sound).mono
          rintro ⟨answer, s'⟩ desk' ⟨mark, later⟩
          cases answer with
          | error e => exact .inl mark
          | ok newest =>
              obtain ⟨rfl, holds⟩ := later newest rfl
              exact .inr ⟨rfl, holds⟩

end Ticks

/-- The watermark stays where it is. -/
def Steady {α : Type} (x : WorkM α) : Prop :=
  Framed (Law.only fun _ => True) (fun s (_ : Unit) s' _ => s'.watermark = s.watermark) x

namespace Steady

theorem frame : Frame fun (s : Worker) (_ : Unit) s' (_ : Unit) => s'.watermark = s.watermark where
  refl := fun _ _ => rfl
  trans := fun first second => second.trans first

theorem pure {α : Type} {value : α} : Steady (Pure.pure value : WorkM α) := fun _ _ => rfl

theorem note {f : TickReport → TickReport} : Steady (RebalancerAlerts.note f) := fun _ _ => rfl

theorem ask (op : WorkOp) : Steady (Interaction.ask op : WorkM op.Ans) :=
  fun _ _ => ⟨trivial, fun _ _ _ => rfl⟩

theorem bind {α β : Type} {x : WorkM α} {f : α → WorkM β} (first : Steady x) (second : ∀ a, Steady (f a)) :
    Steady (x >>= f) := Framed.bind frame first second

theorem counted {mark : WorkM (Except LedgerError Unit)} {count : TickReport → TickReport}
    (h : Steady mark) : Steady (RebalancerAlerts.counted mark count) := by
  apply bind h
  intro r
  cases r with
  | error e => exact pure
  | ok _ => exact bind note fun _ => pure

theorem sendOne {now : Instant} {d : PendingDelivery} : Steady (RebalancerAlerts.sendOne now d) := by
  unfold RebalancerAlerts.sendOne
  split
  · exact counted (ask _)
  · apply bind (ask (.send _ _))
    intro r
    cases r with
    | ok id => exact counted (ask _)
    | error e => exact counted (ask _)

attribute [local irreducible] RebalancerAlerts.sendOne in
theorem sendAll {now : Instant} {ds : List PendingDelivery} : Steady (RebalancerAlerts.sendAll now ds) := by
  induction ds with
  | nil => exact pure
  | cons d ds ih =>
      rw [RebalancerAlerts.sendAll]
      apply bind sendOne
      intro r
      cases r with
      | error e => exact pure
      | ok _ => exact ih

theorem sendPending {now : Instant} : Steady (RebalancerAlerts.sendPending now) := by
  apply bind (ask (.undelivered _))
  intro r
  cases r with
  | error e => exact pure
  | ok ds => exact sendAll

theorem failed {step : String} {r : Except LedgerError Unit} : Steady (RebalancerAlerts.failed step r) := by
  cases r with
  | error e => exact fun _ _ => rfl
  | ok _ => exact pure

theorem served {α : Type} {x : WorkM α} (h : Steady x) (s : Worker) (desk : Desk) :
    Prog.Obeys (RebalancerAlerts.served may) (x s) desk fun r _ => r.2.watermark = s.watermark :=
  Framed.under (S := fun (s s' : Worker) => s'.watermark = s.watermark) h (fun _ _ _ => trivial) s desk

end Steady

section Ticks

variable [InstantText]

theorem tick_holds {now : Instant} (s : Worker) (desk : Desk) (sound : desk.ledger.Sound) :
    Prog.Obeys (served may) (tick now s) desk fun r desk' =>
      r.2.watermark = s.watermark ∨
        let batch := desk.ledger.alertsSince s.watermark ALERTS_PER_TICK
        r.2.watermark = newestOf s.watermark batch ∧
          ∀ a ∈ batch, desk'.Holds a (channelsFor a desk.ledger.channels) := by
  refine Prog.Obeys.bind (x := ingest now { s with report := .zero }) ?_
  apply (ingest_holds _ desk sound).mono
  rintro ⟨first, s'⟩ desk' reached
  have rest : Steady (do
      failed "ingest" first
      failed "send" (← sendPending now)) :=
    Steady.bind Steady.failed fun _ => Steady.bind Steady.sendPending fun _ => Steady.failed
  apply ((rest.served s' desk').and (Desk.Kept.obeys _ desk')).mono
  rintro ⟨_, s''⟩ desk'' ⟨same, kept⟩
  rcases reached with stayed | ⟨moved, holds⟩
  · exact .inl (same.trans stayed)
  · exact .inr ⟨same.trans moved, fun a member => (holds a member).kept kept⟩

/-! ## Over a run of ticks -/

/-- Every alert behind the watermark went by in some passage of it, and has a row on
    every channel it had to go to then. -/
def World.Reached (w : World) : Prop :=
  ∀ a ∈ w.desk.ledger.alerts, w.start < a.createdAt → a.createdAt ≤ w.watermark →
    ∃ p ∈ w.passed, p.before < a.createdAt ∧ a.createdAt ≤ p.after ∧
      ∀ c ∈ channelsFor a p.channels, w.desk.ledger.HasRow (c.id, a.dedupeKey)

instance (l : Ledger) (key : String × String) : Decidable (l.HasRow key) :=
  inferInstanceAs (Decidable (∃ d ∈ l.deliveries, d.delivery.key = key))

instance (w : World) : Decidable w.Reached :=
  inferInstanceAs (Decidable (∀ a ∈ w.desk.ledger.alerts, _ → _ → _))

/-- A new alert is not behind the watermark already, and no batch is cut inside a
    group of alerts of one time. -/
def World.Covers (w : World) : Happening → Prop
  | .tick _ => w.Uncut
  | .addAlert a => w.watermark < a.createdAt ∨ a.createdAt ≤ w.start
  | .addChannel _ => True
  | .restart _ => True

theorem World.ticked_reached {w : World} (sound : w.desk.ledger.Sound) (reached : w.Reached)
    (uncut : w.Uncut) (input : TickInput) : (w.ticked input).Reached := by
  have kept := w.ticked_kept input
  have all : ∀ n op, input.fails n op = true → True := fun _ _ _ => trivial
  let batch := w.desk.ledger.alertsSince w.watermark ALERTS_PER_TICK
  let post (watermark : Instant) (desk : Desk) : Prop :=
    watermark = w.watermark ∨ watermark = newestOf w.watermark batch ∧
      ∀ a ∈ batch, desk.Holds a (channelsFor a w.desk.ledger.channels)
  have moved : post (w.ticked input).watermark (w.ticked input).desk :=
    World.ticked_of all (tick_holds ⟨w.watermark, .zero⟩ w.desk sound)
  intro a member after before
  rw [kept.alerts] at member
  by_cases earlier : a.createdAt ≤ w.watermark
  · -- An alert the watermark had passed before: its rows are still there.
    obtain ⟨p, passed, low, high, rows⟩ := reached a member after earlier
    refine ⟨p, List.mem_append_left _ passed, low, high, fun c target => ?_⟩
    exact (rows c target).later kept.rows
  · refine ⟨_, List.mem_append_right _ (List.mem_singleton.2 rfl), not_le.1 earlier, before, ?_⟩
    rcases moved with stayed | ⟨newest, holds⟩
    · rw [stayed] at before
      exact absurd before earlier
    · rw [newest] at before
      have listed := Ledger.mem_newerThan.2 ⟨member, not_le.1 earlier⟩
      exact holds a (uncut.mem_batch listed before)

theorem World.step_reached {w : World} {e : Happening}
    (here : w.desk.ledger.Sound ∧ w.Reached) (covers : w.Covers e) :
    (w.step e).desk.ledger.Sound ∧ (w.step e).Reached := by
  obtain ⟨sound, reached⟩ := here
  refine ⟨World.step_sound sound e, ?_⟩
  cases e with
  | tick input => exact World.ticked_reached sound reached covers input
  | addAlert alert =>
      intro a member after before
      rcases List.mem_append.1 member with old | new
      · exact reached a old after before
      · obtain rfl : a = alert := by simpa using new
        rcases covers with ahead | behind
        · exact absurd before (not_le.2 ahead)
        · exact absurd after (not_lt.2 behind)
  | addChannel channel => exact reached
  | restart watermark =>
      intro a member after before
      exact absurd before (not_le.2 after)

/-- No alert is left behind in a run that covers every alert. -/
theorem no_alert_lost_if_covered (start : Instant) (events : List Happening)
    (covered : Guarded World.step World.Covers (World.opened start) events) :
    Visits World.step World.Reached (World.opened start) events := by
  have opened : (World.opened start).desk.ledger.Sound ∧ (World.opened start).Reached :=
    ⟨Ledger.empty_sound, by simp [World.Reached, World.opened, Desk.empty, Ledger.empty]⟩
  have all : Visits World.step (fun w => w.desk.ledger.Sound ∧ w.Reached) (World.opened start) events :=
    visits_of_guarded (fun _ _ => World.step_reached) opened covered
  exact all.mono fun w here => here.2

end Ticks

section Samples

attribute [local instance] RebalancerCore.epochText

/-- Alerts come in the order of their times, none before the watermark, to one worker. -/
def World.Admits (w : World) : Happening → Prop
  | .addAlert a =>
      w.watermark ≤ a.createdAt ∧ ∀ b ∈ w.desk.ledger.alerts.getLast?, b.createdAt ≤ a.createdAt
  | .restart _ => False
  | _ => True

instance (w : World) : (e : Happening) → Decidable (w.Admits e)
  | .addAlert a =>
      inferInstanceAs (Decidable (w.watermark ≤ a.createdAt ∧ ∀ b ∈ w.desk.ledger.alerts.getLast?, _))
  | .restart _ => isFalse id
  | .tick _ => isTrue trivial
  | .addChannel _ => isTrue trivial

instance (w : World) : Decidable w.Uncut :=
  inferInstanceAs (Decidable (∀ a ∈ (w.desk.ledger.newerThan w.watermark)[ALERTS_PER_TICK - 1]?, _))

instance (w : World) : (e : Happening) → Decidable (w.Covers e)
  | .tick _ => inferInstanceAs (Decidable w.Uncut)
  | .addAlert a => inferInstanceAs (Decidable (w.watermark < a.createdAt ∨ a.createdAt ≤ w.start))
  | .addChannel _ => isTrue trivial
  | .restart _ => isTrue trivial

/-- A tick that fails at its first row, and one that writes it. -/
theorem no_alert_lost_if_covered_sample :
    (run World.step (World.opened 0) (twoTicks fun n _ => n == 2)).watermark = 1 ∧
      Visits World.step World.Reached (World.opened 0) (twoTicks fun n _ => n == 2) :=
  ⟨by decide +kernel, no_alert_lost_if_covered 0 _ (by decide +kernel)⟩

/-- Two hundred notices of one time that go to no channel. -/
def crowd : List Happening :=
  (List.range ALERTS_PER_TICK).map fun n =>
    .addAlert { haltAlert s!"a{1000 + n}" "notice" 1 with code := "ALERT_NOTICE", severity := "info" }

/-- The notices, an alert of the same time, and a tick. -/
def crowded : List Happening :=
  .addChannel sampleChannel :: crowd ++
    [.addAlert (haltAlert "b" "acct:halt" 1), .tick (failing fun _ _ => false)]

/-- The limit cuts the batch before the alert, and the watermark passes it. -/
theorem alert_behind_the_limit_is_lost :
    Guarded World.step World.Admits (World.opened 0) crowded ∧
      ¬ (run World.step (World.opened 0) crowded).Reached := by
  decide +kernel

end Samples

end RebalancerAlerts
