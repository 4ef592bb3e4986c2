import SignalEngine.RebalancerAlerts.Worker
import SignalEngine.Lib.Runs

/-! # What the worker delivers

Rows are never removed or marked twice, and one row stands for a channel and a
key. The watermark leaves no alert behind as long as no batch is cut between two
alerts of one time; a mail is accepted once as long as no `mark_sent` fails.
-/

open Text Interaction Runs

namespace RebalancerAlerts

open RebalancerCore (Instant InstantText)

/-! ## Rows over time -/

/-- The same row, with at most one mark, set once. -/
structure StoredDelivery.Follows (earlier later : StoredDelivery) : Prop where
  id : later.id = earlier.id
  delivery : later.delivery = earlier.delivery
  createdAt : later.createdAt = earlier.createdAt
  final : earlier.unmarked = false → later = earlier

theorem StoredDelivery.Follows.refl (d : StoredDelivery) : d.Follows d := ⟨rfl, rfl, rfl, fun _ => rfl⟩

theorem StoredDelivery.Follows.trans {a b c : StoredDelivery} (first : a.Follows b)
    (second : b.Follows c) : a.Follows c where
  id := second.id.trans first.id
  delivery := second.delivery.trans first.delivery
  createdAt := second.createdAt.trans first.createdAt
  final := by
    intro marked
    have same := first.final marked
    rw [← same] at marked
    rw [second.final marked, same]

namespace Ledger

def Later (earlier later : Ledger) : Prop :=
  ∀ (i : Nat) (d : StoredDelivery), earlier.deliveries[i]? = some d →
    ∃ d', later.deliveries[i]? = some d' ∧ d.Follows d'

variable {id : String} {mark : StoredDelivery → StoredDelivery} (l : Ledger) (delivery : NewDelivery)

theorem Later.refl : l.Later l := fun _ d here => ⟨d, here, .refl d⟩

theorem Later.trans {a b c : Ledger} (first : a.Later b) (second : b.Later c) : a.Later c := by
  intro i d here
  obtain ⟨d', there, follows⟩ := first i d here
  obtain ⟨d'', last, onward⟩ := second i d' there
  exact ⟨d'', last, follows.trans onward⟩

def keys (l : Ledger) : List (String × String) := l.deliveries.map fun d => d.delivery.key

/-- Rows are numbered in order and found by their keys, no key has two rows, and no
    row has both marks. -/
structure Sound (l : Ledger) : Prop where
  numbered : l.nextId = l.deliveries.length
  ids : ∀ (i : Nat) (d : StoredDelivery), l.deliveries[i]? = some d → d.id = s!"d{i + 1}"
  found : ∀ key, l.byKey.contains key = true ↔ key ∈ l.keys
  unique : l.keys.Nodup
  once : ∀ d ∈ l.deliveries, d.sentAt = none ∨ d.error = none

theorem empty_sound : empty.Sound where
  numbered := rfl
  ids := by simp [empty]
  found := by simp [empty, keys]
  unique := by simp [empty, keys]
  once := by simp [empty]

theorem markFirst_getElem? (id : String) (mark : StoredDelivery → StoredDelivery)
    {ds : List StoredDelivery} : ∀ {i : Nat} {d : StoredDelivery}, ds[i]? = some d →
      ∃ d', (markFirst id mark ds)[i]? = some d' ∧ (d' = d ∨ d.unmarked = true ∧ d.id = id ∧ d' = mark d) := by
  induction ds with
  | nil => simp
  | cons head ds ih =>
      intro i d here
      rw [markFirst]
      by_cases hit : (head.id == id && head.unmarked) = true
      · rw [if_pos hit]
        simp only [Bool.and_eq_true, beq_iff_eq] at hit
        cases i with
        | zero =>
            obtain rfl : head = d := by simpa using here
            exact ⟨mark head, rfl, .inr ⟨hit.2, hit.1, rfl⟩⟩
        | succ i => exact ⟨d, here, .inl rfl⟩
      · rw [if_neg hit]
        cases i with
        | zero => exact ⟨d, here, .inl rfl⟩
        | succ i => exact ih here

@[simp] theorem length_markFirst {ds : List StoredDelivery} : (markFirst id mark ds).length = ds.length := by
  induction ds with
  | nil => rfl
  | cons d ds ih =>
      rw [markFirst]
      split <;> simp [ih]

theorem map_markFirst {γ : Type} {f : StoredDelivery → γ} (kept : ∀ d, f (mark d) = f d) {ds : List StoredDelivery} :
    (markFirst id mark ds).map f = ds.map f := by
  induction ds with
  | nil => rfl
  | cons d ds ih =>
      rw [markFirst]
      split <;> simp [ih, kept]

theorem mem_markFirst {ds : List StoredDelivery} {d' : StoredDelivery} (member : d' ∈ markFirst id mark ds) :
    ∃ d ∈ ds, d' = d ∨ d.unmarked = true ∧ d.id = id ∧ d' = mark d := by
  obtain ⟨i, bound, rfl⟩ := List.getElem_of_mem member
  rw [length_markFirst] at bound
  obtain ⟨d', there, which⟩ := markFirst_getElem? id mark (List.getElem?_eq_getElem bound)
  rw [List.getElem?_eq_some_iff] at there
  obtain ⟨_, rfl⟩ := there
  exact ⟨ds[i], List.getElem_mem bound, which⟩

structure Marks (mark : StoredDelivery → StoredDelivery) : Prop where
  id : ∀ d, (mark d).id = d.id
  delivery : ∀ d, (mark d).delivery = d.delivery
  createdAt : ∀ d, (mark d).createdAt = d.createdAt
  one : ∀ d, d.unmarked = true → (mark d).sentAt = none ∨ (mark d).error = none

theorem later_markFirst {l l' : Ledger} {id : String} {mark : StoredDelivery → StoredDelivery}
    (marks : Marks mark) (marked : l'.deliveries = markFirst id mark l.deliveries) : l.Later l' := by
  intro i d here
  obtain ⟨d', there, rfl | ⟨unmarked, -, rfl⟩⟩ := markFirst_getElem? id mark here
  · exact ⟨d', by rw [marked]; exact there, .refl d'⟩
  · refine ⟨mark d, by rw [marked]; exact there, marks.id d, marks.delivery d, marks.createdAt d, ?_⟩
    simp [unmarked]

theorem Sound.markFirst {l l' : Ledger} {id : String} {mark : StoredDelivery → StoredDelivery}
    (sound : l.Sound) (marks : Marks mark)
    (marked : l' = { l with deliveries := Ledger.markFirst id mark l.deliveries }) : l'.Sound := by
  have keys : l'.keys = l.keys := by
    subst marked
    exact map_markFirst fun d => by rw [marks.delivery d]
  subst marked
  refine ⟨?_, ?_, ?_, ?_, ?_⟩
  · rw [length_markFirst]
    exact sound.numbered
  · intro i d' there
    have bound : i < l.deliveries.length := by
      have := List.getElem?_eq_some_iff.1 there
      simpa using this.1
    obtain ⟨d, there', same⟩ :=
      markFirst_getElem? id mark (List.getElem?_eq_getElem bound)
    rw [there] at there'
    cases there'
    have numbered := sound.ids i _ (List.getElem?_eq_getElem bound)
    obtain rfl | ⟨-, -, rfl⟩ := same
    · exact numbered
    · rw [marks.id]
      exact numbered
  · rw [keys]
    exact sound.found
  · rw [keys]
    exact sound.unique
  · intro d' member
    obtain ⟨d, there, rfl | ⟨unmarked, -, rfl⟩⟩ := mem_markFirst member
    · exact sound.once d' there
    · exact marks.one d unmarked

theorem keyOrder_eq_iff {a b : String × String} : (keyOrder a b == .eq) = true ↔ a = b := by
  rw [beq_iff_eq]
  constructor
  · intro same
    obtain ⟨first, second⟩ := compareLex_eq_eq.1 same
    exact Prod.ext (Std.LawfulEqOrd.eq_of_compare first) (Std.LawfulEqOrd.eq_of_compare second)
  · rintro rfl
    exact Std.ReflCmp.compare_self

theorem unmarked_iff {d : StoredDelivery} : d.unmarked = true ↔ d.sentAt = none ∧ d.error = none := by
  simp [StoredDelivery.unmarked]

theorem insertIfAbsent_alerts (now : Instant) : (l.insertIfAbsent delivery now).2.alerts = l.alerts := by
  rw [insertIfAbsent]
  split <;> rfl

theorem insertIfAbsent_channels (now : Instant) : (l.insertIfAbsent delivery now).2.channels = l.channels := by
  rw [insertIfAbsent]
  split <;> rfl

theorem insertIfAbsent_later (now : Instant) : l.Later (l.insertIfAbsent delivery now).2 := by
  intro i d here
  refine ⟨d, ?_, .refl d⟩
  rw [insertIfAbsent]
  split
  · exact here
  · have bound := (List.getElem?_eq_some_iff.1 here).1
    rw [List.getElem?_append_left bound]
    exact here

theorem Sound.insertIfAbsent {l : Ledger} (sound : l.Sound) (delivery : NewDelivery) (now : Instant) :
    (l.insertIfAbsent delivery now).2.Sound := by
  rw [Ledger.insertIfAbsent]
  by_cases known : l.byKey.contains delivery.key = true
  · rw [if_pos known]
    exact sound
  · rw [if_neg known]
    have fresh : delivery.key ∉ l.keys := fun member => known ((sound.found _).2 member)
    refine ⟨?_, ?_, ?_, ?_, ?_⟩
    · simp [sound.numbered]
    · intro i d there
      rw [List.getElem?_append] at there
      split at there
      · exact sound.ids i d there
      · next past =>
          rw [List.getElem?_singleton] at there
          split at there
          · next same =>
              have last : i = l.deliveries.length := by omega
              cases there
              simp [sound.numbered, last]
          · cases there
    · intro key
      simp only [Std.ExtTreeMap.contains_insert, Bool.or_eq_true, keys, List.map_append, List.map_cons,
        List.map_nil, List.mem_append, List.mem_singleton, sound.found key, Ledger.keys]
      rw [or_comm]
      apply or_congr Iff.rfl
      rw [keyOrder_eq_iff, eq_comm]
    · simp only [keys, List.map_append, List.map_cons, List.map_nil]
      exact List.Nodup.append sound.unique (List.nodup_singleton _) (by simpa [keys] using fresh)
    · intro d member
      rcases List.mem_append.1 member with old | new
      · exact sound.once d old
      · obtain rfl : d = _ := by simpa using new
        exact .inl rfl

theorem marks_sent {providerMessageId : String} {at' : Instant} :
    Marks fun d => { d with sentAt := some at', providerMessageId := some providerMessageId } where
  id := fun _ => rfl
  delivery := fun _ => rfl
  createdAt := fun _ => rfl
  one := fun _ unmarked => .inr (unmarked_iff.1 unmarked).2

theorem marks_error {error : String} : Marks fun d => { d with error := some error } where
  id := fun _ => rfl
  delivery := fun _ => rfl
  createdAt := fun _ => rfl
  one := fun _ unmarked => .inl (unmarked_iff.1 unmarked).1

end Ledger

/-! ## The answers of the desk -/

/-- What the ledger and the sender may answer; only calls in `may` fail. -/
def served (may : WorkOp → Prop) : Law WorkOp WorkOp.Ans Desk where
  allowed := fun _ _ => True
  next := fun desk op answer desk' =>
    (op.refused = some answer ∧ may op ∧ desk' = desk) ∨
      ∃ result, desk.answer op result = (answer, desk')

theorem reply_served {may : WorkOp → Prop} {input : TickInput}
    (ok : ∀ n op, input.fails n op = true → may op) (s : Serving) (op : WorkOp) :
    (served may).next s.desk op (input.reply s op).1 (input.reply s op).2.desk := by
  simp only [TickInput.reply]
  split
  · next refused failing => exact .inl ⟨refused, ok _ _ failing, rfl⟩
  · exact .inr ⟨input.sendResult s.made op, rfl⟩

/-- What no call changes, and what every call keeps. -/
structure Desk.Kept (earlier later : Desk) : Prop where
  alerts : later.ledger.alerts = earlier.ledger.alerts
  channels : later.ledger.channels = earlier.ledger.channels
  rows : earlier.ledger.Later later.ledger
  sound : earlier.ledger.Sound → later.ledger.Sound

namespace Desk.Kept

theorem refl (desk : Desk) : desk.Kept desk := ⟨rfl, rfl, .refl _, id⟩

theorem trans {a b c : Desk} (first : a.Kept b) (second : b.Kept c) : a.Kept c where
  alerts := second.alerts.trans first.alerts
  channels := second.channels.trans first.channels
  rows := first.rows.trans second.rows
  sound := second.sound ∘ first.sound

theorem of_answer {desk desk' : Desk} {op : WorkOp} {result : Except SendError String}
    {answer : op.Ans} (answered : desk.answer op result = (answer, desk')) : desk.Kept desk' := by
  cases op with
  | alertsSince since limit =>
      cases answered
      exact refl _
  | channels =>
      cases answered
      exact refl _
  | undelivered limit =>
      cases answered
      exact refl _
  | insertIfAbsent delivery now =>
      cases answered
      exact ⟨Ledger.insertIfAbsent_alerts _ _ _, Ledger.insertIfAbsent_channels _ _ _,
        Ledger.insertIfAbsent_later _ _ _, fun sound => sound.insertIfAbsent _ _⟩
  | markSent id providerMessageId at' =>
      cases answered
      exact ⟨rfl, rfl, Ledger.later_markFirst Ledger.marks_sent rfl,
        fun sound => sound.markFirst Ledger.marks_sent rfl⟩
  | markError id error =>
      cases answered
      exact ⟨rfl, rfl, Ledger.later_markFirst Ledger.marks_error rfl,
        fun sound => sound.markFirst Ledger.marks_error rfl⟩
  | send id email =>
      cases result with
      | ok messageId =>
          cases answered
          exact ⟨rfl, rfl, .refl _, fun sound => sound⟩
      | error e =>
          cases answered
          exact refl _

theorem of_next {may : WorkOp → Prop} {desk desk' : Desk} {op : WorkOp} {answer : op.Ans}
    (next : (served may).next desk op answer desk') : desk.Kept desk' := by
  obtain ⟨-, -, rfl⟩ | ⟨result, answered⟩ := next
  · exact refl _
  · exact of_answer answered

theorem obeys {may : WorkOp → Prop} {α : Type} (p : Prog WorkOp WorkOp.Ans α) (desk : Desk) :
    p.Obeys (served may) desk fun _ desk' => desk.Kept desk' :=
  p.obeys_of_answers refl trans (fun _ _ => trivial) of_next desk

end Desk.Kept

/-! ## Accepted mails -/

def Desk.Waits (desk : Desk) (id : String) : Prop :=
  ∃ d ∈ desk.ledger.deliveries, d.id = id ∧ d.unmarked = true

/-- No mail was accepted twice, and the row of every accepted mail says so. -/
structure Desk.Tidy (desk : Desk) : Prop where
  sound : desk.ledger.Sound
  once : desk.accepted.Nodup
  marked : ∀ id ∈ desk.accepted, ∃ d ∈ desk.ledger.deliveries, d.id = id ∧ d.sentAt.isSome = true

theorem Ledger.Later.mem {l l' : Ledger} (later : l.Later l') {d : StoredDelivery}
    (member : d ∈ l.deliveries) : ∃ d' ∈ l'.deliveries, d.Follows d' := by
  obtain ⟨i, here⟩ := List.getElem?_of_mem member
  obtain ⟨d', there, follows⟩ := later i d here
  exact ⟨d', List.mem_of_getElem? there, follows⟩

theorem Ledger.Later.marked {l l' : Ledger} (later : l.Later l') {d : StoredDelivery}
    (member : d ∈ l.deliveries) (sent : d.sentAt.isSome = true) : d ∈ l'.deliveries := by
  obtain ⟨d', there, follows⟩ := later.mem member
  have marked : d.unmarked = false := by
    simp only [StoredDelivery.unmarked, Option.isNone_eq_false_iff.2 sent, Bool.false_and]
  rwa [follows.final marked] at there

theorem Ledger.Sound.ids_inj {l : Ledger} (sound : l.Sound) {d d' : StoredDelivery}
    (member : d ∈ l.deliveries) (member' : d' ∈ l.deliveries) (same : d.id = d'.id) : d = d' := by
  obtain ⟨i, here⟩ := List.getElem?_of_mem member
  obtain ⟨j, there⟩ := List.getElem?_of_mem member'
  rw [sound.ids i d here, sound.ids j d' there] at same
  have numbers : i + 1 = j + 1 := by
    have digits : toString (i + 1) = toString (j + 1) := by simpa using same
    have chars := congrArg (fun s => Nat.ofDigitChars 10 s.toList 0) digits
    simpa [Nat.ofDigitChars_ten_toDigits] using chars
  obtain rfl : i = j := by omega
  rw [here] at there
  exact Option.some.inj there

theorem Desk.Tidy.kept {desk desk' : Desk} (tidy : desk.Tidy) (kept : desk.Kept desk')
    (quiet : desk'.accepted = desk.accepted) : desk'.Tidy := by
  refine ⟨kept.sound tidy.sound, by rw [quiet]; exact tidy.once, ?_⟩
  rw [quiet]
  intro id member
  obtain ⟨d, there, same, sent⟩ := tidy.marked id member
  exact ⟨d, kept.rows.marked there sent, same, sent⟩

theorem Desk.Tidy.waits {desk : Desk} (tidy : desk.Tidy) {id : String} (waits : desk.Waits id) :
    id ∉ desk.accepted := by
  intro member
  obtain ⟨d, there, rfl, unmarked⟩ := waits
  obtain ⟨d', there', same, sent⟩ := tidy.marked _ member
  obtain rfl := tidy.sound.ids_inj there' there same
  rw [Ledger.unmarked_iff] at unmarked
  simp [unmarked.1] at sent

theorem Ledger.exists_markFirst {id : String} {mark : StoredDelivery → StoredDelivery}
    {ds : List StoredDelivery} (waits : ∃ d ∈ ds, d.id = id ∧ d.unmarked = true) :
    ∃ d ∈ ds, d.id = id ∧ mark d ∈ markFirst id mark ds := by
  induction ds with
  | nil => simp at waits
  | cons head ds ih =>
      rw [markFirst]
      by_cases hit : (head.id == id && head.unmarked) = true
      · rw [if_pos hit]
        simp only [Bool.and_eq_true, beq_iff_eq] at hit
        exact ⟨head, by simp, hit.1, by simp⟩
      · rw [if_neg hit]
        obtain ⟨d, member, here⟩ := waits
        rcases List.mem_cons.1 member with rfl | later
        · exact absurd (by simp [here]) hit
        · obtain ⟨d', member', same, marked⟩ := ih ⟨d, later, here⟩
          exact ⟨d', by simp [member'], same, by simp [marked]⟩

theorem Desk.Waits.markFirst {desk desk' : Desk} {id id' : String} {mark : StoredDelivery → StoredDelivery}
    (waits : desk.Waits id') (other : id' ≠ id)
    (marked : desk'.ledger.deliveries = Ledger.markFirst id mark desk.ledger.deliveries) :
    desk'.Waits id' := by
  obtain ⟨d, member, rfl, unmarked⟩ := waits
  obtain ⟨i, here⟩ := List.getElem?_of_mem member
  obtain ⟨d', there, rfl | ⟨-, same, -⟩⟩ := Ledger.markFirst_getElem? id mark here
  · refine ⟨d', ?_, rfl, unmarked⟩
    rw [marked]
    exact List.mem_of_getElem? there
  · exact absurd same other

/-- The law under which `mark_sent` does not fail. -/
abbrev marking : Law WorkOp WorkOp.Ans Desk := served fun op => op.isMarkSent = false

def Desk.Queued (ids : List String) (desk : Desk) : Prop := desk.Tidy ∧ ∀ id ∈ ids, desk.Waits id

/-- The mail of row `id` was accepted a moment ago; the row does not say so yet. -/
def Desk.Accepting (id : String) (ids : List String) (desk : Desk) : Prop :=
  ∃ before : Desk, before.Queued (id :: ids) ∧
    desk = { before with accepted := before.accepted ++ [id] }

theorem markError_queued {id error : String} {ids : List String} (other : id ∉ ids) :
    Triple marking (fun _ => Desk.Queued (id :: ids)) (markError id error)
      fun _ _ => Desk.Queued ids := by
  rintro _ desk ⟨tidy, waits⟩
  refine ⟨trivial, fun answer desk' next => ?_⟩
  have kept := Desk.Kept.of_next next
  obtain ⟨-, -, rfl⟩ | ⟨result, answered⟩ := next
  · exact ⟨tidy, fun id' member => waits id' (by simp [member])⟩
  · cases answered
    refine ⟨tidy.kept kept rfl, fun id' member => ?_⟩
    have differs : id' ≠ id := fun same => other (same ▸ member)
    exact (waits id' (by simp [member])).markFirst differs rfl

theorem markSent_queued {id messageId : String} {at' : Instant} {ids : List String} (other : id ∉ ids) :
    Triple marking (fun _ => Desk.Accepting id ids) (markSent id messageId at')
      fun _ _ => Desk.Queued ids := by
  rintro _ desk ⟨before, ⟨tidy, waits⟩, rfl⟩
  refine ⟨trivial, fun answer desk' next => ?_⟩
  obtain ⟨-, impossible, -⟩ | ⟨result, answered⟩ := next
  · simp [WorkOp.isMarkSent] at impossible
  · cases answered
    have rows : before.ledger.Later (before.ledger.markSent id messageId at') :=
      Ledger.later_markFirst Ledger.marks_sent rfl
    refine ⟨⟨tidy.sound.markFirst Ledger.marks_sent rfl, ?_, ?_⟩, fun id' member => ?_⟩
    · have fresh := tidy.waits (waits id (by simp))
      exact tidy.once.append (List.nodup_singleton id) (by simpa using fresh)
    · intro id' member
      rcases List.mem_append.1 member with earlier | now
      · obtain ⟨d, there, same, sent⟩ := tidy.marked id' earlier
        exact ⟨d, rows.marked there sent, same, sent⟩
      · obtain rfl : id' = id := by simpa using now
        obtain ⟨d, -, same, marked⟩ := Ledger.exists_markFirst (waits id' (by simp))
        exact ⟨_, marked, same, rfl⟩
    · have differs : id' ≠ id := fun same => other (same ▸ member)
      exact (waits id' (by simp [member])).markFirst differs rfl

theorem send_queued {id : String} {email : OutboundEmail} {ids : List String} :
    Triple marking (fun _ => Desk.Queued (id :: ids)) (send id email) fun r _ =>
      match r with
      | .ok _ => Desk.Accepting id ids
      | .error _ => Desk.Queued (id :: ids) := by
  rintro _ desk queued
  refine ⟨trivial, fun answer desk' next => ?_⟩
  obtain ⟨refused, -, -⟩ | ⟨result, answered⟩ := next
  · cases refused
  · cases result with
    | ok messageId =>
        cases answered
        exact ⟨desk, queued, rfl⟩
    | error e =>
        cases answered
        exact queued

theorem note_keeps {P : Desk → Prop} {law : Law WorkOp WorkOp.Ans Desk} {f : TickReport → TickReport} :
    Triple law (fun _ => P) (note f) fun _ _ => P := Triple.modify

theorem counted_queued {law : Law WorkOp WorkOp.Ans Desk} {pre : Desk → Prop} {ids : List String}
    {mark : WorkM (Except LedgerError Unit)} {count : TickReport → TickReport}
    (h : Triple law (fun _ => pre) mark fun _ _ => Desk.Queued ids) :
    Triple law (fun _ => pre) (counted mark count) fun _ _ => Desk.Queued ids := by
  apply Triple.bind h
  intro r
  cases r with
  | error e => exact fun _ _ queued => queued
  | ok _ => exact Triple.bind note_keeps fun _ _ _ queued => queued

theorem sendOne_queued {now : Instant} {d : PendingDelivery} {ids : List String} (other : d.id ∉ ids) :
    Triple marking (fun _ => Desk.Queued (d.id :: ids)) (sendOne now d)
      fun _ _ => Desk.Queued ids := by
  unfold sendOne
  split
  · exact counted_queued (markError_queued other)
  · apply Triple.bind send_queued
    intro r
    cases r with
    | ok id => exact counted_queued (markSent_queued other)
    | error e => exact counted_queued (markError_queued other)

theorem sendAll_queued {now : Instant} {ds : List PendingDelivery}  :
    (ds.map (·.id)).Nodup →
      Triple marking (fun _ => Desk.Queued (ds.map (·.id))) (sendAll now ds) fun _ _ => Desk.Tidy := by
  induction ds with
  | nil => exact fun _ _ _ queued => queued.1
  | cons d ds ih =>
      intro distinct
      rw [List.map_cons, List.nodup_cons] at distinct
      rw [sendAll]
      apply Triple.bind (sendOne_queued distinct.1)
      intro r
      cases r with
      | error e => exact fun _ _ queued => queued.1
      | ok _ => exact ih distinct.2

theorem Desk.Tidy.undelivered {desk : Desk} (tidy : desk.Tidy) (limit : Nat) :
    ((desk.ledger.undelivered limit).map (·.id)).Nodup ∧
      desk.Queued ((desk.ledger.undelivered limit).map (·.id)) := by
  have ids : (desk.ledger.deliveries.map (·.id)).Nodup := by
    rw [List.nodup_map_iff_inj_on (tidy.sound.unique.of_map _)]
    exact fun d here d' there same => tidy.sound.ids_inj here there same
  have named : ∀ rows : List StoredDelivery,
      ((rows.filterMap (Ledger.pendingOf desk.ledger.channels)).map (·.id)).Sublist (rows.map (·.id)) := by
    intro rows
    induction rows with
    | nil => exact .slnil
    | cons d rows ih =>
        rw [List.filterMap_cons]
        cases pending : Ledger.pendingOf desk.ledger.channels d with
        | none => exact ih.cons _
        | some e =>
            obtain ⟨c, -, rfl⟩ := Option.map_eq_some_iff.1 pending
            exact ih.cons_cons _
  have all := named (desk.ledger.deliveries.filter StoredDelivery.unmarked)
  have fewer : ((desk.ledger.undelivered limit).map (·.id)).Sublist
      ((desk.ledger.deliveries.filter StoredDelivery.unmarked).map (·.id)) :=
    ((List.take_sublist _ _).map _).trans all
  refine ⟨ids.sublist (fewer.trans (List.filter_sublist.map _)), tidy, ?_⟩
  intro id member
  obtain ⟨d, there, rfl⟩ := List.mem_map.1 (fewer.subset member)
  exact ⟨d, (List.mem_filter.1 there).1, rfl, (List.mem_filter.1 there).2⟩

theorem sendPending_tidy {now : Instant} :
    Triple marking (fun _ => Desk.Tidy) (sendPending now) fun _ _ => Desk.Tidy := by
  have listed : Triple marking (fun _ => Desk.Tidy) (undelivered SENDS_PER_TICK) fun r _ desk =>
      desk.Tidy ∧ ∀ ds, r = .ok ds → (ds.map (·.id)).Nodup ∧ desk.Queued (ds.map (·.id)) := by
    rintro _ desk tidy
    refine ⟨trivial, fun answer desk' next => ?_⟩
    obtain ⟨refused, -, rfl⟩ | ⟨result, answered⟩ := next
    · cases refused
      exact ⟨tidy, by simp⟩
    · cases answered
      refine ⟨tidy, ?_⟩
      rintro ds ⟨⟩
      exact tidy.undelivered _
  apply Triple.bind listed
  intro r
  cases r with
  | error e => exact fun _ _ start => start.1
  | ok ds =>
      rintro s desk ⟨-, waiting⟩
      obtain ⟨distinct, queued⟩ := waiting ds rfl
      exact sendAll_queued distinct s desk queued

def WorkOp.Silent : WorkOp → Prop
  | send _ _ => False
  | _ => True

theorem Desk.Tidy.silent {may : WorkOp → Prop} {desk desk' : Desk} {op : WorkOp} {answer : op.Ans}
    (tidy : desk.Tidy) (silent : op.Silent) (next : (served may).next desk op answer desk') : desk'.Tidy := by
  apply tidy.kept (.of_next next)
  obtain ⟨-, -, rfl⟩ | ⟨result, answered⟩ := next
  · rfl
  · cases op with
    | send row email => exact absurd silent id
    | alertsSince since limit => cases answered; rfl
    | channels => cases answered; rfl
    | insertIfAbsent delivery now => cases answered; rfl
    | undelivered limit => cases answered; rfl
    | markSent id messageId at' => cases answered; rfl
    | markError id error => cases answered; rfl

theorem ask_silent (op : WorkOp) (silent : op.Silent) :
    Calls WorkOp.Silent (ask op : WorkM op.Ans) := fun _ _ _ => ⟨silent, fun _ _ _ => trivial⟩

theorem note_silent {f : TickReport → TickReport} : Calls WorkOp.Silent (note f) := Calls.modify

theorem insertFor_silent {alert : PendingAlert} {severity : Severity} {rendered : Rendered} {now : Instant}
    {targets : List Channel} :
    Calls WorkOp.Silent (insertFor alert severity rendered now targets) := by
  induction targets with
  | nil => exact Calls.pure
  | cons c targets ih =>
      rw [insertFor]
      apply Calls.bind (ask_silent (.insertIfAbsent _ now) trivial)
      intro r
      match r with
      | .error e => exact Calls.pure
      | .ok true => exact Calls.bind note_silent fun _ => ih
      | .ok false => exact Calls.bind note_silent fun _ => ih

section Ticks

variable [InstantText]

theorem ingestAll_silent {channels : List Channel} {now : Instant} {alerts : List PendingAlert} :
    ∀ {newest : Instant}, Calls WorkOp.Silent (ingestAll channels now newest alerts) := by
  induction alerts with
  | nil => exact Calls.pure
  | cons alert alerts ih =>
      intro newest
      rw [ingestAll]
      apply Calls.bind (Calls.bind note_silent fun _ => insertFor_silent)
      intro r
      cases r with
      | error e => exact Calls.pure
      | ok _ => exact ih

theorem ingest_silent {now : Instant} : Calls WorkOp.Silent (ingest now) := by
  apply Calls.bind Calls.get
  intro w
  apply Calls.bind (ask_silent (.alertsSince _ _) trivial)
  intro r
  match r with
  | .error e => exact Calls.pure
  | .ok [] => exact Calls.pure
  | .ok (alert :: alerts) =>
      apply Calls.bind (ask_silent .channels trivial)
      intro r
      cases r with
      | error e => exact Calls.pure
      | ok channels =>
          apply Calls.bind ingestAll_silent
          intro r
          cases r with
          | error e => exact Calls.pure
          | ok newest => exact Calls.bind Calls.modify fun _ => Calls.pure

theorem tick_tidy {now : Instant} :
    Triple marking (fun _ => Desk.Tidy) (tick now) fun _ _ => Desk.Tidy := by
  have report {step : String} {r : Except LedgerError Unit} :
      Triple marking (fun _ => Desk.Tidy) (failed step r) fun _ _ => Desk.Tidy := by
    cases r with
    | error e => exact fun _ _ tidy => tidy
    | ok _ => exact fun _ _ tidy => tidy
  apply Triple.bind Triple.modify
  intro _
  apply Triple.bind (ingest_silent.triple fun desk op tidy silent =>
    ⟨trivial, fun answer desk' next => Desk.Tidy.silent tidy silent next⟩)
  intro _
  apply Triple.bind report
  intro _
  exact Triple.bind sendPending_tidy fun _ => report

/-! ## Over a run of ticks -/

theorem World.ticked_of {may : WorkOp → Prop} {w : World} {input : TickInput} {post : Instant → Desk → Prop}
    (ok : ∀ n op, input.fails n op = true → may op)
    (obeys : Prog.Obeys (served may) (tick input.now ⟨w.watermark, .zero⟩) w.desk
      fun r desk => post r.2.watermark desk) :
    post (w.ticked input).watermark (w.ticked input).desk := by
  let w₀ : Serving := ⟨w.desk, 0⟩
  have start : Prog.Obeys (served may) (tick input.now ⟨w.watermark, .zero⟩) (Serving.desk w₀)
      fun r desk => post r.2.watermark desk := obeys
  exact start.served (reply_served ok)

theorem World.ticked_kept (w : World) (input : TickInput) : w.desk.Kept (w.ticked input).desk := by
  have all : ∀ n op, input.fails n op = true → True := fun _ _ _ => trivial
  let post (_ : Instant) (desk : Desk) : Prop := w.desk.Kept desk
  have kept : post (w.ticked input).watermark (w.ticked input).desk :=
    World.ticked_of all (Desk.Kept.obeys _ w.desk)
  exact kept

theorem World.step_rows (w : World) (e : Happening) : w.desk.ledger.Later (w.step e).desk.ledger := by
  cases e with
  | tick input => exact (w.ticked_kept input).rows
  | addAlert alert => exact .refl _
  | addChannel channel => exact .refl _
  | restart watermark => exact .refl _

theorem World.step_sound {w : World} (sound : w.desk.ledger.Sound) (e : Happening) :
    (w.step e).desk.ledger.Sound := by
  cases e with
  | tick input => exact (w.ticked_kept input).sound sound
  | addAlert alert => exact ⟨sound.numbered, sound.ids, sound.found, sound.unique, sound.once⟩
  | addChannel channel => exact ⟨sound.numbered, sound.ids, sound.found, sound.unique, sound.once⟩
  | restart watermark => exact sound

theorem World.run_rows (events : List Happening) : ∀ w : World,
    w.desk.ledger.Later (run World.step w events).desk.ledger := by
  induction events with
  | nil => exact fun w => .refl _
  | cons e events ih => exact fun w => (w.step_rows e).trans (ih (w.step e))

def Happening.Marks : Happening → Prop
  | .tick input => ∀ n op, op.isMarkSent = true → input.fails n op = false
  | _ => True

theorem World.step_tidy {w : World} {e : Happening} (tidy : w.desk.Tidy) (marks : e.Marks) :
    (w.step e).desk.Tidy := by
  cases e with
  | tick input =>
      have lawful : ∀ n op, input.fails n op = true → op.isMarkSent = false := by
        intro n op failing
        cases mark : op.isMarkSent with
        | false => rfl
        | true => rw [marks n op mark] at failing; cases failing
      let post (_ : Instant) (desk : Desk) : Prop := desk.Tidy
      have kept : post (w.ticked input).watermark (w.ticked input).desk :=
        World.ticked_of lawful (tick_tidy ⟨w.watermark, .zero⟩ w.desk tidy)
      exact kept
  | addAlert alert => exact ⟨w.step_sound tidy.sound (.addAlert alert), tidy.once, tidy.marked⟩
  | addChannel channel => exact ⟨w.step_sound tidy.sound (.addChannel channel), tidy.once, tidy.marked⟩
  | restart watermark => exact tidy

/-- One row for a channel and a key, one id for a row, one mark for a row. -/
structure World.Filed (w : World) : Prop where
  keys : w.desk.ledger.keys.Nodup
  ids : (w.desk.ledger.deliveries.map (·.id)).Nodup
  once : ∀ d ∈ w.desk.ledger.deliveries, d.sentAt = none ∨ d.error = none

omit [InstantText] in
theorem Ledger.Sound.filed {w : World} (sound : w.desk.ledger.Sound) : w.Filed where
  keys := sound.unique
  ids := by
    rw [List.nodup_map_iff_inj_on (sound.unique.of_map _)]
    exact fun d here d' there same => sound.ids_inj here there same
  once := sound.once

/-- Rows stay, each with at most one mark that is set once, and no mail is accepted
    twice in a run whose `mark_sent` calls succeed. -/
theorem delivered_once_if_marked (start : Instant) (events : List Happening) :
    Visits World.step World.Filed (World.opened start) events ∧
    (∀ first second, events = first ++ second →
      (run World.step (World.opened start) first).desk.ledger.Later
        (run World.step (World.opened start) events).desk.ledger) ∧
    (Guarded World.step (fun _ e => e.Marks) (World.opened start) events →
      Visits World.step (fun w => w.desk.accepted.Nodup) (World.opened start) events) := by
  refine ⟨?_, ?_, ?_⟩
  · have sound : Visits World.step (fun w => w.desk.ledger.Sound) (World.opened start) events := by
      rw [visits_iff_take]
      intro n
      generalize events.take n = taken
      have kept : ∀ w : World, w.desk.ledger.Sound → (run World.step w taken).desk.ledger.Sound := by
        induction taken with
        | nil => exact fun w sound => sound
        | cons e taken ih => exact fun w sound => ih (w.step e) (World.step_sound sound e)
      exact kept _ Ledger.empty_sound
    exact sound.mono fun w here => here.filed
  · rintro first second rfl
    rw [run_append]
    exact World.run_rows second _
  · intro guarded
    have tidy : (World.opened start).desk.Tidy :=
      ⟨Ledger.empty_sound, by simp [World.opened, Desk.empty], by simp [World.opened, Desk.empty]⟩
    have all : Visits World.step (fun w => w.desk.Tidy) (World.opened start) events :=
      visits_of_guarded (fun _ _ => World.step_tidy) tidy guarded
    exact all.mono fun w here => here.once

end Ticks

section Samples

attribute [local instance] RebalancerCore.epochText

def sampleChannel : Channel := ⟨"c", .platform, none, "email", "ops@example.com"⟩

def haltAlert (id key : String) (createdAt : Instant) : PendingAlert :=
  ⟨id, none, "acct", "ALERT_HALT", "critical", "halted", "run", key, createdAt, createdAt⟩

def failing (fails : Nat → WorkOp → Bool) : TickInput := ⟨0, fails, fun _ _ => .ok "m"⟩

/-- A channel and an alert, then a tick with failures and one without. -/
def twoTicks (fails : Nat → WorkOp → Bool) : List Happening :=
  [.addChannel sampleChannel, .addAlert (haltAlert "a" "acct:halt" 1), .tick (failing fails),
    .tick (failing fun _ _ => false)]

/-- The first tick cannot write the row; the second writes and sends it. -/
theorem delivered_once_if_marked_sample :
    (run World.step (World.opened 0) (twoTicks fun n op => n == 2 && !op.isMarkSent)).desk.accepted = ["d1"] ∧
      Visits World.step (fun w => w.desk.accepted.Nodup) (World.opened 0)
        (twoTicks fun n op => n == 2 && !op.isMarkSent) := by
  refine ⟨by decide +kernel, (delivered_once_if_marked 0 _).2.2 ⟨trivial, trivial, ?_, ?_, trivial⟩⟩
  · intro n op mark
    simp [failing, mark]
  · intro n op mark
    rfl

/-- `mark_sent` fails after the sender accepted the mail: it goes out again. -/
theorem failed_mark_sends_again :
    ¬ (run World.step (World.opened 0) (twoTicks fun n op => n == 5 && op.isMarkSent)).desk.accepted.Nodup := by
  decide +kernel

end Samples

end RebalancerAlerts
