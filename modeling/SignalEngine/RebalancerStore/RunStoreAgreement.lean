import SignalEngine.RebalancerStore.RunTables
import Mathlib.Logic.Equiv.Nat

/-! # The two run stores

The statements of the Postgres store, interleaved in any way, against the in-memory store
that serves one call at a time.
-/

open BrokerAdapters Text Outcome Linearize

namespace RebalancerStore

open RebalancerCore (Instant InstantText DayCounters)
open RebalancerRisk (NaiveDate nanosPerSecond)
open RebalancerRun

/-! ## What is compared -/

def SameBegin : Begin → Begin → Prop
  | .started n, .started n' => n = n'
  | .alreadyDone r, .alreadyDone r' => r = persisted r'
  | .busy t, .busy t' => t = t'
  | _, _ => False

def SameAnswer {α : Type} (same : α → α → Prop) : Except RunStoreError α → Except RunStoreError α → Prop
  | .ok a, .ok b => same a b
  | .error e, .error e' => e = e'
  | _, _ => False

/-- The same answer: records on what the tables keep of them, rows without an order in
    any order, amounts as values. -/
def agree : (c : StoreCall) → c.Answer → c.Answer → Prop
  | .begin .. => SameAnswer SameBegin
  | .journalOrder .. => Eq
  | .inFlight _ => SameAnswer List.Perm
  | .finish _ => Eq
  | .lastSnapshot _ => Eq
  | .dayCounters .. => SameAnswer SameCounters
  | .get _ => SameAnswer fun (found kept : Option RunRecord) => found = kept.map persisted
  | .lastActedDecision .. => Eq

section Stores

variable [InstantReader] (tenants : String → Tenant)

def serve (store : RunStore) : (c : StoreCall) → RunStore × c.Answer
  | .begin key tradingDay startedAt leaseSecs => store.begin key tradingDay startedAt leaseSecs
  | .journalOrder key entry => store.journalOrder key entry
  | .inFlight accountId => store.inFlight accountId
  | .finish record => store.finish record
  | .lastSnapshot accountId => store.lastSnapshot accountId
  | .dayCounters accountId day => store.dayCounters accountId day
  | .get key => store.get key
  | .lastActedDecision accountId sleeveId => store.lastActedDecision accountId sleeveId

/-! ## Conditions -/

/-- The values of a call survive the columns, and the accounts of the ledger have a tenant. -/
def Proper : StoreCall → Prop
  | .begin key _ startedAt leaseSecs =>
      Whole key.scheduledFor ∧ Whole startedAt ∧ Whole (startedAt + leaseSecs * nanosPerSecond)
  | .journalOrder key entry => Whole key.scheduledFor ∧ Readable entry.notional
  | .finish record => Whole record.key.scheduledFor ∧ Whole record.finishedAt ∧ Storable record ∧
      (actedRows record ≠ [] → tenants record.key.accountId ≠ unknownTenant)
  | .get key => Whole key.scheduledFor
  | .lastActedDecision accountId _ => tenants accountId ≠ unknownTenant
  | .inFlight _ | .lastSnapshot _ | .dayCounters .. => True

abbrev PgTask := Task Sql Sql.Ans StoreCall.Answer

/-- The record is of the attempt that the row is at. -/
structure OfAttempt (r : RunRow) (record : RunRecord) : Prop where
  attempt : r.attempt = record.attempt
  tradingDay : r.tradingDay = record.tradingDay
  startedAt : r.startedAt = stored record.startedAt

/-- No other run of the account was finished at the same time. -/
def FinishesApart (w : Tables) (record : RunRecord) : Prop :=
  ∀ r ∈ w.runs, r.key.accountId = record.key.accountId → r.finishedAt ≠ some (stored record.finishedAt)

variable [DebugText] in
/-- A `day_counters` that has read the finished runs and not yet the journal. -/
def BetweenReads (accountId : String) (day : NaiveDate) (t : PgTask) : Prop :=
  ∃ done, t = ⟨.dayCounters accountId day, PgRunStore.countNotionals accountId day done⟩

/-- A finished run that moves amounts from one read to the other. -/
def Counts (record : RunRecord) : Prop := record.mode = .live ∧ amountsOf record.placed ≠ []

def Tables.journalAmounts (w : Tables) (accountId : String) (day : NaiveDate) : List Dec :=
  (w.journaled accountId fun r => r.tradingDay == day).filterMap fun j => (Dec.parse j.notional).toOption

variable [DebugText] in
/-- A statement that comes at a time when the in-memory store can say the same. -/
def Orderly (w : Tables) (others : List PgTask) (t : PgTask) : Sql → Prop
  | .upsertJournal _ key _ => ∀ r, w.row key = some r → r.status = .inProgress
  | .resumeRun attempt _ _ _ key prevLease =>
      ∀ r, w.row key = some r → r.status = .inProgress → r.leaseUntil = stored prevLease → attempt = r.attempt + 1
  | .selectRun key => ∀ tradingDay startedAt leaseSecs,
      t = ⟨.begin key tradingDay startedAt leaseSecs, PgRunStore.beginLost key⟩ →
        ∀ r, w.row key = some r → r.status = .inProgress → startedAt < r.leaseUntil
  | .finishRun _ record => ∀ r, w.row record.key = some r → r.status = .inProgress →
      OfAttempt r record ∧ FinishesApart w record ∧
        (Counts record → ∀ t ∈ others, ¬ BetweenReads record.key.accountId record.tradingDay t)
  | .selectNotionals accountId day => sizeOf (w.doneAmounts accountId day ++ w.journalAmounts accountId day) < 2 ^ 127
  | _ => True

variable [DebugText] in
/-- The conditions on a call, and on a statement beside the others. -/
def guard : Guard Sql Sql.Ans Tables StoreCall.Answer where
  call := Proper tenants
  statement w others
    | ⟨_, .done _⟩ => True
    | ⟨c, .call op next⟩ => Orderly w others ⟨c, .call op next⟩ op

/-! ## The two states -/

variable [DebugText] in
inductive Shows : RunRow → Entry → Prop where
  | inProgress {r : RunRow} {p : Progress} (status : r.status = .inProgress) (attempt : r.attempt = p.attempt)
      (tradingDay : r.tradingDay = p.tradingDay) (startedAt : r.startedAt = p.startedAt)
      (leaseUntil : r.leaseUntil = p.leaseUntil) (whole : Whole p.leaseUntil) : Shows r (.inProgress p)
  | done {r before : RunRow} {record : RunRecord} (row : r = before.finished record) (storable : Storable record)
      (key : before.key = storedKey record.key) (ofAttempt : OfAttempt before record)
      (whole : Whole record.finishedAt) : Shows r (.done record)

theorem Shows.of_running {r : RunRow} {e : Entry} (shows' : Shows r e) (status : r.status = .inProgress) :
    ∃ p, e = .inProgress p := by
  cases shows' with
  | inProgress => exact ⟨_, rfl⟩
  | done row =>
      rw [row] at status
      cases status

theorem Shows.written {r : RunRow} {record : RunRecord} (shows' : Shows r (.done record)) :
    ∃ before : RunRow, r = before.finished record ∧ Storable record ∧ before.key = storedKey record.key ∧
      OfAttempt before record ∧ Whole record.finishedAt := by
  cases shows' with
  | done row storable key ofAttempt whole => exact ⟨_, row, storable, key, ofAttempt, whole⟩

structure Journals (w : Tables) (key : RunKey) (p : Progress) : Prop where
  rows : w.journalOf key = p.journal.map (journalRow (tenants key.accountId) key)
  tags : (p.journal.map JournalEntry.tag).Nodup
  readable : ∀ e ∈ p.journal, Readable e.notional

structure Related (w : Tables) (s : RunStore) : Prop where
  untroubled : s.failNext = 0
  keys : w.runs.map RunRow.key = s.order
  distinct : s.order.Nodup
  whole : ∀ key ∈ s.order, storedKey key = key
  begun : ∀ key, key ∉ s.order → s.entries key = none
  shown : ∀ r ∈ w.runs, ∃ e, s.entries r.key = some e ∧ Shows r e
  journals : ∀ key p, s.entries key = some (.inProgress p) → Journals tenants w key p
  referenced : ∀ j ∈ w.journal, j.key ∈ s.order
  finishTimes : ∀ r ∈ w.runs, ∀ r' ∈ w.runs, r.key.accountId = r'.key.accountId →
    ∀ t, r.finishedAt = some t → r'.finishedAt = some t → r.key = r'.key
  ledger : ∃ rows, w.ledger = some rows ∧ OwnRows tenants rows ∧ newestActed rows = s.acted

def Tables.empty : Tables := ⟨[], [], some []⟩

variable {tenants} {w : Tables} {s : RunStore}

omit [InstantReader] in
theorem Journals.moved {w' : Tables} {key : RunKey} {p : Progress} (own : Journals tenants w key p)
    (same : w'.journal = w.journal) : Journals tenants w' key p :=
  ⟨by rw [Tables.journalOf, same]; exact own.rows, own.tags, own.readable⟩

namespace Related

section

variable (fits : Related tenants w s)

include fits

theorem check {α : Type} (answer : RunStore → RunStore × Except RunStoreError α) : s.check answer = answer s := by
  rw [RunStore.check, fits.untroubled, if_neg (lt_irrefl 0)]

theorem read {α : Type} (f : RunStore → α) : s.read f = (s, .ok (f s)) := fits.check _

theorem lookup {key : RunKey} (whole : storedKey key = key) :
    (w.row key = none ∧ s.entries key = none ∧ key ∉ s.order) ∨
      ∃ r e, w.row key = some r ∧ r ∈ w.runs ∧ r.key = key ∧ s.entries key = some e ∧ Shows r e := by
  cases found : w.row key with
  | none =>
      have absent : key ∉ s.order := fits.keys ▸ Tables.row_eq_none whole found
      exact .inl ⟨rfl, fits.begun key absent, absent⟩
  | some r =>
      obtain ⟨member, rfl⟩ := Tables.row_eq_some whole found
      obtain ⟨e, entry, shows'⟩ := fits.shown r member
      exact .inr ⟨r, e, rfl, member, rfl, entry, shows'⟩

theorem known {key : RunKey} (row : key ∈ w.runs.map RunRow.key) :
    ∃ r e, w.row key = some r ∧ r ∈ w.runs ∧ r.key = key ∧ s.entries key = some e ∧ Shows r e := by
  rcases fits.lookup (fits.whole key (fits.keys ▸ row)) with ⟨-, -, absent⟩ | known
  · exact absurd (fits.keys ▸ row) absent
  · exact known

theorem insert {key : RunKey} {r : RunRow} {p : Progress} (new : key ∉ s.order) (whole : storedKey key = key)
    (rowKey : r.key = key) (shows' : Shows r (.inProgress p)) (unfinished : r.finishedAt = none)
    (empty : p.journal = []) :
    Related tenants { w with runs := w.runs ++ [r] }
      { s.put key (.inProgress p) with order := s.order ++ [key] } where
  untroubled := fits.untroubled
  keys := by rw [List.map_append, fits.keys, List.map_singleton, rowKey]
  distinct := fits.distinct.append (List.nodup_singleton _) (List.disjoint_singleton.2 new)
  whole := by
    intro k member
    rcases List.mem_append.1 member with old | here
    · exact fits.whole k old
    · rw [List.mem_singleton.1 here]
      exact whole
  begun := by
    intro k absent
    rw [List.mem_append, not_or, List.mem_singleton] at absent
    exact (put_other (Ne.symm absent.2)).trans (fits.begun k absent.1)
  shown := by
    intro r' member
    rcases List.mem_append.1 member with old | here
    · obtain ⟨e, entry, seen⟩ := fits.shown r' old
      have other : r'.key ≠ key := fun same => new (same ▸ fits.keys ▸ List.mem_map_of_mem old)
      exact ⟨e, (put_other (Ne.symm other)).trans entry, seen⟩
    · rw [List.mem_singleton.1 here, rowKey]
      exact ⟨_, put_self, shows'⟩
  journals := by
    intro k p' entry
    by_cases here : k = key
    · subst here
      obtain rfl : p = p' := Entry.inProgress.inj (Option.some.inj (put_self.symm.trans entry))
      refine ⟨?_, by simp [empty], by simp [empty]⟩
      rw [empty, List.map_nil, Tables.journalOf, List.filter_eq_nil_iff]
      intro j member same
      exact new (by simpa using (beq_iff_eq.1 same) ▸ fits.referenced j member)
    · have old := fits.journals k p' ((put_other (Ne.symm here)).symm.trans entry)
      exact old.moved rfl
  referenced := fun j member => List.mem_append_left _ (fits.referenced j member)
  finishTimes := by
    intro r' member r'' member' account t first second
    rcases List.mem_append.1 member with old | here
    · rcases List.mem_append.1 member' with old' | here'
      · exact fits.finishTimes r' old r'' old' account t first second
      · rw [List.mem_singleton.1 here', unfinished] at second
        cases second
    · rw [List.mem_singleton.1 here, unfinished] at first
      cases first
  ledger := fits.ledger

theorem replace {r : RunRow} {e : Entry} (member : r.key ∈ s.order) (shows' : Shows r e)
    (journals : ∀ p, e = .inProgress p → Journals tenants w r.key p)
    (times : ∀ old ∈ w.runs, old.key ≠ r.key → old.key.accountId = r.key.accountId → ∀ t, r.finishedAt = some t → old.finishedAt ≠ some t) :
    Related tenants { w with runs := Tables.replace w.runs r } (s.put r.key e) where
  untroubled := fits.untroubled
  keys := (Tables.replace_keys w.runs r).trans fits.keys
  distinct := fits.distinct
  whole := fits.whole
  begun := by
    intro k absent
    have other : r.key ≠ k := fun same => absent (same ▸ member)
    exact (put_other other).trans (fits.begun k absent)
  shown := by
    intro r' here
    rcases Tables.mem_replace here with rfl | ⟨old, other⟩
    · exact ⟨e, put_self, shows'⟩
    · obtain ⟨e', entry, seen⟩ := fits.shown r' old
      exact ⟨e', (put_other (Ne.symm other)).trans entry, seen⟩
  journals := by
    intro k p entry
    by_cases here : k = r.key
    · subst here
      have same := Option.some.inj (put_self.symm.trans entry)
      have own := journals p same
      exact own.moved rfl
    · have old := fits.journals k p ((put_other (Ne.symm here)).symm.trans entry)
      exact old.moved rfl
  referenced := fits.referenced
  finishTimes := by
    intro r' here r'' here' account t first second
    rcases Tables.mem_replace here with rfl | ⟨old, other⟩
    · rcases Tables.mem_replace here' with rfl | ⟨old', other'⟩
      · rfl
      · exact absurd second (times r'' old' other' account.symm t first)
    · rcases Tables.mem_replace here' with rfl | ⟨old', other'⟩
      · exact absurd first (times r' old other account t second)
      · exact fits.finishTimes r' old r'' old' account t first second
  ledger := fits.ledger

theorem journal {key : RunKey} {p : Progress} {entry : JournalEntry} {w' : Tables}
    (running : s.entries key = some (.inProgress p)) (readable : Readable entry.notional) (runs : w'.runs = w.runs)
    (ledger : w'.ledger = w.ledger)
    (journalOf : ∀ k, w'.journalOf k = if k = key then (journalWith entry p.journal).map (journalRow (tenants key.accountId) key) else w.journalOf k)
    (rows : ∀ j ∈ w'.journal, j = journalRow (tenants key.accountId) key entry ∨ j ∈ w.journal) :
    Related tenants w' (s.put key (.inProgress { p with journal := journalWith entry p.journal })) where
  untroubled := fits.untroubled
  keys := runs ▸ fits.keys
  distinct := fits.distinct
  whole := fits.whole
  begun := by
    intro k absent
    have other : key ≠ k := by
      rintro rfl
      rw [fits.begun key absent] at running
      cases running
    exact (put_other other).trans (fits.begun k absent)
  shown := by
    rw [runs]
    intro r member
    obtain ⟨e, entry', seen⟩ := fits.shown r member
    by_cases here : r.key = key
    · rw [here, running] at entry'
      cases entry'
      obtain ⟨status, attempt, tradingDay, startedAt, leaseUntil, whole⟩ := seen
      have updated : Shows r (.inProgress { p with journal := journalWith entry p.journal }) :=
        .inProgress status attempt tradingDay startedAt leaseUntil whole
      exact ⟨_, here ▸ put_self, updated⟩
    · exact ⟨e, (put_other (Ne.symm here)).trans entry', seen⟩
  journals := by
    intro k p' entry'
    by_cases here : k = key
    · subst here
      obtain rfl := Entry.inProgress.inj (Option.some.inj (put_self.symm.trans entry'))
      have old := fits.journals k p running
      refine ⟨by rw [journalOf, if_pos rfl], journalWith_tags old.tags, fun e member => ?_⟩
      rcases mem_journalWith member with rfl | earlier
      · exact readable
      · exact old.readable e earlier
    · have old := fits.journals k p' ((put_other (Ne.symm here)).symm.trans entry')
      exact ⟨by rw [journalOf, if_neg here, old.rows], old.tags, old.readable⟩
  referenced := by
    intro j member
    rcases rows j member with rfl | old
    · by_contra absent
      have missing := fits.begun key absent
      rw [running] at missing
      cases missing
    · exact fits.referenced j old
  finishTimes := runs ▸ fits.finishTimes
  ledger := ledger ▸ fits.ledger

variable [DebugText]

end

end Related

/-! ## Calls under way -/

inductive Underway [DebugText] (tenants : String → Tenant) (w : Tables) : PgTask → Prop where
  | first (c : StoreCall) : Underway tenants w ⟨c, PgRunStore.body tenants c⟩
  | beginRead {key : RunKey} {tradingDay : NaiveDate} {startedAt : Instant} {leaseSecs : Int}
      (row : key ∈ w.runs.map RunRow.key) :
      Underway tenants w ⟨.begin key tradingDay startedAt leaseSecs,
        PgRunStore.beginRead key tradingDay startedAt leaseSecs⟩
  | beginResume {key : RunKey} {tradingDay : NaiveDate} {startedAt : Instant} {leaseSecs : Int} {existing : RunRow}
      (row : key ∈ w.runs.map RunRow.key) (expired : stored existing.leaseUntil ≤ startedAt) :
      Underway tenants w ⟨.begin key tradingDay startedAt leaseSecs,
        PgRunStore.beginResume key tradingDay startedAt leaseSecs existing⟩
  | beginLost {key : RunKey} {tradingDay : NaiveDate} {startedAt : Instant} {leaseSecs : Int}
      (row : key ∈ w.runs.map RunRow.key) :
      Underway tenants w ⟨.begin key tradingDay startedAt leaseSecs, PgRunStore.beginLost key⟩
  | finishWrite {record : RunRecord} (row : record.key ∈ w.runs.map RunRow.key) :
      Underway tenants w ⟨.finish record, PgRunStore.finishWrite tenants record⟩
  | countNotionals {accountId : String} {day : NaiveDate} {amounts : List Dec}
      (read : amounts.Perm (w.doneAmounts accountId day)) :
      Underway tenants w ⟨.dayCounters accountId day,
        PgRunStore.countNotionals accountId day (amounts.foldl addAmount ⟨0, Dec.zero⟩)⟩
  | checkTenant {accountId sleeveId : String} :
      Underway tenants w ⟨.lastActedDecision accountId sleeveId, PgRunStore.checkTenant tenants accountId sleeveId⟩
  | readActed {accountId sleeveId : String} :
      Underway tenants w ⟨.lastActedDecision accountId sleeveId, PgRunStore.readActed accountId sleeveId⟩

variable [DebugText]

/-- What is known of a call between its statements. -/
def Pending (tenants : String → Tenant) (w : Tables) (t : PgTask) : Prop := Proper tenants t.1 ∧ Underway tenants w t

theorem Pending.kept {w' : Tables} {t : PgTask} (keys : w.runs.map RunRow.key ⊆ w'.runs.map RunRow.key)
    (amounts : ∀ accountId day, BetweenReads accountId day t →
      w'.doneAmounts accountId day = w.doneAmounts accountId day) (pending : Pending tenants w t) :
    Pending tenants w' t := by
  refine ⟨pending.1, ?_⟩
  cases pending.2 with
  | first c => exact .first c
  | beginRead row => exact .beginRead (keys row)
  | beginResume row expired => exact .beginResume (keys row) expired
  | beginLost row => exact .beginLost (keys row)
  | finishWrite row => exact .finishWrite (keys row)
  | countNotionals read => exact .countNotionals (amounts _ _ ⟨_, rfl⟩ ▸ read)
  | checkTenant => exact .checkTenant
  | readActed => exact .readActed

section Begin

variable {key : RunKey} {tradingDay : NaiveDate} {startedAt : Instant} {leaseSecs : Int} {others : List PgTask}

section

variable (fits : Related tenants w s)

include fits

end

end Begin

section Calls

variable {others : List PgTask}

section

variable (fits : Related tenants w s)

include fits

end

section

variable (fits : Related tenants w s)

include fits

end

end Calls

/-! ## Every interleaving -/

end Stores

section Samples

def strokes (t : Instant) : String := String.ofList (List.replicate (Equiv.intEquivNat t) '|')

/-- The epoch in RFC 3339, other instants as strokes. -/
@[reducible] def epochReader : InstantReader where
  display := RebalancerCore.epochText.display
  rfc3339 t := if t = 0 then "1970-01-01T00:00:00+00:00" else strokes t
  compact := RebalancerCore.epochText.compact
  parseRfc3339 text :=
    if text = "1970-01-01T00:00:00+00:00" then .ok 0 else .ok (Equiv.intEquivNat.symm text.length)
  parse_rfc3339 t := by
    by_cases epoch : t = 0
    · rw [if_pos epoch, if_pos rfl, epoch]
    · have other : strokes t ≠ "1970-01-01T00:00:00+00:00" := by
        intro same
        have first := congrArg (List.head? ∘ String.toList) same
        rw [strokes] at first
        cases n : Equiv.intEquivNat t <;> simp [n, List.replicate_succ] at first
      rw [if_neg epoch, if_neg other, strokes]
      simp

@[reducible] private def sampleQuotes : DebugText := ⟨fun s => "\"" ++ s ++ "\""⟩

attribute [local instance] sampleQuotes epochReader

def oneTenant (_ : String) : Tenant := 1

end Samples

end RebalancerStore
