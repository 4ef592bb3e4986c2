import SignalEngine.RebalancerStore.PgRunStore
import SignalEngine.RebalancerRun.RunProtocol
import SignalEngine.Lib.FirstMax
import SignalEngine.Lib.Grouping

/-! # What the statements leave behind

The rows of a key after each statement, the amounts a day counts, whatever the order
they are read in, and the ledger rows of a finished record.
-/

open BrokerAdapters Text Outcome MachineInt

namespace RebalancerStore

open RebalancerCore (Instant InstantText DayCounters)
open RebalancerRisk (NaiveDate nanosPerSecond)
open RebalancerRun

/-! ## Amounts of a day -/

def addAmount (c : DayCounters) (n : Dec) : DayCounters :=
  ⟨RunStore.countOne c.ordersToday, RunStore.addTurnover c.turnoverToday n⟩

/-- What a placed order adds to the turnover, if it counts. -/
def amountOf (p : PlacedOrder) : Option Dec :=
  if p.brokerOrderId.isSome && p.outcome != .adoptedExisting then
    some ((p.executedQuantity.checkedMul p.price).getD Dec.zero)
  else none

def amountsOf (placed : List PlacedOrder) : List Dec := (placed.filter RunStore.isTrade).filterMap amountOf

/-- Amounts added up without regard to their signs. -/
def sizeOf (amounts : List Dec) : Int := (amounts.map fun d => |d.atto|).sum

variable {amounts : List Dec} {tenants : String → Tenant} {entry : JournalEntry} {js : List JournalEntry}

structure SameCounters (a b : DayCounters) : Prop where
  orders : a.ordersToday = b.ordersToday
  turnover : a.turnoverToday.atto = b.turnoverToday.atto

def OwnRows (tenants : String → Tenant) (rows : List LedgerRow) : Prop :=
  ∀ r ∈ rows, r.tenant = tenants r.accountId

def Whole (t : Instant) : Prop := stored t = t

instance (t : Instant) : Decidable (Whole t) := inferInstanceAs (Decidable (_ = _))

namespace Tables

theorem row_eq_some {w : Tables} {key : RunKey} {r : RunRow} (whole : storedKey key = key)
    (found : w.row key = some r) : r ∈ w.runs ∧ r.key = key := by
  refine ⟨List.mem_of_find?_eq_some found, ?_⟩
  rw [row, whole] at found
  simpa using List.find?_some found

theorem row_eq_none {w : Tables} {key : RunKey} (whole : storedKey key = key) (missing : w.row key = none) :
    key ∉ w.runs.map RunRow.key := by
  rw [row, whole, List.find?_eq_none] at missing
  rintro member
  obtain ⟨r, here, rfl⟩ := List.mem_map.1 member
  exact missing r here (by simp)

@[simp] theorem replace_keys (runs : List RunRow) (new : RunRow) :
    (replace runs new).map RunRow.key = runs.map RunRow.key := by
  rw [replace, List.map_map]
  refine List.map_congr_left fun r _ => ?_
  by_cases same : r.key = new.key <;> simp [same]

theorem mem_replace {runs : List RunRow} {new r : RunRow} (member : r ∈ replace runs new) :
    r = new ∨ r ∈ runs ∧ r.key ≠ new.key := by
  obtain ⟨old, here, rfl⟩ := List.mem_map.1 member
  by_cases same : old.key = new.key
  · exact .inl (if_pos same)
  · rw [if_neg same]
    exact .inr ⟨here, same⟩

end Tables

/-! ## Journals -/

def journalRow (tenant : Tenant) (key : RunKey) (e : JournalEntry) : JournalRow :=
  ⟨tenant, key, e.tag, e.brokerOrderId, e.notional.display⟩

theorem journalWith_present (present : entry.tag ∈ js.map JournalEntry.tag)
    (distinct : (js.map JournalEntry.tag).Nodup) :
    journalWith entry js = js.map fun e => if e.tag = entry.tag then entry else e := by
  induction js with
  | nil => simp at present
  | cons j js ih =>
      rw [List.map_cons, List.nodup_cons] at distinct
      rw [journalWith, List.map_cons]
      by_cases here : j.tag = entry.tag
      · have others : ∀ e ∈ js, (if e.tag = entry.tag then entry else e) = e := fun e member =>
          if_neg fun (same : e.tag = entry.tag) => distinct.1 (here.trans same.symm ▸ List.mem_map_of_mem member)
        rw [if_pos here, if_pos here, List.map_congr_left others, List.map_id']
      · rw [if_neg here, if_neg here, ih ?_ distinct.2]
        exact (List.mem_cons.1 present).resolve_left fun same => here same.symm

theorem journalWith_absent (absent : entry.tag ∉ js.map JournalEntry.tag) : journalWith entry js = js ++ [entry] := by
  induction js with
  | nil => rfl
  | cons j js ih =>
      rw [List.map_cons, List.mem_cons, not_or] at absent
      rw [journalWith, if_neg fun (same : j.tag = entry.tag) => absent.1 same.symm, ih absent.2]
      rfl

theorem journalWith_tags (distinct : (js.map JournalEntry.tag).Nodup) :
    ((journalWith entry js).map JournalEntry.tag).Nodup := by
  by_cases present : entry.tag ∈ js.map JournalEntry.tag
  · have kept : (js.map fun e => if e.tag = entry.tag then entry else e).map JournalEntry.tag =
        js.map JournalEntry.tag := by
      rw [List.map_map]
      refine List.map_congr_left fun e _ => ?_
      by_cases same : e.tag = entry.tag <;> simp [same]
    rw [journalWith_present present distinct, kept]
    exact distinct
  · rw [journalWith_absent present, List.map_append, List.map_singleton]
    exact distinct.append (List.nodup_singleton _) (List.disjoint_singleton.2 present)

theorem mem_journalWith {e : JournalEntry} {js : List JournalEntry} (member : e ∈ journalWith entry js) :
    e = entry ∨ e ∈ js := by
  induction js with
  | nil => exact .inl (List.mem_singleton.1 member)
  | cons j js ih =>
      rw [journalWith] at member
      split at member
      next =>
        rcases List.mem_cons.1 member with new | old
        · exact .inl new
        · exact .inr (List.mem_cons_of_mem _ old)
      next =>
        rcases List.mem_cons.1 member with first | rest
        · exact .inr (first ▸ List.mem_cons_self)
        · exact (ih rest).imp_right (List.mem_cons_of_mem _)

def entryOf (j : JournalRow) : JournalEntry :=
  ⟨j.tag, j.brokerOrderId, (Dec.parse j.notional).toOption.getD Dec.zero⟩

namespace Tables

def journalOf (w : Tables) (key : RunKey) : List JournalRow := w.journal.filter fun j => j.key == key

section Placed

variable [DebugText]

def readPlaced (v : Value) : List PlacedOrder :=
  match placedVecFromJson v with
  | .ok placed => placed
  | .error _ => []

/-- The amounts of the live runs finished on a day. -/
def doneAmounts (w : Tables) (accountId : String) (day : NaiveDate) : List Dec :=
  (w.placedOn accountId day).flatMap fun v => amountsOf (readPlaced v)

end Placed

end Tables

section Placed

variable [DebugText]

end Placed

/-! ## The newest reading -/

def snapshotOf (r : RunRecord) : Option SnapshotSummary := r.postSnapshot.or r.preSnapshot

/-- No finished entry has a reading, or this is one of the newest of those that have. -/
def NewestReading (entries : List Entry) : Option (Instant × SnapshotSummary) → Prop
  | none => ∀ r, .done r ∈ entries → snapshotOf r = none
  | some (t, snapshot) => (∃ r, .done r ∈ entries ∧ snapshotOf r = some snapshot ∧ r.finishedAt = t) ∧
      ∀ r, .done r ∈ entries → snapshotOf r ≠ none → r.finishedAt ≤ t

theorem NewestReading.snoc {entries : List Entry} {best : Option (Instant × SnapshotSummary)}
    (newest : NewestReading entries best) (e : Entry) :
    NewestReading (entries ++ [e]) (RunStore.newerSnapshot best e) := by
  have mem {r : RunRecord} : .done r ∈ entries ++ [e] ↔ .done r ∈ entries ∨ e = .done r := by
    rw [List.mem_append, List.mem_singleton, eq_comm]
  cases e with
  | inProgress p => cases best <;> simpa [NewestReading, RunStore.newerSnapshot] using newest
  | done record =>
      have here {r : RunRecord} : .done r ∈ entries ++ [.done record] ↔ .done r ∈ entries ∨ record = r := by
        rw [mem, Entry.done.injEq]
      cases reading : snapshotOf record with
      | none =>
          have kept : RunStore.newerSnapshot best (.done record) = best := by
            rw [RunStore.newerSnapshot, show record.postSnapshot.or record.preSnapshot = none from reading]
          rw [kept]
          cases best with
          | none =>
              intro r member
              rcases here.1 member with old | rfl
              · exact newest r old
              · exact reading
          | some best =>
              refine ⟨newest.1.imp fun r found => ⟨here.2 (.inl found.1), found.2⟩, fun r member some => ?_⟩
              rcases here.1 member with old | rfl
              · exact newest.2 r old some
              · exact absurd reading some
      | some snapshot =>
          have taken : RunStore.newerSnapshot best (.done record) =
              if best.all fun b => b.1 ≤ record.finishedAt then some (record.finishedAt, snapshot) else best := by
            rw [RunStore.newerSnapshot, show record.postSnapshot.or record.preSnapshot = some snapshot from reading]
          rw [taken]
          cases best with
          | none =>
              refine ⟨⟨record, here.2 (.inr rfl), reading, rfl⟩, fun r member some => ?_⟩
              rcases here.1 member with old | rfl
              · exact absurd (newest r old) some
              · exact le_rfl
          | some best =>
              obtain ⟨t, held⟩ := best
              by_cases later : t ≤ record.finishedAt
              · rw [if_pos (by simpa using later)]
                refine ⟨⟨record, here.2 (.inr rfl), reading, rfl⟩, fun r member some => ?_⟩
                rcases here.1 member with old | rfl
                · exact (newest.2 r old some).trans later
                · exact le_rfl
              · rw [if_neg (by simpa using later)]
                refine ⟨newest.1.imp fun r found => ⟨here.2 (.inl found.1), found.2⟩, fun r member some => ?_⟩
                rcases here.1 member with old | rfl
                · exact newest.2 r old some
                · exact (not_le.1 later).le

end RebalancerStore
