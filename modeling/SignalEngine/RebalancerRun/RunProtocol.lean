import SignalEngine.RebalancerRun.RunStore

/-! # The run key protocol

What a history of calls can do to one key: a key is begun, attempted again when
the last lease has run out, and finished once. The ledger of acted decisions is
compared with the records that were finished.
-/

open BrokerAdapters

namespace RebalancerRun

open RebalancerCore (Instant InstantText)
open RebalancerRisk (NaiveDate nanosPerSecond)

/-- The calls that reach a store. The reads differ in their answers only. -/
inductive RunCall where
  | begin (key : RunKey) (tradingDay : NaiveDate) (startedAt : Instant) (leaseSecs : Int)
  | journalOrder (key : RunKey) (entry : JournalEntry)
  | finish (record : RunRecord)
  | read
  | failNextCalls (n : Nat)

structure Start where
  attempt : Nat
  startedAt : Instant
  leaseUntil : Instant
  deriving DecidableEq

inductive Stage where
  | absent
  | inProgress
  | done
  deriving DecidableEq

/-- A key stays where it is or takes the next stage. -/
def Stage.mayBecome : Stage → Stage → Bool
  | absent, absent | absent, inProgress | inProgress, inProgress | inProgress, done | done, done => true
  | _, _ => false

def stageOf : Option Entry → Stage
  | none => .absent
  | some (.inProgress _) => .inProgress
  | some (.done _) => .done

def Progress.start (p : Progress) : Start := ⟨p.attempt, p.startedAt, p.leaseUntil⟩

namespace RunStore

section Calls

variable [InstantText]

def call (store : RunStore) : RunCall → RunStore
  | .begin key tradingDay startedAt leaseSecs => (store.begin key tradingDay startedAt leaseSecs).1
  | .journalOrder key entry => (store.journalOrder key entry).1
  | .finish record => (store.finish record).1
  | .read => (store.read fun _ => ()).1
  | .failNextCalls n => store.failNextCalls n

def afterCalls (store : RunStore) (calls : List RunCall) : RunStore := calls.foldl call store

/-- The attempt of `key` that the call starts, if it starts one. -/
def startedBy (store : RunStore) (key : RunKey) : RunCall → Option Start
  | .begin k tradingDay startedAt leaseSecs =>
      match (store.begin k tradingDay startedAt leaseSecs).2 with
      | .ok (.started attempt) =>
          if k = key then some ⟨attempt, startedAt, startedAt + leaseSecs * nanosPerSecond⟩ else none
      | _ => none
  | _ => none

def starts (key : RunKey) : RunStore → List RunCall → List Start
  | _, [] => []
  | store, c :: calls => (store.startedBy key c).toList ++ starts key (store.call c) calls

end Calls

/-- The acted decision dates of a sleeve in the finished records of an account. -/
def actedDates (store : RunStore) (account sleeve : String) : Set NaiveDate :=
  { date | ∃ key record, key.accountId = account ∧ store.entries key = some (.done record) ∧
      ∃ d ∈ record.decisions, d.acted = true ∧ d.sleeve = sleeve ∧ d.decisionDate = date }

end RunStore

/-! ## One call -/

/-- What a call can do to the entry of a key, and the attempt it starts. -/
inductive KeyStep (key : RunKey) : Option Entry → Option Start → Option Entry → Prop where
  | same (e : Option Entry) : KeyStep key e none e
  | first (p : Progress) (one : p.attempt = 1) : KeyStep key none (some p.start) (some (.inProgress p))
  | again (p next : Progress) (count : next.attempt = (p.attempt + 1) % 2 ^ 32)
      (lease : p.leaseUntil ≤ next.startedAt) :
      KeyStep key (some (.inProgress p)) (some next.start) (some (.inProgress next))
  | journaled (p next : Progress) (kept : next.start = p.start) :
      KeyStep key (some (.inProgress p)) none (some (.inProgress next))
  | finished (p : Progress) (record : RunRecord) (own : record.key = key) :
      KeyStep key (some (.inProgress p)) none (some (.done record))

section Entries

variable {store : RunStore} {key : RunKey}

theorem put_other {k : RunKey} {entry : Entry} (other : k ≠ key) :
    (store.put k entry).entries key = store.entries key := by
  simp [RunStore.put, Function.update_of_ne other.symm]

theorem put_self {entry : Entry} : (store.put key entry).entries key = some entry := by
  simp [RunStore.put]

/-- A call fails at the fault hook or goes through. -/
theorem check_cases {α : Type} (store : RunStore)
    (answer : RunStore → RunStore × Except RunStoreError α) :
    (∃ e, (store.check answer).2 = .error e ∧ (store.check answer).1.entries = store.entries ∧
      (store.check answer).1.acted = store.acted) ∨
    store.check answer = answer store := by
  unfold RunStore.check
  split
  · left
    exact ⟨_, rfl, rfl, rfl⟩
  · right
    rfl

theorem beginWith_step (day : NaiveDate) (startedAt : Instant) (leaseSecs : Int) :
    KeyStep key (store.entries key)
      (match (store.beginWith key day startedAt leaseSecs).2 with
        | .ok (.started attempt) => some ⟨attempt, startedAt, startedAt + leaseSecs * nanosPerSecond⟩
        | _ => none)
      ((store.beginWith key day startedAt leaseSecs).1.entries key) := by
  unfold RunStore.beginWith
  cases was : store.entries key with
  | none =>
      simp only [put_self]
      exact .first ⟨1, day, startedAt, _, []⟩ rfl
  | some entry =>
      cases entry with
      | done record =>
          simp only [was]
          exact .same _
      | inProgress p =>
          by_cases held : startedAt < p.leaseUntil
          · simp only [held, if_true, was]
            exact .same _
          · simp only [held, if_false, put_self]
            exact .again p ⟨_, day, startedAt, _, p.journal⟩ rfl (not_lt.mp held)

theorem beginWith_other {k : RunKey} (other : k ≠ key) (day : NaiveDate) (startedAt : Instant)
    (leaseSecs : Int) :
    (store.beginWith k day startedAt leaseSecs).1.entries key = store.entries key := by
  unfold RunStore.beginWith
  split
  · exact put_other other
  · rfl
  · split
    · rfl
    · exact put_other other

theorem begin_step (k : RunKey) (day : NaiveDate) (startedAt : Instant) (leaseSecs : Int) :
    KeyStep key (store.entries key) (store.startedBy key (.begin k day startedAt leaseSecs))
      ((store.begin k day startedAt leaseSecs).1.entries key) := by
  simp only [RunStore.startedBy]
  obtain ⟨e, failed, same, -⟩ | went :=
    check_cases store (RunStore.beginWith k day startedAt leaseSecs)
  · simp only [RunStore.begin, failed, same]
    exact .same _
  · simp only [RunStore.begin, went]
    by_cases own : k = key
    · subst own
      simp only [if_true]
      exact beginWith_step day startedAt leaseSecs
    · rw [beginWith_other own]
      simp only [own, if_false]
      split <;> exact .same _

theorem KeyStep.stage {e e' : Option Entry} {s : Option Start} (step : KeyStep key e s e') :
    (stageOf e).mayBecome (stageOf e') = true := by
  cases step with
  | same e =>
      cases e with
      | none => rfl
      | some entry => cases entry <;> rfl
  | first | again | journaled | finished => rfl

theorem KeyStep.done {record : RunRecord} {s : Option Start} {e' : Option Entry}
    (step : KeyStep key (some (.done record)) s e') : e' = some (.done record) := by
  cases step with
  | same => rfl

end Entries

/-! ## The attempts of a key -/

/-- The lease of each attempt had run out when the next one started. -/
def Leased (starts : List Start) : Prop :=
  starts.IsChain fun a b => a.leaseUntil ≤ b.startedAt

/-- What the entry of a key says about the attempts started so far. -/
structure Numbered (starts : List Start) (entry : Option Entry) : Prop where
  absent : entry = none → starts = []
  newest : ∀ p, entry = some (.inProgress p) →
    starts.getLast? = some p.start ∧ p.attempt = starts.length % 2 ^ 32
  numbers : starts.map Start.attempt = (List.range starts.length).map fun i => (i + 1) % 2 ^ 32
  leased : Leased starts

theorem Numbered.none : Numbered [] none where
  absent := fun _ => rfl
  newest := by simp
  numbers := rfl
  leased := .nil

theorem numbers_snoc {starts : List Start} {s : Start}
    (numbers : starts.map Start.attempt = (List.range starts.length).map fun i => (i + 1) % 2 ^ 32)
    (next : s.attempt = (starts.length + 1) % 2 ^ 32) :
    (starts ++ [s]).map Start.attempt =
      (List.range (starts ++ [s]).length).map fun i => (i + 1) % 2 ^ 32 := by
  simp [List.range_succ, numbers, next]

theorem Numbered.step {key : RunKey} {sofar : List Start} {e e' : Option Entry} {s : Option Start}
    (inv : Numbered sofar e) (step : KeyStep key e s e') : Numbered (sofar ++ s.toList) e' := by
  cases step with
  | same e => simpa using inv
  | first p one =>
      have empty := inv.absent rfl
      subst empty
      constructor
      · simp
      · rintro q ⟨⟩
        simp [one]
      · simp [Progress.start, one]
      · exact .singleton _
  | again p next count lease =>
      obtain ⟨last, attempt⟩ := inv.newest p rfl
      have number : next.attempt = (sofar.length + 1) % 2 ^ 32 := by
        rw [count, attempt]
        omega
      constructor
      · simp
      · rintro q ⟨⟩
        simp [number]
      · exact numbers_snoc inv.numbers number
      · apply List.IsChain.append inv.leased (.singleton _)
        intro a isLast b isNext
        rw [last] at isLast
        cases isLast
        cases isNext
        exact lease
  | journaled p next kept =>
      obtain ⟨last, attempt⟩ := inv.newest p rfl
      have sameAttempt : next.attempt = p.attempt := congrArg Start.attempt kept
      constructor
      · simp
      · rintro q ⟨⟩
        simp [kept, last, sameAttempt, attempt]
      · simpa using inv.numbers
      · simpa using inv.leased
  | finished p record own =>
      constructor
      · simp
      · simp
      · simpa using inv.numbers
      · simpa using inv.leased

section Steps

variable [InstantText] {store : RunStore} {key : RunKey}

theorem journal_step (k : RunKey) (entry : JournalEntry) :
    KeyStep key (store.entries key) none ((store.journalOrder k entry).1.entries key) := by
  unfold RunStore.journalOrder
  obtain ⟨e, -, same, -⟩ | went := check_cases store _
  · rw [same]
    exact .same _
  · rw [went]
    split
    next p was =>
      by_cases own : k = key
      · subst own
        rw [was, put_self]
        exact .journaled p _ rfl
      · rw [put_other own]
        exact .same _
    next => exact .same _

theorem finish_step (record : RunRecord) :
    KeyStep key (store.entries key) none ((store.finish record).1.entries key) := by
  unfold RunStore.finish
  obtain ⟨e, -, same, -⟩ | went := check_cases store _
  · rw [same]
    exact .same _
  · rw [went]
    split
    next p was =>
      by_cases own : record.key = key
      · subst own
        rw [was]
        simp only [put_self]
        exact .finished p record rfl
      · simp only [put_other own]
        exact .same _
    next => exact .same _
    next => exact .same _

theorem call_step (store : RunStore) (key : RunKey) (c : RunCall) :
    KeyStep key (store.entries key) (store.startedBy key c) ((store.call c).entries key) := by
  cases c with
  | begin k day startedAt leaseSecs => exact begin_step k day startedAt leaseSecs
  | journalOrder k entry => exact journal_step k entry
  | finish record => exact finish_step record
  | read =>
      simp only [RunStore.call, RunStore.read, RunStore.check, RunStore.startedBy]
      split <;> exact .same _
  | failNextCalls n => exact .same _

/-! ## Histories -/

theorem done_kept {record : RunRecord} (calls : List RunCall) :
    ∀ {store : RunStore}, store.entries key = some (.done record) →
      (store.afterCalls calls).entries key = some (.done record) := by
  induction calls with
  | nil =>
      intro store done
      exact done
  | cons c calls ih =>
      intro store done
      apply ih
      have step := call_step store key c
      rw [done] at step
      exact step.done

theorem Numbered.run (calls : List RunCall) : ∀ {store : RunStore} {sofar : List Start},
    Numbered sofar (store.entries key) →
      Numbered (sofar ++ store.starts key calls) ((store.afterCalls calls).entries key) := by
  induction calls with
  | nil =>
      intro store sofar inv
      simpa [RunStore.starts, RunStore.afterCalls] using inv
  | cons c calls ih =>
      intro store sofar inv
      have next := ih (inv.step (call_step store key c))
      rw [List.append_assoc] at next
      exact next

theorem numbered_from_new (calls : List RunCall) (key : RunKey) :
    Numbered (RunStore.new.starts key calls) ((RunStore.new.afterCalls calls).entries key) := by
  have inv : Numbered ([] ++ RunStore.new.starts key calls) _ := Numbered.run calls Numbered.none
  simpa using inv

end Steps

theorem Leased.pairwise {starts : List Start} (leased : Leased starts)
    (forward : ∀ s ∈ starts, s.startedAt ≤ s.leaseUntil) :
    starts.Pairwise fun a b => a.leaseUntil ≤ b.startedAt := by
  induction leased with
  | nil => exact .nil
  | singleton => exact .cons (by simp) .nil
  | cons_cons link rest ih =>
      have later := ih fun s member => forward s (.tail _ member)
      refine .cons ?_ later
      intro s member
      rcases List.mem_cons.mp member with rfl | further
      · exact link
      · exact (link.trans (forward _ (by simp))).trans (List.rel_of_pairwise_cons later further)

/-! ## The ledger of acted decisions -/

def Newest (slot : Option NaiveDate) (dates : Set NaiveDate) : Prop :=
  match slot with
  | none => dates = ∅
  | some date => IsGreatest dates date

theorem Newest.iff {slot : Option NaiveDate} {dates : Set NaiveDate} (newest : Newest slot dates) :
    (∀ date, slot = some date ↔ IsGreatest dates date) ∧ (slot = none ↔ dates = ∅) := by
  cases slot with
  | none =>
      have empty : dates = ∅ := newest
      subst empty
      simp [IsGreatest]
  | some top =>
      have greatest : IsGreatest dates top := newest
      constructor
      · intro date
        constructor
        · rintro ⟨⟩
          exact greatest
        · intro other
          rw [greatest.unique other]
      · simp [greatest.nonempty.ne_empty]

theorem Newest.insert {slot : Option NaiveDate} {dates : Set NaiveDate} (newest : Newest slot dates)
    (date : NaiveDate) : Newest (some (advanceTo date slot)) (insert date dates) := by
  cases slot with
  | none =>
      have empty : dates = ∅ := newest
      simp [empty, Newest, advanceTo]
  | some top =>
      have greatest : IsGreatest dates top := newest
      have larger := greatest.insert date
      simp only [Newest, advanceTo]
      by_cases above : top < date
      · rw [max_eq_left above.le] at larger
        simpa [above] using larger
      · rw [max_eq_right (not_lt.mp above)] at larger
        simpa [above] using larger

/-- The dates that a list of decisions adds for a sleeve of the account. -/
def datesFor (account a s : String) (decisions : List SleeveDecision) : Set NaiveDate :=
  { date | a = account ∧ ∃ d ∈ decisions, d.sleeve = s ∧ d.decisionDate = date }

theorem newest_foldl {account a s : String} (decisions : List SleeveDecision) :
    ∀ {acted : String → String → Option NaiveDate} {dates : Set NaiveDate},
      Newest (acted a s) dates →
        Newest (decisions.foldl (enterActed account) acted a s)
          (dates ∪ datesFor account a s decisions) := by
  induction decisions with
  | nil =>
      intro acted dates newest
      simpa [datesFor] using newest
  | cons d decisions ih =>
      intro acted dates newest
      by_cases slot : a = account ∧ s = d.sleeve
      · have entered : Newest (enterActed account acted d a s) (insert d.decisionDate dates) := by
          simp only [enterActed, slot, and_self, if_true]
          have := newest.insert d.decisionDate
          rwa [slot.1, slot.2] at this
        have split : dates ∪ datesFor account a s (d :: decisions) =
            insert d.decisionDate dates ∪ datesFor account a s decisions := by
          ext date
          simp only [datesFor, Set.mem_union, Set.mem_ofPred_eq, Set.mem_insert_iff, List.mem_cons,
            exists_eq_or_imp, slot.1, slot.2, true_and]
          grind
        rw [List.foldl_cons, split]
        exact ih entered
      · have kept : enterActed account acted d a s = acted a s := by simp [enterActed, slot]
        have split : datesFor account a s (d :: decisions) = datesFor account a s decisions := by
          ext date
          simp only [datesFor, Set.mem_ofPred_eq, List.mem_cons, exists_eq_or_imp]
          grind
        rw [List.foldl_cons, split]
        apply ih
        rw [kept]
        exact newest

def LedgerOk (store : RunStore) : Prop :=
  ∀ account sleeve, Newest (store.acted account sleeve) (store.actedDates account sleeve)

theorem LedgerOk.same {store after : RunStore} (ok : LedgerOk store) (acted : after.acted = store.acted)
    (kept : ∀ key record, after.entries key = some (.done record) ↔
      store.entries key = some (.done record)) : LedgerOk after := by
  intro account sleeve
  have dates : after.actedDates account sleeve = store.actedDates account sleeve := by
    simp only [RunStore.actedDates, kept]
  rw [acted, dates]
  exact ok account sleeve

theorem put_progress_done {store : RunStore} {key : RunKey} {p : Progress}
    (open' : ∀ record, store.entries key ≠ some (.done record)) (k : RunKey) (record : RunRecord) :
    (store.put key (.inProgress p)).entries k = some (.done record) ↔
      store.entries k = some (.done record) := by
  by_cases own : key = k
  · subst own
    simp [put_self, open']
  · rw [put_other own]

theorem LedgerOk.put {store : RunStore} (ok : LedgerOk store) {key : RunKey} {p : Progress}
    (open' : ∀ record, store.entries key ≠ some (.done record)) :
    LedgerOk (store.put key (.inProgress p)) :=
  ok.same rfl (put_progress_done open')

theorem LedgerOk.beginWith {store : RunStore} (ok : LedgerOk store) (key : RunKey) (day : NaiveDate)
    (startedAt : Instant) (leaseSecs : Int) :
    LedgerOk (store.beginWith key day startedAt leaseSecs).1 := by
  unfold RunStore.beginWith
  split
  next absent => exact ok.put (by simp [absent])
  next => exact ok
  next p running =>
    split
    · exact ok
    · exact ok.put (by simp [running])

theorem LedgerOk.finished {store : RunStore} (ok : LedgerOk store) {record : RunRecord} {p : Progress}
    (running : store.entries record.key = some (.inProgress p)) :
    LedgerOk { store.put record.key (.done record) with
      acted := (record.decisions.filter SleeveDecision.acted).foldl
        (enterActed record.key.accountId) store.acted } := by
  intro account sleeve
  have dates : RunStore.actedDates { store.put record.key (.done record) with
        acted := (record.decisions.filter SleeveDecision.acted).foldl
          (enterActed record.key.accountId) store.acted } account sleeve =
      store.actedDates account sleeve ∪
        datesFor record.key.accountId account sleeve (record.decisions.filter SleeveDecision.acted) := by
    ext date
    simp only [RunStore.actedDates, datesFor, Set.mem_ofPred_eq, Set.mem_union, List.mem_filter]
    constructor
    · rintro ⟨key, r, rfl, stored, d, member, acted, named, dated⟩
      by_cases own : record.key = key
      · subst own
        rw [put_self] at stored
        cases stored
        exact .inr ⟨rfl, d, ⟨member, acted⟩, named, dated⟩
      · rw [put_other own] at stored
        exact .inl ⟨key, r, rfl, stored, d, member, acted, named, dated⟩
    · rintro (⟨key, r, rfl, stored, d, member, acted, named, dated⟩ |
        ⟨rfl, d, ⟨member, acted⟩, named, dated⟩)
      · have other : record.key ≠ key := by
          rintro rfl
          simp [running] at stored
        exact ⟨key, r, rfl, (put_other other).trans stored, d, member, acted, named, dated⟩
      · exact ⟨record.key, record, rfl, put_self, d, member, acted, named, dated⟩
  rw [dates]
  exact newest_foldl _ (ok account sleeve)

section Ledger

variable [InstantText]

theorem LedgerOk.call {store : RunStore} (ok : LedgerOk store) (c : RunCall) :
    LedgerOk (store.call c) := by
  have failed : ∀ {after : RunStore}, after.entries = store.entries → after.acted = store.acted →
      LedgerOk after := by
    intro after entries acted
    exact ok.same acted (by simp [entries])
  cases c with
  | begin key day startedAt leaseSecs =>
      obtain ⟨e, -, entries, acted⟩ | went :=
        check_cases store (RunStore.beginWith key day startedAt leaseSecs)
      · exact failed entries acted
      · simp only [RunStore.call, RunStore.begin, went]
        exact ok.beginWith key day startedAt leaseSecs
  | journalOrder key entry =>
      simp only [RunStore.call, RunStore.journalOrder]
      obtain ⟨e, -, entries, acted⟩ | went := check_cases store _
      · exact failed entries acted
      · rw [went]
        split
        next p running => exact ok.put (by simp [running])
        next => exact ok
  | finish record =>
      simp only [RunStore.call, RunStore.finish]
      obtain ⟨e, -, entries, acted⟩ | went := check_cases store _
      · exact failed entries acted
      · rw [went]
        split
        next p running => exact ok.finished running
        next => exact ok
        next => exact ok
  | read =>
      simp only [RunStore.call, RunStore.read]
      obtain ⟨e, -, entries, acted⟩ | went := check_cases store _
      · exact failed entries acted
      · rw [went]
        exact ok
  | failNextCalls n => exact failed rfl rfl

theorem ledger_from_new (calls : List RunCall) : LedgerOk (RunStore.new.afterCalls calls) := by
  have run : ∀ {store : RunStore}, LedgerOk store → LedgerOk (store.afterCalls calls) := by
    induction calls with
    | nil =>
        intro store ok
        exact ok
    | cons c calls ih =>
        intro store ok
        exact ih (ok.call c)
  apply run
  intro account sleeve
  simp [Newest, RunStore.new, RunStore.actedDates]

/-! ## The protocol -/

/-- No lease of the history is negative. -/
def NoNegativeLease (calls : List RunCall) : Prop :=
  ∀ key day startedAt leaseSecs, .begin key day startedAt leaseSecs ∈ calls → 0 ≤ leaseSecs

omit [InstantText] in
theorem startedBy_lease {store : RunStore} {key : RunKey} {c : RunCall} {s : Start}
    (started : store.startedBy key c = some s) :
    ∃ day leaseSecs, c = .begin key day s.startedAt leaseSecs ∧
      s.leaseUntil = s.startedAt + leaseSecs * nanosPerSecond := by
  cases c with
  | begin k day startedAt leaseSecs =>
      simp only [RunStore.startedBy] at started
      split at started
      next =>
        split at started
        next own =>
            cases started
            exact ⟨day, leaseSecs, by rw [own], rfl⟩
        next => cases started
      next => cases started
  | journalOrder | finish | read | failNextCalls => cases started

theorem lease_after_start {key : RunKey} {calls : List RunCall} (ok : NoNegativeLease calls) :
    ∀ {store : RunStore}, ∀ s ∈ store.starts key calls, s.startedAt ≤ s.leaseUntil := by
  induction calls with
  | nil => simp [RunStore.starts]
  | cons c calls ih =>
      intro store s member
      rcases List.mem_append.mp member with here | later
      · obtain ⟨day, leaseSecs, called, lease⟩ := startedBy_lease (Option.mem_toList.mp here)
        have nonneg := ok key day s.startedAt leaseSecs (by simp [called])
        rw [lease]
        apply le_add_of_nonneg_right
        exact mul_nonneg nonneg (by decide)
      · exact ih (fun key day startedAt leaseSecs called => ok key day startedAt leaseSecs (.tail c called))
          s later

/-- Over every history of calls: a key is absent, then in progress, then done; a done
    record stays and answers every later `begin`; attempts are counted from one, in
    32 bits; an attempt starts only when the lease of the one before has run out, and
    when no lease is negative all earlier ones have; and the ledger holds the newest
    acted decision of the finished records. -/
theorem run_key_protocol (calls : List RunCall) (key : RunKey) :
    (∀ c, (stageOf ((RunStore.new.afterCalls calls).entries key)).mayBecome
      (stageOf (((RunStore.new.afterCalls calls).call c).entries key)) = true) ∧
    (∀ record later, (RunStore.new.afterCalls calls).entries key = some (.done record) →
      ((RunStore.new.afterCalls calls).afterCalls later).entries key = some (.done record) ∧
      ∀ day startedAt leaseSecs,
        ((RunStore.new.afterCalls calls).afterCalls later).failNext = 0 →
        (((RunStore.new.afterCalls calls).afterCalls later).begin key day startedAt leaseSecs).2 =
          .ok (.alreadyDone record)) ∧
    (RunStore.new.starts key calls).map Start.attempt =
      ((List.range (RunStore.new.starts key calls).length).map fun i => (i + 1) % 2 ^ 32) ∧
    ((RunStore.new.starts key calls).IsChain fun a b => a.leaseUntil ≤ b.startedAt) ∧
    (NoNegativeLease calls →
      (RunStore.new.starts key calls).Pairwise fun a b => a.leaseUntil ≤ b.startedAt) ∧
    ∀ account sleeve, (RunStore.new.afterCalls calls).failNext = 0 →
      ∃ newest,
        ((RunStore.new.afterCalls calls).lastActedDecision account sleeve).2 = .ok newest ∧
        (∀ date, newest = some date ↔
          IsGreatest ((RunStore.new.afterCalls calls).actedDates account sleeve) date) ∧
        (newest = none ↔ (RunStore.new.afterCalls calls).actedDates account sleeve = ∅) := by
  have numbered := numbered_from_new calls key
  refine ⟨?_, ?_, numbered.numbers, numbered.leased, ?_, ?_⟩
  · intro c
    exact (call_step _ key c).stage
  · intro record later done
    have kept := done_kept later done
    refine ⟨kept, ?_⟩
    intro day startedAt leaseSecs healthy
    simp [RunStore.begin, RunStore.check, healthy, RunStore.beginWith, kept]
  · intro ok
    exact numbered.leased.pairwise (lease_after_start ok)
  · intro account sleeve healthy
    refine ⟨_, ?_, (ledger_from_new calls account sleeve).iff⟩
    simp [RunStore.lastActedDecision, RunStore.read, RunStore.check, healthy]

end Ledger

/-! ## Negative leases and the attempt counter -/

section Sample

attribute [local instance] RebalancerCore.epochText

private def slot : RunKey := ⟨"acct", 0, "etf"⟩

private def beginAt (secs leaseSecs : Int) : RunCall := .begin slot 0 (secs * nanosPerSecond) leaseSecs

theorem starts_without_lease (n : Nat) : ∀ {store : RunStore}, store.failNext = 0 →
    (store.entries slot = none ∨
      ∃ p, store.entries slot = some (.inProgress p) ∧ p.leaseUntil ≤ 0) →
    (store.starts slot (List.replicate n (beginAt 0 0))).length = n := by
  induction n with
  | zero => simp [RunStore.starts]
  | succ n ih =>
      rintro store healthy (absent | ⟨p, running, ended⟩)
      · have one : store.startedBy slot (beginAt 0 0) = some ⟨1, 0, 0⟩ := by
          simp [beginAt, RunStore.startedBy, RunStore.begin, RunStore.check, healthy,
            RunStore.beginWith, absent]
        have rest := @ih (store.call (beginAt 0 0))
          (by simp [beginAt, RunStore.call, RunStore.begin, RunStore.check, healthy,
            RunStore.beginWith, absent, RunStore.put])
          (.inr (by simp [beginAt, RunStore.call, RunStore.begin, RunStore.check, healthy,
            RunStore.beginWith, absent, RunStore.put]))
        simp [List.replicate_succ, RunStore.starts, one, rest]
      · have free : ¬ (0 : Int) < p.leaseUntil := not_lt.mpr ended
        have one : store.startedBy slot (beginAt 0 0) = some ⟨(p.attempt + 1) % 2 ^ 32, 0, 0⟩ := by
          simp [beginAt, RunStore.startedBy, RunStore.begin, RunStore.check, healthy,
            RunStore.beginWith, running, free]
        have rest := @ih (store.call (beginAt 0 0))
          (by simp [beginAt, RunStore.call, RunStore.begin, RunStore.check, healthy,
            RunStore.beginWith, running, free, RunStore.put])
          (.inr (by simp [beginAt, RunStore.call, RunStore.begin, RunStore.check, healthy,
            RunStore.beginWith, running, free, RunStore.put]))
        simp [List.replicate_succ, RunStore.starts, one, rest]

/-- A negative lease hides the longer one before it: the third attempt starts while the
    first one's lease is open. After `2 ^ 32` attempts their numbers come again. -/
theorem lease_and_counter_give_out :
    (¬ (RunStore.new.starts slot [beginAt 0 100, beginAt 100 (-60), beginAt 50 10]).Pairwise
      fun a b => a.leaseUntil ≤ b.startedAt) ∧
    ¬ ((RunStore.new.starts slot (List.replicate (2 ^ 32 + 1) (beginAt 0 0))).map
      Start.attempt).Nodup := by
  constructor
  · decide
  · have many := starts_without_lease (2 ^ 32 + 1) rfl (.inl rfl : RunStore.new.entries slot = none ∨ _)
    rw [(numbered_from_new _ slot).numbers, many]
    intro nodup
    have same := @List.Nodup.getElem_inj_iff _ _ nodup 0 (by simp) (2 ^ 32) (by simp)
    simp at same

end Sample

end RebalancerRun
