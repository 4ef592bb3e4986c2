import SignalEngine.Lib.FirstMax
import SignalEngine.RebalancerRisk.Ladder

/-! # The marks as folds of the readings

The high-water mark and the start of the day, computed from the readings alone: the
readings since the last resume, with what the account did at each of them.
-/

open BrokerAdapters RebalancerCore RebalancerCore.DecMath Outcome Runs FirstMax

namespace RebalancerRisk

structure Reading where
  snapshot : EquitySnapshot
  /-- The trading day its caller named. -/
  day : NaiveDate
  rule : DayStartRule
  /-- Whether the account might add risk when it was read. -/
  adds : Bool

namespace Reading

def date (r : Reading) : NaiveDate :=
  match r.rule with
  | .firstObservation => r.day
  | .utcMidnight _ => dateNaive r.snapshot.at'

/-- The reading may start its day: under the midnight rule only one inside the window may. -/
def anchored (r : Reading) : Bool :=
  match r.rule with
  | .firstObservation => true
  | .utcMidnight maxLagSecs => withinAnchorWindow r.snapshot.at' maxLagSecs

end Reading

/-- What an account has read since its last resume. -/
structure History where
  /-- The day and the equity of the last resume. -/
  resumed : Option (NaiveDate × Dec)
  readings : List Reading

/-- The readings that may raise the mark, the one of the resume first. -/
def History.rising (h : History) : List Int :=
  (h.resumed.map fun r => r.2.atto).toList ++
    (h.readings.filter Reading.adds).map fun r => r.snapshot.equity.atto

def Event.reading (s : AccountState) : Event → Option Reading
  | .observe snapshot day => some ⟨snapshot, day, .firstObservation, s.status.mayAddRisk⟩
  | .observeAnchored snapshot maxLagSecs =>
      some ⟨snapshot, dateNaive snapshot.at', .utcMidnight maxLagSecs, s.status.mayAddRisk⟩
  | .step snapshot day _ rule => some ⟨snapshot, day, rule, s.status.mayAddRisk⟩
  | _ => none

/-- The history after an event; a resume that succeeds begins a new one. -/
def History.after (h : History) (s : AccountState) : Event → History
  | .resume approval equity day =>
      match s.resume approval equity day with
      | .ok _ => ⟨some (day, equity.equity), []⟩
      | .error _ => h
  | e => { h with readings := h.readings ++ (e.reading s).toList }

namespace AccountState

def history (s : AccountState) (h : History) : List Event → History
  | [] => h
  | e :: events => history (s.next e) (h.after s e) events

/-- How the recorded day came about, and what it starts at. -/
inductive DayRecorded (s : AccountState) (h : History) : Prop where
  | unread (fresh : h.resumed = none) (empty : h.readings = []) (day : s.tradingDay = none)
      (start : s.dayStartEquity = none)
  | resume (day : NaiveDate) (equity : Dec) (resumed : h.resumed = some (day, equity))
      (earlier : ∀ r ∈ h.readings, r.date ≤ day) (recorded : s.tradingDay = some day)
      (start : s.dayStartEquity = some equity)
  | reading (r : Reading) (first : IsFirst Reading.date h.readings r)
      (later : ∀ day equity, h.resumed = some (day, equity) → day < r.date) (recorded : s.tradingDay = some r.date)
      (start : ∀ e, s.dayStartEquity = some e ↔ r.anchored = true ∧ r.snapshot.equity = e)

/-- The two marks of an account are the folds of what it has read. -/
structure Folds (s : AccountState) (h : History) : Prop where
  hwm : s.hwm.map Dec.atto = h.rising.max?
  day : s.DayRecorded h

/-! ## One event -/

def marks (s : AccountState) : Option Dec × Option NaiveDate × Option Dec := (s.hwm, s.tradingDay, s.dayStartEquity)

variable {s : AccountState}

theorem Folds.of_marks {s' : AccountState} {h : History} (folds : Folds s h) (same : s'.marks = s.marks) :
    Folds s' h := by
  simp only [marks, Prod.mk.injEq] at same
  obtain ⟨hwm, day, start⟩ := same
  constructor
  · rw [hwm]
    exact folds.hwm
  · cases folds.day with
    | unread fresh empty recorded start' => exact .unread fresh empty (day.trans recorded) (start.trans start')
    | resume date equity resumed earlier recorded start' =>
        exact .resume date equity resumed earlier (day.trans recorded) (start.trans start')
    | reading r first later recorded start' =>
        exact .reading r first later (day.trans recorded) fun e => by rw [start, start' e]

theorem enterHalt_marks (s : AccountState) (target : AccountStatus) (reason : HaltReason) (detail : String)
    (at' : Timestamp) : (s.enterHalt target reason detail at').1.marks = s.marks := by
  unfold enterHalt
  split <;> rfl

theorem completeFlatten_marks (s : AccountState) (verifiedFlat : Bool) :
    (s.completeFlatten verifiedFlat).1.marks = s.marks := by
  unfold completeFlatten
  split
  · rfl
  · split <;> rfl

theorem applyDecision_marks (s : AccountState) (d : RiskDecision) (at' : Timestamp) :
    (applyDecision s d at').1.marks = s.marks := by
  unfold applyDecision
  split
  · rfl
  · split
    · unfold withFullSize
      split <;> rfl
    · split
      · unfold withShrink
        split <;> rfl
      · exact enterHalt_marks ..
    · exact enterHalt_marks ..

theorem observeWith_day (s : AccountState) (r : Reading) :
    (s.observeWith r.snapshot r.day r.rule).tradingDay = (if s.isNewDay r.date then some r.date else s.tradingDay) ∧
      (s.observeWith r.snapshot r.day r.rule).dayStartEquity =
        if s.isNewDay r.date then (if r.anchored then some r.snapshot.equity else none) else s.dayStartEquity := by
  obtain ⟨snapshot, day, rule, adds⟩ := r
  cases rule with
  | firstObservation =>
      cases new : s.isNewDay day <;> simp [observeWith, observe, Reading.date, Reading.anchored, new]
  | utcMidnight lag =>
      cases new : s.isNewDay (dateNaive snapshot.at') <;>
        simp only [observeWith, observeAnchored, Reading.date, Reading.anchored, new] <;> exact ⟨rfl, rfl⟩

theorem ratchet_of_frozen (frozen : s.status.mayAddRisk = false) (equity : Dec) : s.ratchet equity = s.hwm := by
  rw [ratchet, frozen]
  rfl

theorem Folds.rising {h : History} (folds : Folds s h) {r : Reading} (adds : r.adds = s.status.mayAddRisk) :
    (s.observeWith r.snapshot r.day r.rule).hwm.map Dec.atto =
      (History.rising { h with readings := h.readings ++ [r] }).max? := by
  rw [observeWith_hwm]
  simp only [History.rising, List.filter_append, List.map_append, ← List.append_assoc]
  cases may : s.status.mayAddRisk with
  | false =>
      rw [may] at adds
      rw [ratchet_of_frozen may, folds.hwm, History.rising, List.filter_singleton, adds]
      simp
  | true =>
      rw [may] at adds
      rw [ratchet_atto s may, List.filter_singleton, adds]
      rw [cond_true, List.map_singleton, max?_concat, mark, folds.hwm]
      rfl

theorem DayRecorded.read {h : History} (before : s.DayRecorded h) (r : Reading) :
    (s.observeWith r.snapshot r.day r.rule).DayRecorded { h with readings := h.readings ++ [r] } := by
  obtain ⟨recorded', start'⟩ := s.observeWith_day r
  cases new : s.isNewDay r.date with
  | true =>
      rw [new, if_pos rfl] at recorded' start'
      have opens : ∀ e, (s.observeWith r.snapshot r.day r.rule).dayStartEquity = some e ↔
          r.anchored = true ∧ r.snapshot.equity = e := by
        intro e
        rw [start']
        cases r.anchored <;> simp
      cases before with
      | unread fresh empty day start =>
          refine .reading r (isFirst_concat_self ?_) ?_ recorded' opens
          · simp [empty]
          · simp [fresh]
      | resume day equity resumed earlier recorded start =>
          have later : day < r.date := by simpa [isNewDay, recorded] using new
          refine .reading r (isFirst_concat_self fun q member => (earlier q member).trans_lt later) ?_ recorded' opens
          rintro day' equity' same
          rw [resumed] at same
          cases same
          exact later
      | reading q first later recorded start =>
          have above : q.date < r.date := by simpa [isNewDay, recorded] using new
          refine .reading r (isFirst_concat_self fun q' member => (first.le member).trans_lt above) ?_ recorded' opens
          exact fun day equity resumed => (later day equity resumed).trans above
  | false =>
      rw [new, if_neg (by simp)] at recorded' start'
      cases before with
      | unread fresh empty day start => simp [isNewDay, day] at new
      | resume day equity resumed earlier recorded start =>
          have old : r.date ≤ day := by simpa [isNewDay, recorded] using new
          refine .resume day equity resumed ?_ (recorded'.trans recorded) (start'.trans start)
          intro q member
          rcases List.mem_append.1 member with before | last
          · exact earlier q before
          · rw [List.mem_singleton.1 last]
            exact old
      | reading q first later recorded start =>
          have old : r.date ≤ q.date := by simpa [isNewDay, recorded] using new
          exact .reading q (first.concat old) later (recorded'.trans recorded) fun e => by rw [start', start e]

theorem Folds.read {h : History} (folds : Folds s h) {r : Reading} (adds : r.adds = s.status.mayAddRisk) :
    Folds (s.observeWith r.snapshot r.day r.rule) { h with readings := h.readings ++ [r] } :=
  ⟨folds.rising adds, folds.day.read r⟩

theorem resume_folds {s' : AccountState} {approval : HumanApproval} {equity : EquitySnapshot} {day : NaiveDate}
    {t : Transition} (h : s.resume approval equity day = .ok (s', t)) :
    Folds s' ⟨some (day, equity.equity), []⟩ := by
  unfold resume at h
  split at h
  · cases h
  · cases h
  · cases h
  · split at h
    · cases h
    · split at h
      · cases h
      · cases h
        exact ⟨rfl, .resume day equity.equity rfl (by simp) rfl rfl⟩

theorem Folds.next {h : History} (folds : Folds s h) (e : Event) : Folds (s.next e) (h.after s e) := by
  cases e with
  | observe snapshot day => exact @Folds.read s h folds ⟨snapshot, day, .firstObservation, s.status.mayAddRisk⟩ rfl
  | observeAnchored snapshot maxLagSecs =>
      exact @Folds.read s h folds
        ⟨snapshot, dateNaive snapshot.at', .utcMidnight maxLagSecs, s.status.mayAddRisk⟩ rfl
  | halt reason detail at' =>
      simp only [History.after, Event.reading, Option.toList_none, List.append_nil]
      exact folds.of_marks (enterHalt_marks ..)
  | beginFlatten reason detail at' =>
      simp only [History.after, Event.reading, Option.toList_none, List.append_nil]
      exact folds.of_marks (enterHalt_marks ..)
  | completeFlatten verifiedFlat =>
      simp only [History.after, Event.reading, Option.toList_none, List.append_nil]
      exact folds.of_marks (completeFlatten_marks ..)
  | resume approval equity day =>
      simp only [AccountState.next, History.after]
      cases result : s.resume approval equity day with
      | ok resumed => exact resume_folds result
      | error _ => exact folds
  | applyDecision evaluated snapshot policy at' =>
      simp only [History.after, Event.reading, Option.toList_none, List.append_nil]
      exact folds.of_marks (applyDecision_marks ..)
  | step snapshot day policy rule =>
      have read := @Folds.read s h folds ⟨snapshot, day, rule, s.status.mayAddRisk⟩ rfl
      exact read.of_marks (applyDecision_marks ..)

/-! ## Whole runs -/

theorem Folds.run {events : List Event} : ∀ {s : AccountState} {h : History}, Folds s h →
    Folds (Runs.run AccountState.next s events) (s.history h events) := by
  induction events with
  | nil =>
      intro s h folds
      exact folds
  | cons e events ih =>
      intro s h folds
      exact ih (folds.next e)

/-- In every run of a fresh account the mark is the maximum of the resume's equity and
    the readings since that could raise it, and the recorded day starts at the resume's
    equity, or as the first reading of that day opened it. -/
theorem run_folds (accountId : String) (events : List Event) :
    Folds (run AccountState.next (new accountId) events) ((new accountId).history ⟨none, []⟩ events) :=
  Folds.run ⟨rfl, .unread rfl rfl rfl rfl⟩

/-- Halted, then resumed at noon: the day starts at the equity of the resume, although
    neither the resume nor the reading after it lies within an hour of midnight. -/
theorem resumed_at_noon_starts_day :
    ∃ (events : List Event) (e : Dec), (∀ e' ∈ events, ∀ snapshot day policy rule,
        e' = .step snapshot day policy rule → rule = .utcMidnight 3600) ∧
      (run AccountState.next (new "acct") events).dayStartEquity = some e ∧
      (∀ r ∈ ((new "acct").history ⟨none, []⟩ events).readings, r.anchored = false) ∧
      ∀ approval equity day, .resume approval equity day ∈ events → withinAnchorWindow equity.at' 3600 = false := by
  refine ⟨[.halt .manual "stop" 0,
    .resume ⟨"ops", 0, ""⟩ (equityAt 100 (by decide) (43200 * nanosPerSecond)) 0,
    .step (equityAt 90 (by decide) (43260 * nanosPerSecond)) 0 twoRungPolicy (.utcMidnight 3600)],
    (equityAt 100 (by decide) 0).equity, by simp +contextual [eq_comm], by decide, ?_, ?_⟩
  · have read : ((new "acct").history ⟨none, []⟩ [.halt .manual "stop" 0,
        .resume ⟨"ops", 0, ""⟩ (equityAt 100 (by decide) (43200 * nanosPerSecond)) 0,
        .step (equityAt 90 (by decide) (43260 * nanosPerSecond)) 0 twoRungPolicy (.utcMidnight 3600)]).readings =
          [⟨equityAt 90 (by decide) (43260 * nanosPerSecond), 0, .utcMidnight 3600, true⟩] := rfl
    intro r member
    rw [read] at member
    rw [List.mem_singleton.1 member]
    decide
  · intro approval equity day member
    simp only [List.mem_cons, List.not_mem_nil, or_false, reduceCtorEq, false_or, Event.resume.injEq] at member
    rw [member.2.1]
    decide

end AccountState

end RebalancerRisk
