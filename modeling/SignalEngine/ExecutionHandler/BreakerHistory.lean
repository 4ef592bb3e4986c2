import SignalEngine.ExecutionHandler.CircuitBreakerV2
import Mathlib.Data.Finset.Card
import Mathlib.Order.Interval.Finset.Nat

/-! # What the breaker remembers

The history of the calls says when the breaker should open, wait, close and admit. It
does all of it except for one thing: failures are counted however far apart they are,
since the window that is configured for them is not looked at. A timeout of more than
64 bits is cut.
-/

namespace ExecutionHandler

namespace CircuitBreakerV2

/-! ## The history of a run -/

def streak (calls : List TimedCall) : List Nat :=
  calls.foldl (fun times c =>
    match c.call with
    | .recordFailure => times ++ [c.nowNs]
    | .recordSuccess | .reset => []
    | .canExecute => times) []

def lastFailure (calls : List TimedCall) : Option Nat :=
  calls.foldl (fun last c => if c.call = .recordFailure then some c.nowNs else last) none

def CircuitBreakerConfig.windowNs (config : CircuitBreakerConfig) : Nat := config.failureWindowSecs * 10 ^ 9

def requests (calls : List TimedCall) : Nat := calls.countP (·.call = .canExecute)

def successes (calls : List TimedCall) : Nat := calls.countP (·.call = .recordSuccess)

namespace AtomicCircuitBreaker

/-- The breaker is half open after each of the calls. -/
def StaysHalfOpen : AtomicCircuitBreaker → List TimedCall → Prop
  | _, [] => True
  | b, c :: calls => (b.after c).state = .halfOpen ∧ StaysHalfOpen (b.after c) calls

def admitted : AtomicCircuitBreaker → List TimedCall → Nat
  | _, [] => 0
  | b, c :: calls => (if b.answer c = some true then 1 else 0) + admitted (b.after c) calls

end AtomicCircuitBreaker

open AtomicCircuitBreaker

def reached (config : CircuitBreakerConfig) (calls : List TimedCall) : AtomicCircuitBreaker := (new config).run calls

structure Correct (config : CircuitBreakerConfig) (calls : List TimedCall) : Prop where
  /-- It leaves the closed state with the failure that makes enough of them within the
      window, and only then. -/
  opens : ∀ before c later, calls = before ++ c :: later → (reached config before).state = .closed →
    ((reached config (before ++ [c])).state ≠ .closed ↔ c.call = .recordFailure ∧
      config.failureThreshold ≤ (streak (before ++ [c])).countP fun t => c.nowNs ≤ t + config.windowNs)
  /-- While it is open it admits nothing before the timeout has passed. -/
  waits : ∀ before c later, calls = before ++ c :: later → (reached config before).state = .opened →
    c.call = .canExecute → ∀ t, lastFailure before = some t → c.nowNs < t + config.recoveryTimeout →
      (reached config before).answer c = some false
  /-- It closes by a reset, or by enough successes while half open. -/
  closes : ∀ before c later, calls = before ++ c :: later → (reached config before).state ≠ .closed →
    (reached config (before ++ [c])).state = .closed → c.call = .reset ∨
      c.call = .recordSuccess ∧ ∃ first period, before = first ++ period ∧ (reached config first).state = .halfOpen ∧
        (reached config first).StaysHalfOpen period ∧ (∀ d ∈ period, d.call ≠ .recordFailure) ∧
        successes (period ++ [c]) = config.successThreshold
  /-- Of a hundred requests while it is half open it admits the percentage, and the one
      that opened it half. -/
  admits : ∀ before period later, calls = before ++ period ++ later → (reached config before).StaysHalfOpen period →
    requests period ≤ 100 → (reached config before).admitted period ≤ config.halfOpenRequestPct + 1

/-- The failures that are counted together lie within the window, and no request comes
    between the cut timeout and the whole one. -/
structure Meets (config : CircuitBreakerConfig) (calls : List TimedCall) : Prop where
  window : ∀ before c later, calls = before ++ c :: later → (reached config before).state = .closed →
    c.call = .recordFailure → config.failureThreshold ≤ (streak (before ++ [c])).length →
      ∀ t ∈ streak (before ++ [c]), c.nowNs ≤ t + config.windowNs
  timeout : ∀ before c later, calls = before ++ c :: later → (reached config before).state = .opened →
    c.call = .canExecute → ∀ t, lastFailure before = some t → c.nowNs < t + config.recoveryTimeout →
      c.nowNs < t + config.recoveryTimeout % 2 ^ 64

/-! ## One more call -/

section History

variable (calls : List TimedCall) (c : TimedCall)

theorem streak_append : streak (calls ++ [c]) = match c.call with
    | .recordFailure => streak calls ++ [c.nowNs]
    | .recordSuccess | .reset => []
    | .canExecute => streak calls := by
  simp only [streak, List.foldl_append, List.foldl_cons, List.foldl_nil]

theorem lastFailure_append :
    lastFailure (calls ++ [c]) = if c.call = .recordFailure then some c.nowNs else lastFailure calls := by
  simp only [lastFailure, List.foldl_append, List.foldl_cons, List.foldl_nil]

theorem lastFailure_mem {t : Nat} (last : lastFailure calls = some t) : ∃ c ∈ calls, c.nowNs = t := by
  induction calls using List.reverseRecOn with
  | nil => cases last
  | append_singleton calls c ih =>
      rw [lastFailure_append] at last
      split at last
      · exact ⟨c, by simp, Option.some.inj last⟩
      · obtain ⟨d, member, time⟩ := ih last
        exact ⟨d, by simp [member], time⟩

theorem reached_append (config : CircuitBreakerConfig) :
    reached config (calls ++ [c]) = (reached config calls).after c := Runs.run_append _ _ _ _

theorem successes_append :
    successes (calls ++ [c]) = successes calls + if c.call = .recordSuccess then 1 else 0 := by
  simp [successes, List.countP_append, List.countP_singleton]

end History

namespace AtomicCircuitBreaker

variable {b : AtomicCircuitBreaker} {c : TimedCall}

theorem config_after (b : AtomicCircuitBreaker) (c : TimedCall) : (b.after c).config = b.config := by
  unfold after step
  split
  · simp only [canExecute]
    split
    · rfl
    · dsimp only [tryTransitionToHalfOpen]
      split <;> rfl
    · dsimp only [shouldAllowHalfOpenRequest]
      split <;> rfl
  · simp only [recordSuccess]
    split
    · rfl
    · split <;> rfl
    · rfl
  · simp only [recordFailure]
    split
    · split <;> rfl
    · rfl
    · rfl
  · rfl

theorem stays_append {calls : List TimedCall} : ∀ {b : AtomicCircuitBreaker}, b.StaysHalfOpen (calls ++ [c]) ↔
    b.StaysHalfOpen calls ∧ ((b.run calls).after c).state = .halfOpen := by
  induction calls with
  | nil => simp [StaysHalfOpen, run]
  | cons d calls ih =>
      intro b
      simp only [List.cons_append, StaysHalfOpen, ih, and_assoc, run, Runs.run_cons]

theorem request_opened (opened : b.state = .opened) (request : c.call = .canExecute) :
    b.answer c = some (decide (b.config.recoveryTimeout % 2 ^ 64 ≤ c.nowNs - b.lastFailureNs)) ∧
      b.after c = if b.config.recoveryTimeout % 2 ^ 64 ≤ c.nowNs - b.lastFailureNs then
        { b with state := .halfOpen, halfOpenSuccesses := 0, halfOpenRequestCounter := 0 } else b := by
  simp only [answer, after, step, request, canExecute, opened, tryTransitionToHalfOpen, ge_iff_le]
  split
  next passed =>
    rw [decide_eq_true passed]
    exact ⟨rfl, rfl⟩
  next early =>
    rw [decide_eq_false early]
    exact ⟨rfl, rfl⟩

end AtomicCircuitBreaker

/-! ## What the counters stand for -/

/-- The calls end with a half-open period of so many successes. -/
def Period (config : CircuitBreakerConfig) (calls : List TimedCall) (n : Nat) : Prop :=
  ∃ first period, calls = first ++ period ∧ (reached config first).state = .halfOpen ∧
    (reached config first).StaysHalfOpen period ∧ (∀ d ∈ period, d.call ≠ .recordFailure) ∧ successes period = n

/-- The breaker agrees with the history of its calls. -/
structure Remembers (config : CircuitBreakerConfig) (calls : List TimedCall) (b : AtomicCircuitBreaker) : Prop where
  configured : b.config = config
  counted : b.state = .closed → b.failureCount = (streak calls).length ∧ (streak calls).length < config.failureThreshold
  failed : b.state ≠ .closed → lastFailure calls = some b.lastFailureNs
  period : b.state = .halfOpen → Period config calls b.halfOpenSuccesses ∧ b.halfOpenSuccesses < config.successThreshold

section Remembering

variable {config : CircuitBreakerConfig} {calls : List TimedCall} {c : TimedCall} {n : Nat}

theorem Period.start (entered : (reached config calls).state = .halfOpen) : Period config calls 0 :=
  ⟨calls, [], by simp, entered, trivial, by simp, rfl⟩

theorem Period.extend (period : Period config calls n) (stays : (reached config (calls ++ [c])).state = .halfOpen)
    (noFailure : c.call ≠ .recordFailure) :
    Period config (calls ++ [c]) (n + if c.call = .recordSuccess then 1 else 0) := by
  obtain ⟨first, period, rfl, entered, half, clean, rfl⟩ := period
  refine ⟨first, period ++ [c], by simp, entered, ?_, ?_, successes_append period c⟩
  · rw [stays_append]
    refine ⟨half, ?_⟩
    rw [reached_append] at stays
    have split : reached config (first ++ period) = (reached config first).run period := Runs.run_append _ _ _ _
    rwa [split] at stays
  · intro d member
    rcases List.mem_append.1 member with old | new
    · exact clean d old
    · obtain rfl := List.mem_singleton.1 new
      exact noFailure

theorem fetchAdd_eq (small : n + 1 < 2 ^ 32) : fetchAdd n = n + 1 := Nat.mod_eq_of_lt small

theorem failure_closed (remembers : Remembers config calls (reached config calls))
    (closed : (reached config calls).state = .closed) (failure : c.call = .recordFailure)
    (counts : (reached config calls).Counts c) :
    let after := (reached config calls).after c
    after.lastFailureNs = c.nowNs ∧
      (after.state = .opened ∧ config.failureThreshold ≤ (streak calls).length + 1 ∨
        after.state = .closed ∧ after.failureCount = (streak calls).length + 1 ∧
          (streak calls).length + 1 < config.failureThreshold) := by
  have small := counts (reached config calls).failureCount (by simp [bumped, failure, closed])
  have count := (remembers.counted closed).1
  rw [count] at small
  simp only [after, step, failure, recordFailure, closed, fetchAdd_eq small, remembers.configured, count]
  split
  next enough => exact ⟨rfl, .inl ⟨rfl, enough⟩⟩
  next few => exact ⟨rfl, .inr ⟨rfl, rfl, not_le.1 few⟩⟩

theorem success_half (remembers : Remembers config calls (reached config calls))
    (half : (reached config calls).state = .halfOpen) (success : c.call = .recordSuccess)
    (counts : (reached config calls).Counts c) :
    let b := reached config calls
    let after := b.after c
    (after.state = .closed ∧ after.failureCount = 0 ∧ b.halfOpenSuccesses + 1 = config.successThreshold) ∨
      (after = { b with halfOpenSuccesses := b.halfOpenSuccesses + 1 } ∧
        b.halfOpenSuccesses + 1 < config.successThreshold) := by
  have small := counts (reached config calls).halfOpenSuccesses (by simp [bumped, success, half])
  have below := (remembers.period half).2
  simp only [after, step, success, recordSuccess, half, fetchAdd_eq small, remembers.configured]
  split
  next enough => exact .inl ⟨rfl, rfl, le_antisymm below enough⟩
  next few => exact .inr ⟨rfl, not_le.1 few⟩

section States

variable {b : AtomicCircuitBreaker} (configured : b.config = config)

include configured

theorem remembers_closed (closed : b.state = .closed) (count : b.failureCount = (streak calls).length)
    (few : (streak calls).length < config.failureThreshold) : Remembers config calls b where
  configured := configured
  counted _ := ⟨count, few⟩
  failed open_ := absurd closed open_
  period half := by
    rw [closed] at half
    cases half

theorem remembers_opened (opened : b.state = .opened) (last : lastFailure calls = some b.lastFailureNs) :
    Remembers config calls b where
  configured := configured
  counted closed := by
    rw [opened] at closed
    cases closed
  failed _ := last
  period half := by
    rw [opened] at half
    cases half

theorem remembers_half (half : b.state = .halfOpen) (last : lastFailure calls = some b.lastFailureNs)
    (period : Period config calls b.halfOpenSuccesses) (few : b.halfOpenSuccesses < config.successThreshold) :
    Remembers config calls b where
  configured := configured
  counted closed := by
    rw [half] at closed
    cases closed
  failed _ := last
  period _ := ⟨period, few⟩

end States

theorem Remembers.next (positive : 0 < config.failureThreshold) (positive' : 0 < config.successThreshold)
    (remembers : Remembers config calls (reached config calls)) (counts : (reached config calls).Counts c) :
    Remembers config (calls ++ [c]) (reached config (calls ++ [c])) := by
  have later := reached_append calls c config
  have configured : ((reached config calls).after c).config = config := by
    rw [config_after, remembers.configured]
  rw [later]
  cases call : c.call with
  | reset =>
      have reset : (reached config calls).after c = (reached config calls).reset := by simp [after, step, call]
      have empty : streak (calls ++ [c]) = [] := by rw [streak_append, call]
      exact remembers_closed configured (by rw [reset]; rfl) (by rw [reset, empty]; rfl) (by rw [empty]; exact positive)
  | recordSuccess =>
      have empty : streak (calls ++ [c]) = [] := by rw [streak_append, call]
      have last : lastFailure (calls ++ [c]) = lastFailure calls := by
        rw [lastFailure_append, call, if_neg (by decide)]
      cases state : (reached config calls).state with
      | closed =>
          have closed : ((reached config calls).after c).state = .closed ∧
              ((reached config calls).after c).failureCount = 0 := by
            simp [after, step, call, recordSuccess, state]
          exact remembers_closed configured closed.1 (by rw [closed.2, empty]; rfl) (by rw [empty]; exact positive)
      | opened =>
          have same : (reached config calls).after c = reached config calls := by
            simp [after, step, call, recordSuccess, state]
          rw [same]
          exact remembers_opened remembers.configured state (last.trans (remembers.failed (by simp [state])))
      | halfOpen =>
          rcases success_half remembers state call counts with ⟨closed, none, -⟩ | ⟨counted, few⟩
          · exact remembers_closed configured closed (by rw [none, empty]; rfl) (by rw [empty]; exact positive)
          · have stays : (reached config (calls ++ [c])).state = .halfOpen := by
              rw [later, counted]
              exact state
            have extended := (remembers.period state).1.extend stays (by simp [call])
            rw [call, if_pos rfl] at extended
            rw [counted]
            exact remembers_half remembers.configured state (last.trans (remembers.failed (by simp [state])))
              extended few
  | recordFailure =>
      have last : lastFailure (calls ++ [c]) = some c.nowNs := by rw [lastFailure_append, call, if_pos rfl]
      cases state : (reached config calls).state with
      | closed =>
          obtain ⟨time, ⟨opened, -⟩ | ⟨closed, count, few⟩⟩ := failure_closed remembers state call counts
          · exact remembers_opened configured opened (by rw [last, time])
          · have grown : (streak (calls ++ [c])).length = (streak calls).length + 1 := by
              rw [streak_append, call]
              simp
            exact remembers_closed configured closed (by rw [count, grown]) (by rw [grown]; exact few)
      | opened =>
          have opened : ((reached config calls).after c).state = .opened ∧
              ((reached config calls).after c).lastFailureNs = c.nowNs := by
            simp [after, step, call, recordFailure, state]
          exact remembers_opened configured opened.1 (by rw [last, opened.2])
      | halfOpen =>
          have opened : ((reached config calls).after c).state = .opened ∧
              ((reached config calls).after c).lastFailureNs = c.nowNs := by
            simp [after, step, call, recordFailure, state, transitionToOpen]
          exact remembers_opened configured opened.1 (by rw [last, opened.2])
  | canExecute =>
      have last : lastFailure (calls ++ [c]) = lastFailure calls := by
        rw [lastFailure_append, call, if_neg (by decide)]
      have same : streak (calls ++ [c]) = streak calls := by rw [streak_append, call]
      cases state : (reached config calls).state with
      | closed =>
          have kept : (reached config calls).after c = reached config calls := by
            simp [after, step, call, canExecute, state]
          obtain ⟨count, few⟩ := remembers.counted state
          rw [kept]
          exact remembers_closed remembers.configured state (by rw [same, count]) (by rw [same]; exact few)
      | opened =>
          have failed := last.trans (remembers.failed (by simp [state]))
          have request := (request_opened state call).2
          split at request
          · have entered : (reached config (calls ++ [c])).state = .halfOpen := by rw [later, request]
            rw [request]
            exact remembers_half remembers.configured rfl failed (.start entered) positive'
          · rw [request]
            exact remembers_opened remembers.configured state failed
      | halfOpen =>
          have kept : ((reached config calls).after c).state = .halfOpen ∧
              ((reached config calls).after c).lastFailureNs = (reached config calls).lastFailureNs ∧
              ((reached config calls).after c).halfOpenSuccesses = (reached config calls).halfOpenSuccesses := by
            simp only [after, step, call, canExecute, state, shouldAllowHalfOpenRequest]
            split
            · exact ⟨state, rfl, rfl⟩
            · exact ⟨rfl, rfl, rfl⟩
          obtain ⟨half, time, count⟩ := kept
          have stays : (reached config (calls ++ [c])).state = .halfOpen := by rw [later, half]
          have extended := (remembers.period state).1.extend stays (by simp [call])
          rw [call, if_neg (by decide), Nat.add_zero, ← count] at extended
          have few := (remembers.period state).2
          rw [← count] at few
          exact remembers_half configured half (by rw [last, time]; exact remembers.failed (by simp [state])) extended few

theorem remembers_reached (positive : 0 < config.failureThreshold) (positive' : 0 < config.successThreshold)
    (counts : Runs.Guarded after Counts (new config) calls) : Remembers config calls (reached config calls) := by
  induction calls using List.reverseRecOn with
  | nil =>
      refine ⟨rfl, fun _ => ⟨rfl, positive⟩, ?_, ?_⟩
      · intro open_
        exact absurd rfl open_
      · intro half
        cases half
  | append_singleton calls c ih =>
      obtain ⟨first, last⟩ := Runs.guarded_append.1 counts
      exact (ih first).next positive positive' last.1

end Remembering

/-! ## Requests while half open -/

theorem card_small_remainders (k pct : Nat) {n : Nat} (hundred : n ≤ 100) :
    ((Finset.Ico k (k + n)).filter (· % 100 < pct)).card ≤ pct := by
  rw [← Finset.card_range pct]
  apply Finset.card_le_card_of_injOn (· % 100)
  · intro i member
    simpa using (Finset.mem_filter.1 member).2
  · intro i memberI j memberJ same
    have inI := Finset.mem_Ico.1 (Finset.mem_filter.1 memberI).1
    have inJ := Finset.mem_Ico.1 (Finset.mem_filter.1 memberJ).1
    simp only at same
    omega

namespace AtomicCircuitBreaker

variable {b : AtomicCircuitBreaker} {c : TimedCall}

theorem admitted_le_requests {calls : List TimedCall} : ∀ {b : AtomicCircuitBreaker},
    b.admitted calls ≤ requests calls := by
  induction calls with
  | nil => exact Nat.le_refl _
  | cons c calls ih =>
      intro b
      have rest := ih (b := b.after c)
      rw [admitted, requests, List.countP_cons]
      cases call : c.call with
      | canExecute =>
          simp only [decide_true, if_true]
          unfold requests at rest
          split <;> omega
      | recordSuccess | recordFailure | reset =>
          have unanswered : b.answer c ≠ some true := by simp [answer, step, call]
          simp only [if_neg unanswered, reduceCtorEq, decide_false, Bool.false_eq_true, if_false]
          unfold requests at rest
          omega

theorem half_after (half : b.state = .halfOpen) (stays : (b.after c).state = .halfOpen) (counts : b.Counts c)
    (limited : b.config.halfOpenRequestPct < 100) :
    (c.call = .canExecute ∧ (b.after c).halfOpenRequestCounter = b.halfOpenRequestCounter + 1 ∧
        b.answer c = some (decide (b.halfOpenRequestCounter % 100 < b.config.halfOpenRequestPct))) ∨
      (c.call = .recordSuccess ∧ (b.after c).halfOpenRequestCounter = b.halfOpenRequestCounter ∧
        b.answer c = none) := by
  cases call : c.call with
  | canExecute =>
      have small := counts b.halfOpenRequestCounter (by simp [bumped, call, half])
      left
      simp only [after, answer, step, call, canExecute, half, shouldAllowHalfOpenRequest, ge_iff_le,
        not_le.2 limited, if_false, fetchAdd_eq small, and_self]
  | recordSuccess =>
      right
      simp only [after, answer, step, call, recordSuccess, half] at stays ⊢
      split at stays
      · cases stays
      next few =>
        rw [if_neg few]
        exact ⟨trivial, rfl, trivial⟩
  | recordFailure =>
      simp only [after, step, call, recordFailure, half] at stays
      cases stays
  | reset =>
      simp only [after, step, call] at stays
      cases stays

theorem admitted_half {calls : List TimedCall} : ∀ {b : AtomicCircuitBreaker}, b.state = .halfOpen →
    b.StaysHalfOpen calls → Runs.Guarded after Counts b calls → b.config.halfOpenRequestPct < 100 →
      b.admitted calls = ((Finset.Ico b.halfOpenRequestCounter (b.halfOpenRequestCounter + requests calls)).filter
        (· % 100 < b.config.halfOpenRequestPct)).card := by
  induction calls with
  | nil => simp [admitted, requests]
  | cons c calls ih =>
      intro b half stays counts limited
      have rest := ih stays.1 stays.2 counts.2 (by rw [config_after]; exact limited)
      rw [config_after] at rest
      rcases half_after half stays.1 counts.1 limited with ⟨call, counter, answered⟩ | ⟨call, counter, answered⟩
      · have more : requests (c :: calls) = requests calls + 1 := by simp [requests, call]
        rw [counter] at rest
        rw [admitted, answered, rest, more]
        have first : Finset.Ico b.halfOpenRequestCounter (b.halfOpenRequestCounter + (requests calls + 1)) =
            insert b.halfOpenRequestCounter
              (Finset.Ico (b.halfOpenRequestCounter + 1) (b.halfOpenRequestCounter + 1 + requests calls)) := by
          ext i
          simp only [Finset.mem_Ico, Finset.mem_insert]
          omega
        rw [first, Finset.filter_insert]
        by_cases small : b.halfOpenRequestCounter % 100 < b.config.halfOpenRequestPct
        · rw [if_pos (by simp [small]), if_pos small, Finset.card_insert_of_notMem (by simp), Nat.add_comm]
        · rw [if_neg (by simp [small]), if_neg small, Nat.zero_add]
      · have more : requests (c :: calls) = requests calls := by simp [requests, call]
        rw [counter] at rest
        rw [admitted, answered, rest, more, if_neg (by simp), Nat.zero_add]

/-- Of a hundred requests of one half-open period the percentage is admitted, and the
    one that began it. -/
theorem admitted_le {calls : List TimedCall} (stays : b.StaysHalfOpen calls)
    (counts : Runs.Guarded after Counts b calls) (hundred : requests calls ≤ 100) :
    b.admitted calls ≤ b.config.halfOpenRequestPct + 1 := by
  by_cases limited : b.config.halfOpenRequestPct < 100
  · cases state : b.state with
    | halfOpen =>
        rw [admitted_half state stays counts limited]
        exact Nat.le_succ_of_le (card_small_remainders _ _ hundred)
    | closed =>
        cases calls with
        | nil => exact Nat.zero_le _
        | cons c calls =>
            have half := stays.1
            cases call : c.call with
            | canExecute => simp [after, step, call, canExecute, state] at half
            | recordSuccess => simp [after, step, call, recordSuccess, state] at half
            | recordFailure =>
                simp only [after, step, call, recordFailure, state] at half
                split at half
                · cases half
                · cases half
            | reset =>
                simp only [after, step, call] at half
                cases half
    | opened =>
        cases calls with
        | nil => exact Nat.zero_le _
        | cons c calls =>
            have half := stays.1
            cases call : c.call with
            | canExecute =>
                have rest := admitted_half half stays.2 counts.2 (by rw [config_after]; exact limited)
                have more : requests (c :: calls) = requests calls + 1 := by simp [requests, call]
                have few := card_small_remainders (b.after c).halfOpenRequestCounter b.config.halfOpenRequestPct
                  (show requests calls ≤ 100 by omega)
                rw [config_after] at rest
                rw [admitted, rest]
                split <;> omega
            | recordSuccess => simp [after, step, call, recordSuccess, state] at half
            | recordFailure => simp [after, step, call, recordFailure, state] at half
            | reset =>
                simp only [after, step, call] at half
                cases half
  · exact admitted_le_requests.trans (by omega)

end AtomicCircuitBreaker

/-! ## The breaker against its history -/

section Histories

variable {config : CircuitBreakerConfig} {calls : List TimedCall} {c : TimedCall}

section

variable (remembers : Remembers config calls (reached config calls))

include remembers

/-- A closed breaker opens exactly with the failure that makes the threshold. -/
theorem opens_iff (closed : (reached config calls).state = .closed) (counts : (reached config calls).Counts c) :
    (reached config (calls ++ [c])).state ≠ .closed ↔
      c.call = .recordFailure ∧ config.failureThreshold ≤ (streak (calls ++ [c])).length := by
  rw [reached_append]
  cases call : c.call with
  | recordFailure =>
      have grown : (streak (calls ++ [c])).length = (streak calls).length + 1 := by
        rw [streak_append, call]
        simp
      obtain ⟨-, ⟨opened, enough⟩ | ⟨stays, -, few⟩⟩ := failure_closed remembers closed call counts
      · simp [opened, grown, enough]
      · simp [stays, grown, few]
  | canExecute => simp [after, step, call, canExecute, closed]
  | recordSuccess => simp [after, step, call, recordSuccess, closed]
  | reset => simp [after, step, call, AtomicCircuitBreaker.reset, transitionToClosed]

theorem streak_length_le (closed : (reached config calls).state = .closed) :
    (streak (calls ++ [c])).length ≤ config.failureThreshold := by
  have few := (remembers.counted closed).2
  rw [streak_append]
  cases c.call with
  | recordFailure =>
      rw [List.length_append, List.length_singleton]
      exact few
  | canExecute => exact few.le
  | recordSuccess | reset => exact Nat.zero_le _

/-- A breaker that is not closed closes by a reset, or by the success that completes its
    half-open period. -/
theorem closes_by (open_ : (reached config calls).state ≠ .closed) (counts : (reached config calls).Counts c)
    (closed : (reached config (calls ++ [c])).state = .closed) :
    c.call = .reset ∨ c.call = .recordSuccess ∧ ∃ first period, calls = first ++ period ∧
      (reached config first).state = .halfOpen ∧ (reached config first).StaysHalfOpen period ∧
      (∀ d ∈ period, d.call ≠ .recordFailure) ∧ successes (period ++ [c]) = config.successThreshold := by
  rw [reached_append] at closed
  cases call : c.call with
  | reset => exact .inl rfl
  | recordSuccess =>
      right
      cases state : (reached config calls).state with
      | closed => exact absurd state open_
      | opened => simp [after, step, call, recordSuccess, state] at closed
      | halfOpen =>
          rcases success_half remembers state call counts with ⟨-, -, enough⟩ | ⟨stays, -⟩
          · obtain ⟨first, period, split, entered, half, clean, count⟩ := (remembers.period state).1
            refine ⟨rfl, first, period, split, entered, half, clean, ?_⟩
            rw [successes_append, call, if_pos rfl, count, enough]
          · rw [stays] at closed
            exact absurd closed (by simp [state])
  | recordFailure =>
      cases state : (reached config calls).state with
      | closed => exact absurd state open_
      | opened => simp [after, step, call, recordFailure, state] at closed
      | halfOpen => simp [after, step, call, recordFailure, state, transitionToOpen] at closed
  | canExecute =>
      cases state : (reached config calls).state with
      | closed => exact absurd state open_
      | opened =>
          rw [(request_opened state call).2] at closed
          split at closed
          · cases closed
          · exact absurd closed (by simp [state])
      | halfOpen =>
          simp only [after, step, call, canExecute, state, shouldAllowHalfOpenRequest] at closed
          split at closed
          · exact absurd closed (by simp [state])
          · cases closed

/-- A request to an open breaker is refused exactly before the cut timeout. -/
theorem refused_iff (opened : (reached config calls).state = .opened) (request : c.call = .canExecute) {t : Nat}
    (last : lastFailure calls = some t) (later : t ≤ c.nowNs) :
    (reached config calls).answer c = some false ↔ c.nowNs < t + config.recoveryTimeout % 2 ^ 64 := by
  have failed := remembers.failed (by simp [opened])
  obtain rfl := Option.some.inj (last.symm.trans failed)
  rw [(request_opened opened request).1, remembers.configured, Option.some.injEq, decide_eq_false_iff_not]
  omega

end

/-- The breaker does what it is for, throughout a run, exactly when the failures it
    counts lie within the window and its timeout is not cut short. -/
theorem correct_iff (positive : 0 < config.failureThreshold) (positive' : 0 < config.successThreshold)
    (clock : calls.Pairwise fun c d => c.nowNs ≤ d.nowNs)
    (counts : Runs.Guarded after Counts (new config) calls) : Correct config calls ↔ Meets config calls := by
  -- what holds before each call
  have before {before later : List TimedCall} {c : TimedCall} (split : calls = before ++ c :: later) :
      Remembers config before (reached config before) ∧ (reached config before).Counts c ∧
        ∀ t, lastFailure before = some t → t ≤ c.nowNs := by
    subst split
    obtain ⟨first, rest⟩ := Runs.guarded_append.1 counts
    refine ⟨remembers_reached positive positive' first, rest.1, ?_⟩
    intro t last
    obtain ⟨d, member, rfl⟩ := lastFailure_mem before last
    exact (List.pairwise_append.1 clock).2.2 d member c (by simp)
  constructor
  · intro correct
    refine ⟨?_, ?_⟩
    · intro before' c later split closed failure enough t member
      obtain ⟨remembers, counted, -⟩ := before split
      have opened := (opens_iff remembers closed counted).2 ⟨failure, enough⟩
      have inWindow := ((correct.opens before' c later split closed).1 opened).2
      have all := List.countP_eq_length.1 (le_antisymm List.countP_le_length
        ((streak_length_le remembers closed).trans inWindow))
      simpa using all t member
    · intro before' c later split opened request t last early
      obtain ⟨remembers, -, ordered⟩ := before split
      have refused := correct.waits before' c later split opened request t last early
      exact (refused_iff remembers opened request last (ordered t last)).1 refused
  · intro meets
    refine ⟨?_, ?_, ?_, ?_⟩
    · intro before' c later split closed
      obtain ⟨remembers, counted, -⟩ := before split
      rw [opens_iff remembers closed counted]
      apply and_congr_right
      intro failure
      constructor
      · intro enough
        have all := meets.window before' c later split closed failure enough
        rw [List.countP_eq_length.2 (by simpa using all)]
        exact enough
      · exact fun inWindow => inWindow.trans List.countP_le_length
    · intro before' c later split opened request t last early
      obtain ⟨remembers, -, ordered⟩ := before split
      rw [refused_iff remembers opened request last (ordered t last)]
      exact meets.timeout before' c later split opened request t last early
    · intro before' c later split open_ closed
      obtain ⟨remembers, counted, -⟩ := before split
      exact closes_by remembers open_ counted closed
    · rintro before' period later rfl stays hundred
      obtain ⟨first, -⟩ := Runs.guarded_append.1 counts
      obtain ⟨start, whole⟩ := Runs.guarded_append.1 first
      have configured := (remembers_reached positive positive' start).configured
      have few := admitted_le stays whole hundred
      rwa [configured] at few

end Histories

/-! ## Failures an hour apart -/

namespace Apart

/-- Two failures within a minute open the breaker for half a minute. -/
private def strict : CircuitBreakerConfig := ⟨2, 30 * 10 ^ 9, 1, 10, 60⟩

private def hourly : List TimedCall := [⟨0, .recordFailure⟩, ⟨3600 * 10 ^ 9, .recordFailure⟩]

theorem distant_failures_open :
    ¬ ∀ (config : CircuitBreakerConfig) (calls : List TimedCall), 0 < config.failureThreshold →
      0 < config.successThreshold → calls.Pairwise (fun c d => c.nowNs ≤ d.nowNs) →
        Runs.Guarded after Counts (new config) calls → Correct config calls := by
  intro all
  have correct := all strict hourly (by decide) (by decide) (by simp [hourly]) (by decide +kernel)
  have opens := (correct.opens [⟨0, .recordFailure⟩] ⟨3600 * 10 ^ 9, .recordFailure⟩ [] rfl (by decide +kernel)).1
    (by decide +kernel)
  revert opens
  decide +kernel

/-- Two failures ten seconds apart, and a recovery. -/
private def recovery : List TimedCall :=
  [⟨0, .recordFailure⟩, ⟨10 * 10 ^ 9, .recordFailure⟩, ⟨50 * 10 ^ 9, .canExecute⟩, ⟨51 * 10 ^ 9, .recordSuccess⟩]

private theorem at_split {before later : List TimedCall} {c : TimedCall} (split : recovery = before ++ c :: later) :
    ∃ i < 4, before = recovery.take i ∧ recovery[i]? = some c := by
  have short : before.length < recovery.length := by simp [split]
  exact ⟨before.length, short, by simp [split], by simp [split]⟩

private theorem recovery_meets : Meets strict recovery where
  window before c later split := by
    obtain ⟨i, short, rfl, here⟩ := at_split split
    have all : ∀ i < 4, (recovery[i]?).all fun c => (reached strict (recovery.take i)).state = .closed →
        c.call = .recordFailure → strict.failureThreshold ≤ (streak (recovery.take i ++ [c])).length →
          ∀ t ∈ streak (recovery.take i ++ [c]), c.nowNs ≤ t + strict.windowNs := by decide +kernel
    have within := all i short
    rw [here, Option.all_some] at within
    exact of_decide_eq_true within
  timeout before c later split isOpen asks t last := by
    obtain ⟨i, short, rfl, here⟩ := at_split split
    have all : ∀ i < 4, (recovery[i]?).all fun c => (lastFailure (recovery.take i)).all fun t =>
        c.nowNs < t + strict.recoveryTimeout → c.nowNs < t + strict.recoveryTimeout % 2 ^ 64 := by decide +kernel
    have cut := all i short
    rw [here, Option.all_some, last, Option.all_some] at cut
    exact of_decide_eq_true cut

/-- The breaker opens with the second failure and is closed again at the end. -/
theorem recovery_correct :
    Correct strict recovery ∧ (reached strict (recovery.take 2)).state = .opened ∧
      (reached strict recovery).state = .closed :=
  ⟨(correct_iff (by decide) (by decide) (by simp [recovery]) (by decide +kernel)).2 recovery_meets, by decide +kernel,
    by decide +kernel⟩

end Apart

end CircuitBreakerV2

end ExecutionHandler
