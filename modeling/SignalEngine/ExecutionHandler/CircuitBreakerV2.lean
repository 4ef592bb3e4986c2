import SignalEngine.Lib.Runs
import Mathlib.Algebra.Ring.Nat

/-! # Circuit breaker

A breaker that opens after failures, lets requests through again after a while, and
closes after successes. Its operations are taken one after the other; the times are
nanoseconds since it was created.
-/

namespace ExecutionHandler

namespace CircuitBreakerV2

inductive CircuitState where
  | closed
  | opened
  | halfOpen
  deriving DecidableEq

structure CircuitBreakerConfig where
  failureThreshold : Nat
  /-- In nanoseconds. -/
  recoveryTimeout : Nat
  successThreshold : Nat
  halfOpenRequestPct : Nat
  failureWindowSecs : Nat

structure AtomicCircuitBreaker where
  state : CircuitState
  failureCount : Nat
  lastFailureNs : Nat
  halfOpenSuccesses : Nat
  halfOpenRequestCounter : Nat
  consecutiveSuccesses : Nat
  config : CircuitBreakerConfig

/-- `fetch_add(1)` on 32 bits, as the value it leaves. -/
def fetchAdd (n : Nat) : Nat := (n + 1) % 2 ^ 32

namespace AtomicCircuitBreaker

def new (config : CircuitBreakerConfig) : AtomicCircuitBreaker := ⟨.closed, 0, 0, 0, 0, 0, config⟩

def transitionToOpen (b : AtomicCircuitBreaker) : AtomicCircuitBreaker :=
  { b with state := .opened, halfOpenSuccesses := 0 }

def transitionToClosed (b : AtomicCircuitBreaker) : AtomicCircuitBreaker :=
  { b with state := .closed, failureCount := 0, halfOpenSuccesses := 0, halfOpenRequestCounter := 0 }

def tryTransitionToHalfOpen (b : AtomicCircuitBreaker) (nowNs : Nat) : AtomicCircuitBreaker × Bool :=
  -- the timeout is cut to 64 bits
  let recoveryNs := b.config.recoveryTimeout % 2 ^ 64
  if nowNs - b.lastFailureNs ≥ recoveryNs then
    ({ b with state := .halfOpen, halfOpenSuccesses := 0, halfOpenRequestCounter := 0 }, true)
  else (b, false)

def shouldAllowHalfOpenRequest (b : AtomicCircuitBreaker) : AtomicCircuitBreaker × Bool :=
  if b.config.halfOpenRequestPct ≥ 100 then (b, true)
  else
    ({ b with halfOpenRequestCounter := fetchAdd b.halfOpenRequestCounter },
      b.halfOpenRequestCounter % 100 < b.config.halfOpenRequestPct)

def canExecute (b : AtomicCircuitBreaker) (nowNs : Nat) : AtomicCircuitBreaker × Bool :=
  match b.state with
  | .closed => (b, true)
  | .opened => b.tryTransitionToHalfOpen nowNs
  | .halfOpen => b.shouldAllowHalfOpenRequest

def recordSuccess (b : AtomicCircuitBreaker) : AtomicCircuitBreaker :=
  match b.state with
  | .closed => { b with failureCount := 0, consecutiveSuccesses := fetchAdd b.consecutiveSuccesses }
  | .halfOpen =>
      let counted := { b with halfOpenSuccesses := fetchAdd b.halfOpenSuccesses }
      if counted.halfOpenSuccesses ≥ b.config.successThreshold then counted.transitionToClosed else counted
  | .opened => b

def recordFailure (b : AtomicCircuitBreaker) (nowNs : Nat) : AtomicCircuitBreaker :=
  let noted := { b with lastFailureNs := nowNs, consecutiveSuccesses := 0 }
  match b.state with
  | .closed =>
      let counted := { noted with failureCount := fetchAdd b.failureCount }
      if counted.failureCount ≥ b.config.failureThreshold then counted.transitionToOpen else counted
  | .halfOpen => noted.transitionToOpen
  | .opened => { noted with failureCount := fetchAdd b.failureCount }

def reset (b : AtomicCircuitBreaker) : AtomicCircuitBreaker :=
  { b.transitionToClosed with failureCount := 0, lastFailureNs := 0 }

end AtomicCircuitBreaker

/-! ## Runs -/

inductive BreakerCall where
  | canExecute
  | recordSuccess
  | recordFailure
  | reset
  deriving DecidableEq

structure TimedCall where
  nowNs : Nat
  call : BreakerCall

namespace AtomicCircuitBreaker

/-- A call and, for a request, whether it is admitted. -/
def step (b : AtomicCircuitBreaker) (c : TimedCall) : AtomicCircuitBreaker × Option Bool :=
  match c.call with
  | .canExecute => ((b.canExecute c.nowNs).1, some (b.canExecute c.nowNs).2)
  | .recordSuccess => (b.recordSuccess, none)
  | .recordFailure => (b.recordFailure c.nowNs, none)
  | .reset => (b.reset, none)

def after (b : AtomicCircuitBreaker) (c : TimedCall) : AtomicCircuitBreaker := (b.step c).1

def answer (b : AtomicCircuitBreaker) (c : TimedCall) : Option Bool := (b.step c).2

def run : AtomicCircuitBreaker → List TimedCall → AtomicCircuitBreaker := Runs.run after

def bumped (b : AtomicCircuitBreaker) (c : TimedCall) : Option Nat :=
  match c.call, b.state with
  | .canExecute, .halfOpen => some b.halfOpenRequestCounter
  | .recordSuccess, .halfOpen => some b.halfOpenSuccesses
  | .recordFailure, .closed | .recordFailure, .opened => some b.failureCount
  | _, _ => none

/-- The counters stay below the limit of their type. -/
def Counts (b : AtomicCircuitBreaker) (c : TimedCall) : Prop := ∀ n ∈ b.bumped c, n + 1 < 2 ^ 32

instance (b : AtomicCircuitBreaker) (c : TimedCall) : Decidable (b.Counts c) :=
  inferInstanceAs (Decidable (∀ n ∈ b.bumped c, n + 1 < 2 ^ 32))

end AtomicCircuitBreaker

end CircuitBreakerV2

end ExecutionHandler
