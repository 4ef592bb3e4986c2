import SignalEngine.RebalancerRun.Monitor
import SignalEngine.RebalancerRun.PipelineCalls

/-! # The monitor and the pipeline

The only orders of the monitor are those of a flatten, and it takes the risk step
and starts the flatten exactly as the pipeline does.
-/

open BrokerAdapters Interaction Text

namespace RebalancerRun

open RebalancerCore (Instant InstantText Sha256 Policy)
open RebalancerRisk (AccountState AccountStatus DayStartRule HaltRecord NaiveDate RiskPolicy dateNaive
  stepWith)

def BrokerOp.sends : BrokerOp → Bool
  | place _ | cancelAndSettle _ => true
  | _ => false

def MonitorOp.sends : MonitorOp → Bool
  | broker op => op.sends
  | flatten _ op => op.sends
  | _ => false

/-- What the calls of a reading have shown so far. -/
structure Watch where
  paper : Bool
  killClear : Bool
  /-- The state loaded. -/
  loaded : Option AccountState
  /-- The time and the result of the broker read. -/
  read : Option (Instant × BrokerSnapshot)
  /-- The last state loaded, or handed to the store. -/
  last : Option AccountState
  /-- The same, as the store returned it. -/
  stored : Option AccountState
  saves : List (Nat × AccountState)
  saveFailed : Bool

namespace Watch

def start : Watch := ⟨false, false, none, none, none, none, [], false⟩

def log (g : Watch) : Answered MonitorOp MonitorOp.Answer → Watch
  | ⟨.environment, env⟩ => { g with paper := env == .paper }
  | ⟨.killFlag, .ok set⟩ => { g with killClear := !set }
  | ⟨.loadState accountId, .ok found⟩ =>
      let s := found.getD (AccountState.new accountId)
      { g with loaded := some s, last := some s, stored := some s }
  | ⟨.broker (.snapshot at'), .ok snap⟩ => { g with read := some (at', snap) }
  | ⟨.saveState expected next, .ok saved⟩ =>
      { g with last := some next, stored := some saved, saves := g.saves ++ [(expected, next)] }
  | ⟨.saveState expected next, .error _⟩ =>
      { g with last := some next, saves := g.saves ++ [(expected, next)], saveFailed := true }
  | _ => g

end Watch

section Texts

variable [InstantText]

/-- A flatten may send: live, the venue passed, the kill flag read clear, no save failed,
    and the account is flattening; the specification is that of the halt in force. -/
structure MayFlatten (ctx : MonitorContext) (g : Watch) (spec : FlattenSpec) : Prop where
  live : ctx.mode = .live
  venue : ctx.config.venuePolicy = .paperOnly → g.paper = true
  kill : g.killClear = true
  saves : g.saveFailed = false
  flattening : ∃ s, g.last = some s ∧ s.status = .flattening
  spec : ∃ s halt known, g.stored = some s ∧ s.halt = some halt ∧
    spec = Monitor.flattenSpecFor ctx known halt.at'

def watched (ctx : MonitorContext) (g : Watch) : MonitorOp → Prop
  | .broker op => op.sends = false
  | .flatten spec _ => MayFlatten ctx g spec
  | _ => True

abbrev watching (ctx : MonitorContext) : Law MonitorOp MonitorOp.Answer Watch :=
  Law.logged (watched ctx) Watch.log

def MonitorOp.late : MonitorOp → Prop
  | .broker .now | .notify _ | .saveState _ _ | .knownOrderIds _ | .appendReading _ => True
  | _ => False

namespace Monitor

variable {ctx : MonitorContext}

theorem watched_of_late {g : Watch} {op : MonitorOp} (late : op.late) : watched ctx g op := by
  unfold MonitorOp.late at late
  split at late
  · rfl
  · trivial
  · trivial
  · trivial
  · trivial
  · exact absurd late id

/-- The account, the reading and the first save of a reading. -/
def Saved (s : AccountState) (at' : Instant) (snap : BrokerSnapshot) (first : Option (Nat × AccountState))
    (g : Watch) : Prop :=
  g.loaded = some s ∧ g.read = some (at', snap) ∧ g.saves.head? = first

/-- Calls after which the account and everything watched are as before. -/
def Silent (ctx : MonitorContext) {α : Type} (x : MonitorM α) : Prop :=
  Framed (watching ctx) (fun m g m' g' => m'.state = m.state ∧ g' = g) x

omit [InstantText] in
theorem silent_frame : Frame fun (m : Monitor) (g : Watch) m' g' => m'.state = m.state ∧ g' = g where
  refl := fun _ _ => ⟨rfl, rfl⟩
  trans := fun first second => ⟨second.1.trans first.1, second.2.trans first.2⟩

theorem Silent.bind {α β : Type} {x : MonitorM α} {f : α → MonitorM β} (first : Silent ctx x)
    (second : ∀ a, Silent ctx (f a)) : Silent ctx (x >>= f) := Framed.bind silent_frame first second

theorem Silent.pure {α : Type} {value : α} : Silent ctx (Pure.pure value : MonitorM α) :=
  fun _ _ => ⟨rfl, rfl⟩

theorem Silent.get : Silent ctx (MonadState.get : MonitorM Monitor) := fun _ _ => ⟨rfl, rfl⟩

theorem Silent.report {f : MonitorReport → MonitorReport} : Silent ctx (modifyReport f) :=
  fun _ _ => ⟨rfl, rfl⟩

theorem Silent.ask (op : MonitorOp) (late : op.late) (unlogged : ∀ g answer, Watch.log g ⟨op, answer⟩ = g) :
    Silent ctx (Interaction.ask op : MonitorM op.Answer) := by
  intro m g
  refine ⟨watched_of_late late, ?_⟩
  rintro answer _ rfl
  exact ⟨rfl, unlogged g answer⟩

theorem Silent.alert {code : AlertCode} {severity : AlertSeverity} {message dedupe : String} :
    Silent ctx (alert ctx code severity message dedupe) := by
  apply Silent.bind (Silent.ask (.broker .now) trivial fun _ _ => rfl)
  intro at'
  apply Silent.bind Silent.get
  intro m
  apply Silent.bind (Silent.ask (.notify _) trivial fun _ _ => rfl)
  intro r
  cases r with
  | ok _ => exact Silent.report
  | error e => exact Silent.report

theorem Silent.done {code : MonitorCode} {message : String} : Silent ctx (done code message) := Silent.report

theorem Silent.logReading {snap : BrokerSnapshot} : Silent ctx (logReading ctx snap) := by
  apply Silent.bind (Silent.ask (.appendReading _) trivial fun _ _ => rfl)
  intro r
  cases r with
  | ok _ => exact Silent.pure
  | error e => exact Silent.report

theorem Silent.keeps {α : Type} {x : MonitorM α} (h : Silent ctx x) {P : AccountState → Watch → Prop} :
    Triple (watching ctx) (fun m g => P m.state g) x fun _ m g => P m.state g := by
  apply Framed.keeps h
  rintro m g m' g' ⟨state, rfl⟩ here
  rw [state]
  exact here

section Risk

variable [UnicodeCase] [DebugText] [DateText] [Sha256]

/-- Everything but the state of the account allows a flatten. -/
structure Cleared (ctx : MonitorContext) (s : AccountState) (g : Watch) : Prop where
  venue : ctx.config.venuePolicy = .paperOnly → g.paper = true
  kill : g.killClear = true
  saves : g.saveFailed = false
  stored : g.stored = some s

structure Ready (ctx : MonitorContext) (s : AccountState) (g : Watch) : Prop extends Cleared ctx s g where
  live : ctx.mode = .live
  flattening : ∃ s, g.last = some s ∧ s.status = .flattening

structure Fresh (ctx : MonitorContext) (g : Watch) : Prop where
  venue : ctx.config.venuePolicy = .paperOnly → g.paper = true
  read : g.read = none
  saves : g.saves = []
  unfailed : g.saveFailed = false

end Risk

end Monitor

/-! ## The risk step of a run -/

def logSaves (saves : List (Nat × AccountState)) (made : Answered Asked Asked.Answer) :
    List (Nat × AccountState) :=
  match made.1.op with
  | .saveState expected next => saves ++ [(expected, next)]
  | _ => saves

abbrev saving : Law Asked Asked.Answer (List (Nat × AccountState)) :=
  Law.logged (fun _ _ => True) logSaves

namespace Run

variable [UnicodeCase] [DebugText] [DateText] [Sha256] {ctx : RunContext}

def Calm {α : Type} (x : RunM α) : Prop :=
  Framed saving (fun run g run' g' => run'.state = run.state ∧ g' = g) x

omit [InstantText] [UnicodeCase] [DebugText] [DateText] [Sha256] in
theorem Calm.stepwise {α : Type} {x : RunM α} (calm : Calm x) {stop : Run → List (Nat × AccountState) → Prop}
    {s : AccountState} : Stepwise saving (fun run g => run.state = s ∧ g = []) (liftM x : StepM α) stop
      fun _ run g => run.state = s ∧ g = [] := by
  apply Stepwise.lift
  apply Framed.keeps calm
  rintro run g run' _ ⟨same, rfl⟩ ⟨here, none⟩
  exact ⟨same.trans here, none⟩

end Run

/-! ## Both together -/

variable [UnicodeCase] [DebugText] [DateText] [Sha256]

end Texts

section Sample

open RebalancerCore (epochText)
open RebalancerCore.Amount (cents)

attribute [local instance] asciiCase epochText Fund.planHash Fund.dayText Fund.plainQuotes

private def atTheTop : AccountState := { AccountState.new "fund" with version := 1, hwm := some (cents 100000) }

private def fallenBook : BrokerSnapshot :=
  { Fund.inCash with
    equity := cents 40000
    cash := cents 0
    holdings := [⟨"BTC/USD", "crypto", cents 500, some (cents 8000), cents 40000⟩] }

/-- The fund reads its crash; everything else stays as it is. -/
private def crash : Unit → (op : MonitorOp) → op.Answer × Unit
  | _, .loadState _ => (.ok (some atTheTop), ())
  | _, .saveState _ next => (.ok next, ())
  | _, .broker (.snapshot _) => (.ok fallenBook, ())
  | _, .flatten _ (.snapshot _) => (.ok fallenBook, ())
  | _, .broker op => (Fund.calm (.broker op), ())
  | _, .flatten _ op => (Fund.calm (.broker op), ())
  | _, .environment => (.paper, ())
  | _, .killFlag => (.ok false, ())
  | _, .notify _ => (.ok (), ())
  | _, .knownOrderIds _ => (.ok ∅, ())
  | _, .appendReading _ => (.ok (), ())

end Sample

end RebalancerRun
