import SignalEngine.RebalancerAlerts.Ledger
import SignalEngine.Lib.Effects

/-! # The delivery worker

One tick reads the alerts newer than the watermark into delivery rows, then hands
every unmarked row to the sender and marks it. The worker is a program over the
ledger and the sender; what they answer is up to the environment.
-/

open Text Interaction

namespace RebalancerAlerts

open RebalancerCore (Instant InstantText)

/-! ## The mail -/

def SUBJECT_PREFIX : String := "[Mendl Labs]"

structure Rendered where
  subject : String
  body : String
  deriving DecidableEq

/-- The footer of the codes that need a person. -/
def whatToDo (code : String) : Option String :=
  match trimmed code with
  | "ALERT_HALT" => some "What to do: the account is halted and will not trade again until a person resumes it. Check the broker account and the run record, then resume through the human endpoint only once the cause is understood."
  | "ALERT_STILL_HALTED" => some "What to do: the account is still halted; nothing runs until a person resumes it. If the halt was already investigated, resume it; otherwise investigate before resuming."
  | "ALERT_FLATTEN_INCOMPLETE" => some "What to do: the flatten did not verify flat. Open the broker account NOW, close any remaining positions by hand, and do not resume until the account verifies flat."
  | "ALERT_RUN_FAILED" => some "What to do: the run failed closed and traded nothing. Read the run record's outcome code; if it persists past the retry window, the decision is being missed and needs a person."
  | "ALERT_DECISION_NOT_ACTED" => some "What to do: a planned order was not carried out, so the decision stays pending and is planned again next run. Check the placed orders in the run record for a venue refusal or guard denial."
  | "ALERT_HEARTBEAT_FAILED" => some "What to do: the service could not reach its external monitor; the monitor will page as if the service were down. Check network egress from the service and the monitor URL."
  | "ACCOUNT_EXCLUDED_WITH_POSITIONS" => some "What to do: this account is no longer being managed, but its positions are being HELD, not sold: nothing has been liquidated and nothing will be. New orders are blocked and the old limits no longer run. Approve a new proposal for the account or sign off on the holdings; until then this alert repeats at 1, 7 and 30 days."
  | _ => none

def subject (severity : Severity) (code accountId : String) : String :=
  s!"{SUBJECT_PREFIX} {severity.asStr} {trimmed code} {trimmed accountId}"

def render [InstantText] (alert : PendingAlert) (severity : Severity) : Rendered :=
  let head := s!"Severity: {severity.asStr}\nCode:     {trimmed alert.code}\n" ++
    s!"Account:  {trimmed alert.accountId}\nRun:      {trimmed alert.runKey}\n" ++
    "At:       " ++ InstantText.rfc3339 alert.at' ++ s!"\n\n{trimmed alert.message}\n"
  let action := match whatToDo alert.code with
    | some action => s!"\n{action}\n"
    | none => ""
  let foot := "\n-- \nMendl Labs rebalancer. This alert is also recorded in the run record; " ++
    s!"de-duplication key: {trimmed alert.dedupeKey}\n"
  ⟨subject severity alert.code alert.accountId, head ++ action ++ foot⟩

structure OutboundEmail where
  to' : String
  subject : String
  body : String
  deriving DecidableEq

inductive SendError where
  | disabled
  | rejected (status : UInt16) (detail : String)
  | transport (detail : String)
  | malformed (detail : String)
  deriving DecidableEq

def SENDER_DISABLED_ERROR : String := "sender_disabled"

def MAX_ERROR_CHARS : Nat := 240

/-- The Unicode category `Cc`. -/
def isControl (c : Char) : Bool := c.toNat < 0x20 || (0x7f ≤ c.toNat && c.toNat ≤ 0x9f)

def bounded (s : String) : String :=
  let kept := s.toList.filter fun c => !isControl c
  if MAX_ERROR_CHARS < kept.length then String.ofList (kept.take MAX_ERROR_CHARS) ++ "..."
  else String.ofList kept

def SendError.ledgerText : SendError → String
  | disabled => bounded SENDER_DISABLED_ERROR
  | rejected status detail => bounded s!"provider_rejected:{status.toNat}:{detail}"
  | transport detail => bounded s!"transport:{detail}"
  | malformed detail => bounded s!"malformed_response:{detail}"

/-! ## The worker -/

def ALERTS_PER_TICK : Nat := 200
def SENDS_PER_TICK : Nat := 100

structure LedgerError where
  reason : String
  deriving DecidableEq

def LedgerError.display (e : LedgerError) : String := s!"ALERT_STORE_UNAVAILABLE: {e.reason}"

/-- What one tick did. -/
structure TickReport where
  alertsSeen : Nat
  deliveriesInserted : Nat
  deliveriesDeduped : Nat
  alertsWithoutChannel : Nat
  sent : Nat
  sendErrors : Nat
  failures : List String
  deriving DecidableEq

def TickReport.zero : TickReport := ⟨0, 0, 0, 0, 0, 0, []⟩

/-- The calls of the worker on its ledger and its sender. -/
inductive WorkOp where
  | alertsSince (since : Instant) (limit : Nat)
  | channels
  | insertIfAbsent (delivery : NewDelivery) (now : Instant)
  | undelivered (limit : Nat)
  | markSent (id providerMessageId : String) (at' : Instant)
  | markError (id error : String)
  /-- The sender sees the mail only; the row it is for is noted beside it. -/
  | send (id : String) (email : OutboundEmail)
  deriving DecidableEq

abbrev WorkOp.Ans : WorkOp → Type
  | alertsSince _ _ => Except LedgerError (List PendingAlert)
  | channels => Except LedgerError (List Channel)
  | insertIfAbsent _ _ => Except LedgerError Bool
  | undelivered _ => Except LedgerError (List PendingDelivery)
  | markSent _ _ _ => Except LedgerError Unit
  | markError _ _ => Except LedgerError Unit
  | send _ _ => Except SendError String

/-- What the worker keeps: its watermark, and the report of the tick. -/
structure Worker where
  watermark : Instant
  report : TickReport

abbrev WorkM := StateT Worker (Prog WorkOp WorkOp.Ans)

/-! ### The calls, typed -/

def alertsSince (since : Instant) (limit : Nat) : WorkM (Except LedgerError (List PendingAlert)) :=
  ask (WorkOp.alertsSince since limit)

def readChannels : WorkM (Except LedgerError (List Channel)) := ask WorkOp.channels

def insertIfAbsent (delivery : NewDelivery) (now : Instant) : WorkM (Except LedgerError Bool) :=
  ask (WorkOp.insertIfAbsent delivery now)

def undelivered (limit : Nat) : WorkM (Except LedgerError (List PendingDelivery)) :=
  ask (WorkOp.undelivered limit)

def markSent (id providerMessageId : String) (at' : Instant) : WorkM (Except LedgerError Unit) :=
  ask (WorkOp.markSent id providerMessageId at')

def markError (id error : String) : WorkM (Except LedgerError Unit) := ask (WorkOp.markError id error)

def send (id : String) (email : OutboundEmail) : WorkM (Except SendError String) := ask (WorkOp.send id email)

def note (f : TickReport → TickReport) : WorkM Unit :=
  modify fun w => { w with report := f w.report }

def tenantMatches (c : Channel) (alert : PendingAlert) : Bool :=
  match c.scope with
  | .platform => true
  | .tenant =>
      match c.tenantId, alert.tenantId with
      | some ct, some at' => eqIgnoreAsciiCase (trimmed ct) (trimmed at')
      | _, _ => false

/-- The channels an alert goes to. -/
def channelsFor (alert : PendingAlert) (channels : List Channel) : List Channel :=
  let severity := deliverySeverity alert.code alert.severity
  (channels.filter fun c => channelApplies c.scope severity).filter (tenantMatches · alert)

def deliveryTo (alert : PendingAlert) (severity : Severity) (rendered : Rendered) (c : Channel) :
    NewDelivery :=
  { channelId := c.id, scope := c.scope, tenantId := c.tenantId, severity := severity.asStr
    dedupeKey := alert.dedupeKey, subject := rendered.subject, body := rendered.body }

/-- A row for each channel; the first failure stops it. -/
def insertFor (alert : PendingAlert) (severity : Severity) (rendered : Rendered) (now : Instant) :
    List Channel → WorkM (Except LedgerError Unit)
  | [] => pure (.ok ())
  | c :: targets => do
      match ← insertIfAbsent (deliveryTo alert severity rendered c) now with
      | .error e => pure (.error e)
      | .ok true =>
          note fun r => { r with deliveriesInserted := r.deliveriesInserted + 1 }
          insertFor alert severity rendered now targets
      | .ok false =>
          note fun r => { r with deliveriesDeduped := r.deliveriesDeduped + 1 }
          insertFor alert severity rendered now targets

/-- The rows of one alert. -/
def ingestOne [InstantText] (channels : List Channel) (now : Instant) (alert : PendingAlert) :
    WorkM (Except LedgerError Unit) := do
  let severity := deliverySeverity alert.code alert.severity
  let targets := channelsFor alert channels
  note fun r => { r with
    alertsSeen := r.alertsSeen + 1
    alertsWithoutChannel := r.alertsWithoutChannel + if targets.isEmpty then 1 else 0 }
  insertFor alert severity (render alert severity) now targets

def newer (newest createdAt : Instant) : Instant := if newest < createdAt then createdAt else newest

/-- The alerts of a batch, and the newest time among them. -/
def ingestAll [InstantText] (channels : List Channel) (now : Instant) :
    Instant → List PendingAlert → WorkM (Except LedgerError Instant)
  | newest, [] => pure (.ok newest)
  | newest, alert :: alerts => do
      match ← ingestOne channels now alert with
      | .error e => pure (.error e)
      | .ok () => ingestAll channels now (newer newest alert.createdAt) alerts

/-- The watermark moves once the whole batch has its rows. -/
def ingest [InstantText] (now : Instant) : WorkM (Except LedgerError Unit) := do
  let since := (← get).watermark
  match ← alertsSince since ALERTS_PER_TICK with
  | .error e => pure (.error e)
  | .ok [] => pure (.ok ())
  | .ok alerts =>
      match ← readChannels with
      | .error e => pure (.error e)
      | .ok channels =>
          match ← ingestAll channels now since alerts with
          | .error e => pure (.error e)
          | .ok newest =>
              modify fun w => { w with watermark := newest }
              pure (.ok ())

/-- Set a mark, then count it. -/
def counted (mark : WorkM (Except LedgerError Unit)) (count : TickReport → TickReport) :
    WorkM (Except LedgerError Unit) := do
  match ← mark with
  | .error e => pure (.error e)
  | .ok () =>
      note count
      pure (.ok ())

/-- One row: its mark, or the failure to set it. -/
def sendOne (now : Instant) (d : PendingDelivery) : WorkM (Except LedgerError Unit) := do
  let sendError (r : TickReport) : TickReport := { r with sendErrors := r.sendErrors + 1 }
  if trimmed d.kind ≠ "email" then
    counted (markError d.id s!"unsupported_channel_kind:{trimmed d.kind}") sendError
  else
    match ← send d.id ⟨d.address, d.subject, d.body⟩ with
    | .ok id => counted (markSent d.id id now) fun r => { r with sent := r.sent + 1 }
    | .error e =>
        let text := match e with
          | .disabled => SENDER_DISABLED_ERROR
          | other => other.ledgerText
        counted (markError d.id text) sendError

def sendAll (now : Instant) : List PendingDelivery → WorkM (Except LedgerError Unit)
  | [] => pure (.ok ())
  | d :: ds => do
      match ← sendOne now d with
      | .error e => pure (.error e)
      | .ok () => sendAll now ds

def sendPending (now : Instant) : WorkM (Except LedgerError Unit) := do
  match ← undelivered SENDS_PER_TICK with
  | .error e => pure (.error e)
  | .ok ds => sendAll now ds

def failed (step : String) : Except LedgerError Unit → WorkM Unit
  | .ok () => pure ()
  | .error e => note fun r => { r with failures := r.failures ++ [s!"{step}: {e.display}"] }

/-- One tick: ingest, then send. -/
def tick [InstantText] (now : Instant) : WorkM Unit := do
  modify fun w => { w with report := .zero }
  failed "ingest" (← ingest now)
  failed "send" (← sendPending now)

/-! ## Against the in-memory ledger -/

def INJECTED_FAILURE : LedgerError := ⟨"injected failure"⟩

/-- The ledger, and the rows whose mail the sender accepted, in that order. -/
structure Desk where
  ledger : Ledger
  accepted : List String

namespace Desk

def empty : Desk := ⟨.empty, []⟩

/-- A ledger call that does not fail. -/
def answer (desk : Desk) : (op : WorkOp) → Except SendError String → op.Ans × Desk
  | .alertsSince since limit, _ => (.ok (desk.ledger.alertsSince since limit), desk)
  | .channels, _ => (.ok desk.ledger.channels, desk)
  | .insertIfAbsent delivery now, _ =>
      let (inserted, ledger) := desk.ledger.insertIfAbsent delivery now
      (.ok inserted, { desk with ledger })
  | .undelivered limit, _ => (.ok (desk.ledger.undelivered limit), desk)
  | .markSent id providerMessageId at', _ =>
      (.ok (), { desk with ledger := desk.ledger.markSent id providerMessageId at' })
  | .markError id error, _ => (.ok (), { desk with ledger := desk.ledger.markError id error })
  | .send id _, .ok messageId => (.ok messageId, { desk with accepted := desk.accepted ++ [id] })
  | .send _ _, .error e => (.error e, desk)

end Desk

/-- A ledger call that fails; the sender has failures of its own. -/
def WorkOp.refused : (op : WorkOp) → Option op.Ans
  | alertsSince _ _ => some (.error INJECTED_FAILURE)
  | channels => some (.error INJECTED_FAILURE)
  | insertIfAbsent _ _ => some (.error INJECTED_FAILURE)
  | undelivered _ => some (.error INJECTED_FAILURE)
  | markSent _ _ _ => some (.error INJECTED_FAILURE)
  | markError _ _ => some (.error INJECTED_FAILURE)
  | send _ _ => none

def WorkOp.isMarkSent : WorkOp → Bool
  | markSent _ _ _ => true
  | _ => false

/-- The time of a tick, which of its calls fail, and what the sender answers; calls
    are counted from the start of the tick. -/
structure TickInput where
  now : Instant
  fails : Nat → WorkOp → Bool
  sends : Nat → OutboundEmail → Except SendError String

structure Serving where
  desk : Desk
  made : Nat

def TickInput.sendResult (input : TickInput) (made : Nat) : WorkOp → Except SendError String
  | .send _ email => input.sends made email
  | _ => .error .disabled

def TickInput.reply (input : TickInput) (s : Serving) (op : WorkOp) : op.Ans × Serving :=
  match op.refused, input.fails s.made op with
  | some refused, true => (refused, ⟨s.desk, s.made + 1⟩)
  | _, _ =>
      let (answer, desk) := s.desk.answer op (input.sendResult s.made op)
      (answer, ⟨desk, s.made + 1⟩)

/-- The watermark went from `before` to `after` over these channels. -/
structure Passage where
  before : Instant
  after : Instant
  channels : List Channel

/-- A worker and its ledger; `start` is the watermark the worker was made with. -/
structure World where
  desk : Desk
  start : Instant
  watermark : Instant
  passed : List Passage

inductive Happening where
  | tick (input : TickInput)
  | addAlert (alert : PendingAlert)
  | addChannel (channel : Channel)
  /-- A new worker over the same ledger. -/
  | restart (watermark : Instant)

namespace World

def opened (watermark : Instant) : World := ⟨.empty, watermark, watermark, []⟩

def ticked [InstantText] (w : World) (input : TickInput) : World :=
  let prog := (tick input.now).run ⟨w.watermark, .zero⟩
  let watermark := (prog.resultOf input.reply ⟨w.desk, 0⟩).2.watermark
  { w with
    desk := (prog.stateOf input.reply ⟨w.desk, 0⟩).desk
    watermark
    passed := w.passed ++ [⟨w.watermark, watermark, w.desk.ledger.channels⟩] }

def step [InstantText] (w : World) : Happening → World
  | .tick input => w.ticked input
  | .addAlert alert => { w with desk := { w.desk with ledger := w.desk.ledger.addAlert alert } }
  | .addChannel channel => { w with desk := { w.desk with ledger := w.desk.ledger.addChannel channel } }
  | .restart watermark => { w with start := watermark, watermark, passed := [] }

end World

end RebalancerAlerts
