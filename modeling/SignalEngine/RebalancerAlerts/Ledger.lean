import SignalEngine.RebalancerRun.Record

/-! # The delivery ledger

Alerts, the channels they may go to, and one delivery row for each channel and
de-duplication key. A row is marked once: as sent, or with an error.
-/

open Text

namespace RebalancerAlerts

open RebalancerCore (Instant InstantText)

inductive ChannelScope where
  | tenant
  | platform
  deriving DecidableEq

inductive Severity where
  | info
  | warning
  | critical
  deriving DecidableEq

namespace Severity

def asStr : Severity → String
  | info => "info"
  | warning => "warning"
  | critical => "critical"

def parse (s : String) : Option Severity :=
  if eqIgnoreAsciiCase (trimmed s) "info" then some info
  else if eqIgnoreAsciiCase (trimmed s) "warning" then some warning
  else if eqIgnoreAsciiCase (trimmed s) "critical" then some critical
  else none

/-- The grade of a code whose stored severity is unusable. -/
def fallbackForCode (code : String) : Severity :=
  if trimmed code ∈ ["ALERT_HALT", "ALERT_FLATTEN_INCOMPLETE", "ALERT_RUN_FAILED",
      "ACCOUNT_EXCLUDED_WITH_POSITIONS"] then critical
  else warning

end Severity

def deliverySeverity (code storedSeverity : String) : Severity :=
  (Severity.parse storedSeverity).getD (Severity.fallbackForCode code)

/-- Platform channels receive warnings and critical alerts only. -/
def channelApplies : ChannelScope → Severity → Bool
  | .tenant, _ => true
  | .platform, severity => severity != .info

structure PendingAlert where
  id : String
  /-- Absent for an alert about the platform itself. -/
  tenantId : Option String
  accountId : String
  code : String
  severity : String
  message : String
  runKey : String
  dedupeKey : String
  at' : Instant
  createdAt : Instant
  deriving DecidableEq

structure Channel where
  id : String
  scope : ChannelScope
  tenantId : Option String
  kind : String
  address : String
  deriving DecidableEq

structure NewDelivery where
  channelId : String
  scope : ChannelScope
  tenantId : Option String
  severity : String
  dedupeKey : String
  subject : String
  body : String
  deriving DecidableEq

structure PendingDelivery where
  id : String
  channelId : String
  kind : String
  address : String
  subject : String
  body : String
  deriving DecidableEq

structure StoredDelivery where
  id : String
  delivery : NewDelivery
  createdAt : Instant
  sentAt : Option Instant
  providerMessageId : Option String
  error : Option String
  deriving DecidableEq

def StoredDelivery.unmarked (d : StoredDelivery) : Bool := d.sentAt.isNone && d.error.isNone

def NewDelivery.key (d : NewDelivery) : String × String := (d.channelId, d.dedupeKey)

/-- Keys are ordered by channel, then by de-duplication key. -/
abbrev keyOrder : String × String → String × String → Ordering :=
  compareLex (compareOn Prod.fst) (compareOn Prod.snd)

structure Ledger where
  alerts : List PendingAlert
  channels : List Channel
  deliveries : List StoredDelivery
  /-- The position of the row of each key. -/
  byKey : Std.ExtTreeMap (String × String) Nat keyOrder
  nextId : Nat

namespace Ledger

def empty : Ledger := ⟨[], [], [], ∅, 0⟩

def addAlert (l : Ledger) (a : PendingAlert) : Ledger := { l with alerts := l.alerts ++ [a] }

def addChannel (l : Ledger) (c : Channel) : Ledger := { l with channels := l.channels ++ [c] }

/-- By time, then by id. -/
def readingOrder (a b : PendingAlert) : Prop :=
  (compare a.createdAt b.createdAt).then (compare a.id b.id) ≠ .gt

instance : DecidableRel readingOrder := fun _ _ => inferInstanceAs (Decidable (_ ≠ _))

/-- The alerts created strictly after `since`, oldest first. -/
def newerThan (l : Ledger) (since : Instant) : List PendingAlert :=
  (l.alerts.filter fun a => since < a.createdAt).insertionSort readingOrder

def alertsSince (l : Ledger) (since : Instant) (limit : Nat) : List PendingAlert :=
  (l.newerThan since).take limit

/-- A row of its own for the key, unless there is one. -/
def insertIfAbsent (l : Ledger) (delivery : NewDelivery) (now : Instant) : Bool × Ledger :=
  if l.byKey.contains delivery.key then (false, l)
  else
    let nextId := l.nextId + 1
    (true, { l with
      nextId
      deliveries := l.deliveries ++ [⟨s!"d{nextId}", delivery, now, none, none, none⟩]
      byKey := l.byKey.insert delivery.key l.deliveries.length })

/-- A row with the address of its channel. -/
def pendingOf (channels : List Channel) (d : StoredDelivery) : Option PendingDelivery :=
  (channels.find? fun c => c.id == d.delivery.channelId).map fun c =>
    ⟨d.id, c.id, c.kind, c.address, d.delivery.subject, d.delivery.body⟩

def undelivered (l : Ledger) (limit : Nat) : List PendingDelivery :=
  ((l.deliveries.filter StoredDelivery.unmarked).filterMap (pendingOf l.channels)).take limit

/-- Change the first row with this id that is not marked yet. -/
def markFirst (id : String) (mark : StoredDelivery → StoredDelivery) :
    List StoredDelivery → List StoredDelivery
  | [] => []
  | d :: ds =>
      if d.id == id && d.unmarked then mark d :: ds else d :: markFirst id mark ds

def markSent (l : Ledger) (id providerMessageId : String) (at' : Instant) : Ledger :=
  let mark (d : StoredDelivery) : StoredDelivery :=
    { d with sentAt := some at', providerMessageId := some providerMessageId }
  { l with deliveries := markFirst id mark l.deliveries }

def markError (l : Ledger) (id error : String) : Ledger :=
  let mark (d : StoredDelivery) : StoredDelivery := { d with error := some error }
  { l with deliveries := markFirst id mark l.deliveries }

end Ledger

end RebalancerAlerts
