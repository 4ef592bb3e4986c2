import SignalEngine.RebalancerStore.StateRows
import Mathlib.Logic.Function.Basic

/-! # The Postgres state store

One row an account. A save reads the row, checks the version and the transition, and
then writes with a statement that names the version it has read; a statement that
changed no row lost a race. The lock of one process is left out: other processes do not
take it.
-/

open BrokerAdapters Text Outcome Interaction

namespace RebalancerStore

open RebalancerRisk (AccountStatus AccountState StoreError)

/-- `rebalancer_account_state`, by its primary key. -/
abbrev StateTable := String → Option StateRow

inductive StateSql where
  | select (accountId : String)
  | insert (row : StateRow)
  | update (row : StateRow) (version : Int)

/-- What a statement returns: the row it read, or the number of rows it changed. -/
def StateSql.Ans : StateSql → Type
  | select _ => Except String (Option StateRow)
  | insert _ | update .. => Except String Nat

namespace StateTable

/-- `INSERT … ON CONFLICT (account_id) DO NOTHING`. -/
def insert (w : StateTable) (row : StateRow) : Nat × StateTable :=
  match w row.accountId with
  | some _ => (0, w)
  | none => (1, Function.update w row.accountId (some row))

/-- `UPDATE … SET version = version + 1 … WHERE account_id = … AND version = …`; the
    column has 64 bits. -/
def update (w : StateTable) (row : StateRow) (version : Int) : Except String Nat × StateTable :=
  match w row.accountId with
  | none => (.ok 0, w)
  | some old =>
      if old.version ≠ version then (.ok 0, w)
      else if 2 ^ 63 ≤ old.version + 1 then (.error "bigint out of range", w)
      else (.ok 1, Function.update w row.accountId (some { row with version := old.version + 1 }))

def effect (w : StateTable) : (s : StateSql) → s.Ans → StateTable → Prop
  | .select accountId, found, w' => found = .ok (w accountId) ∧ w' = w
  | .insert row, n, w' => n = .ok (w.insert row).1 ∧ w' = (w.insert row).2
  | .update row version, n, w' => (n, w') = w.update row version

/-- A statement that may fail, before or after it took effect. -/
def faultyEffect (w : StateTable) (s : StateSql) (answer : s.Ans) (w' : StateTable) : Prop :=
  w.effect s answer w' ∨
    match s, answer with
    | .select _, .error _ => w' = w
    | .insert row, .error _ => w' = w ∨ w' = (w.insert row).2
    | .update row version, .error _ => w' = w ∨ w' = (w.update row version).2
    | _, _ => False

end StateTable

/-! ## Calls -/

inductive StateCall where
  | load (accountId : String)
  | save (expected : Nat) (new : AccountState)

def StateCall.Result : StateCall → Type
  | load _ => Option AccountState
  | save .. => AccountState

abbrev StateCall.Answer (c : StateCall) : Type := Except StoreError c.Result

abbrev StateStatements (α : Type) := Prog StateSql StateSql.Ans (Except StoreError α)

namespace PgStateStore

variable [DebugText] [InstantReader] (tenants : String → Tenant)

def readState : Except String (Option StateRow) → Except String (Option AccountState)
  | .error e => .error s!"load: {e}"
  | .ok row => row.mapM rowToState

def load (accountId : String) : StateStatements (Option AccountState) :=
  .call (.select accountId) fun (found : Except String (Option StateRow)) =>
    .done <| match readState found with
      | .ok state => .ok state
      | .error e => .error (.unavailable e)

/-- Someone else won the race between the read and the write. -/
def saveLost (expected : Nat) (new : AccountState) : StateStatements AccountState :=
  .call (.select new.accountId) fun (found : Except String (Option StateRow)) =>
    .done <| match readState found with
      | .ok state => .error (.versionConflict expected ((state.map AccountState.version).getD 0))
      | .error e => .error (.unavailable e)

/-- The number of rows that were changed is the outcome of the compare-and-swap. -/
def saveWritten (expected : Nat) (new : AccountState) (what : String) :
    Except String Nat → StateStatements AccountState
  | .error e => .done (.error (.unavailable s!"{what}: {e}"))
  | .ok affected =>
      if affected ≠ 1 then saveLost expected new
      else .done <| match AccountState.fromRecord { new.toRecord with version := expected + 1 } with
        | .ok stored => .ok stored
        | .error e => .error (.illegalTransition e)

/-- The write of a save, from the version that was read. -/
def saveWrite (expected : Nat) (new : AccountState) : StateStatements AccountState :=
  if expected = 0 then
    .call (.insert (stateRow (tenants new.accountId) 1 new)) fun (n : Except String Nat) =>
      saveWritten expected new "insert" n
  else
    .call (.update (stateRow (tenants new.accountId) 0 new) expected) fun (n : Except String Nat) =>
      saveWritten expected new "update" n

/-- The check of a save, against the state that was read. -/
def saveRead (expected : Nat) (new : AccountState) (old : Option AccountState) : StateStatements AccountState :=
  let actual := (old.map AccountState.version).getD 0
  if actual ≠ expected then .done (.error (.versionConflict expected actual))
  else
    match old.filter fun o => !AccountState.transitionAllowed o new with
    | some o =>
        .done (.error (.illegalTransition
          s!"{o.status.asStr} to {new.status.asStr} without a recorded human resume"))
    | none => saveWrite tenants expected new

def save (expected : Nat) (new : AccountState) : StateStatements AccountState :=
  .call (.select new.accountId) fun (found : Except String (Option StateRow)) =>
    match readState found with
    | .error e => .done (.error (.unavailable e))
    | .ok old => saveRead tenants expected new old

def body : (c : StateCall) → Prog StateSql StateSql.Ans c.Answer
  | .load accountId => load accountId
  | .save expected new => save tenants expected new

def service : Linearize.Service StateSql StateSql.Ans StateTable StateCall.Answer :=
  ⟨StateTable.effect, body tenants⟩

/-- The same calls, where every statement may fail. -/
def faultyService : Linearize.Service StateSql StateSql.Ans StateTable StateCall.Answer :=
  ⟨StateTable.faultyEffect, body tenants⟩

end PgStateStore

end RebalancerStore
