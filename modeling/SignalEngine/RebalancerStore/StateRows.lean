import SignalEngine.RebalancerStore.PgRunStore
import SignalEngine.RebalancerRisk.Store

/-! # Rows of the account states

What the Postgres state store keeps of an account state: its columns, the JSON of a
halt and of the resumes, and how a row is read back, with the check of a state that is
rebuilt.
-/

open BrokerAdapters Text Outcome

namespace RebalancerStore

open RebalancerCore (Instant InstantText)
open RebalancerRisk (NaiveDate AccountStatus HaltReason HaltRecord ResumeRecord AccountState AccountStateRecord)

/-! ## Texts of the small enumerations -/

section Texts

variable [DebugText]

def statusFromStr (s : String) : Except String AccountStatus :=
  match s with
  | "active" => .ok .active
  | "shrunk" => .ok .shrunk
  | "flattening" => .ok .flattening
  | "halted" => .ok .halted
  | other => .error s!"unknown account status {DebugText.quoted other}"

def haltReasons : List HaltReason := [.dailyLoss, .drawdownLadder, .reconciliation, .manual, .equityInvalid]

def haltReasonFromStr (s : String) : Except String HaltReason :=
  orError s!"unknown halt reason {DebugText.quoted s}" (haltReasons.find? fun r => r.code == s)

theorem statusFromStr_asStr (s : AccountStatus) : statusFromStr s.asStr = .ok s := by cases s <;> rfl

theorem haltReasonFromStr_code (r : HaltReason) : haltReasonFromStr r.code = .ok r := by cases r <;> rfl

/-! ## JSON columns -/

def parseDec (s : String) : Except String Dec :=
  match Dec.parse s with
  | .ok d => .ok d
  | .error e => .error s!"bad decimal {DebugText.quoted s}: {e.display}"

/-- A decimal of a JSON column; the text of the error is that of the state tables. -/
def stateDecFromJson (v : Value) : Except String Dec := do
  let s ← orError "expected a string decimal" v.asStr
  parseDec s

def optDecFromJson : Value → Except String (Option Dec)
  | .null => .ok none
  | v => some <$> stateDecFromJson v

variable [InstantReader]

def dtToJson (t : Instant) : Value := .string (InstantText.rfc3339 t)

def haltRecordToJson (h : HaltRecord) : Value :=
  .object [
    ("reason", .string h.reason.code),
    ("at", dtToJson h.at'),
    ("detail", .string h.detail),
    ("equity_at_halt", optDecToJson h.equityAtHalt),
    ("hwm_at_halt", optDecToJson h.hwmAtHalt),
    ("failed_flatten_attempts", .number h.failedFlattenAttempts)]

def haltRecordFromJson (v : Value) : Except String HaltRecord := do
  let reason ← haltReasonFromStr (← orError "halt.reason missing" (v.field "reason").asStr)
  let at' ← dtFromJson (v.field "at")
  let equityAtHalt ← optDecFromJson (v.field "equity_at_halt")
  let hwmAtHalt ← optDecFromJson (v.field "hwm_at_halt")
  return {
    reason
    at'
    detail := (v.field "detail").asStr.getD ""
    equityAtHalt
    hwmAtHalt
    failedFlattenAttempts := (v.field "failed_flatten_attempts").asU64.getD 0 % 2 ^ 32 }

def resumeRecordToJson (r : ResumeRecord) : Value :=
  .object [
    ("approver", .string r.approver),
    ("at", dtToJson r.at'),
    ("note", .string r.note),
    ("equity_at_resume", decToJson r.equityAtResume),
    ("hwm_before", optDecToJson r.hwmBefore),
    ("halt_reason", .string r.haltReason.code),
    ("halted_at", dtToJson r.haltedAt)]

def resumeRecordFromJson (v : Value) : Except String ResumeRecord := do
  let at' ← dtFromJson (v.field "at")
  let equityAtResume ← stateDecFromJson (v.field "equity_at_resume")
  let hwmBefore ← optDecFromJson (v.field "hwm_before")
  let haltReason ← haltReasonFromStr (← orError "resume.halt_reason missing" (v.field "halt_reason").asStr)
  let haltedAt ← dtFromJson (v.field "halted_at")
  return {
    approver := (v.field "approver").asStr.getD ""
    at'
    note := (v.field "note").asStr.getD ""
    equityAtResume
    hwmBefore
    haltReason
    haltedAt }

def resumesToJson (rs : List ResumeRecord) : Value := .array (rs.map resumeRecordToJson)

def resumesFromJson (v : Value) : Except String (List ResumeRecord) := do
  let items ← orError "expected a resumes array" v.asArray
  items.mapM resumeRecordFromJson

/-! ## The row -/

structure StateRow where
  tenant : Tenant
  accountId : String
  /-- A 64-bit column. -/
  version : Int
  status : String
  /-- The texts of numeric columns without a scale. -/
  riskScale : String
  /-- A 32-bit column. -/
  shrinkRung : Option Int
  hwm : Option String
  dayStartEquity : Option String
  tradingDay : Option NaiveDate
  lastEquity : Option String
  lastEquityAt : Option Instant
  halt : Option Value
  resumes : Value

def rowToState (r : StateRow) : Except String AccountState := do
  let status ← statusFromStr r.status
  let riskScale ← parseDec r.riskScale
  let hwm ← r.hwm.mapM parseDec
  let dayStartEquity ← r.dayStartEquity.mapM parseDec
  let lastEquity ← r.lastEquity.mapM parseDec
  let halt ← r.halt.mapM haltRecordFromJson
  let resumes ← resumesFromJson r.resumes
  AccountState.fromRecord {
    accountId := r.accountId
    version := (max r.version 0).toNat
    status
    riskScale
    shrinkRung := r.shrinkRung.map fun v => (v % 2 ^ 64).toNat
    hwm
    dayStartEquity
    tradingDay := r.tradingDay
    lastEquity
    lastEquityAt := r.lastEquityAt
    halt
    resumes }

def stateRow (tenant : Tenant) (version : Int) (s : AccountState) : StateRow where
  tenant
  accountId := s.accountId
  version
  status := s.status.asStr
  riskScale := s.riskScale.display
  shrinkRung := s.shrinkRung.map fun (v : Nat) => (v : Int).bmod (2 ^ 32)
  hwm := s.hwm.map Dec.display
  dayStartEquity := s.dayStartEquity.map Dec.display
  tradingDay := s.tradingDay
  lastEquity := s.lastEquity.map Dec.display
  lastEquityAt := s.lastEquityAt.map stored
  halt := s.halt.map haltRecordToJson
  resumes := resumesToJson s.resumes

/-! ## Reading back -/

structure ReadableHalt (h : HaltRecord) : Prop where
  equityAtHalt : ∀ d, h.equityAtHalt = some d → Readable d
  hwmAtHalt : ∀ d, h.hwmAtHalt = some d → Readable d
  failedFlattenAttempts : h.failedFlattenAttempts < 2 ^ 32

structure ReadableResume (r : ResumeRecord) : Prop where
  equityAtResume : Readable r.equityAtResume
  hwmBefore : ∀ d, r.hwmBefore = some d → Readable d

structure StorableState (s : AccountState) : Prop where
  riskScale : Readable s.riskScale
  shrinkRung : ∀ v, s.shrinkRung = some v → v < 2 ^ 31
  hwm : ∀ d, s.hwm = some d → Readable d
  dayStartEquity : ∀ d, s.dayStartEquity = some d → Readable d
  lastEquity : ∀ d, s.lastEquity = some d → Readable d
  lastEquityAt : ∀ t, s.lastEquityAt = some t → stored t = t
  halt : ∀ h, s.halt = some h → ReadableHalt h
  resumes : ∀ r ∈ s.resumes, ReadableResume r

omit [InstantReader] in
theorem parseDec_display {d : Dec} (readable : Readable d) : parseDec d.display = .ok d := by
  rw [parseDec, Dec.parse_display d readable]

omit [InstantReader] in
theorem stateDecFromJson_toJson {d : Dec} (readable : Readable d) : stateDecFromJson (decToJson d) = .ok d :=
  parseDec_display readable

omit [InstantReader] in
theorem optDecFromJson_toJson {d : Option Dec} (readable : ∀ x, d = some x → Readable x) :
    optDecFromJson (optDecToJson d) = .ok d := by
  cases d with
  | none => rfl
  | some x =>
      change some <$> parseDec x.display = _
      rw [parseDec_display (readable x rfl)]
      rfl

theorem dtFromJson_toJson (t : Instant) : dtFromJson (dtToJson t) = .ok t := by
  simp only [dtFromJson, dtToJson, Value.asStr, orError, ok_bind, InstantReader.parse_rfc3339]
  rfl

omit [DebugText] [InstantReader] in
theorem mapM_map_roundTrip {α β : Type} {write : α → β} {read : β → Except String α} {o : Option α}
    (back : ∀ a, o = some a → read (write a) = .ok a) : (o.map write).mapM read = .ok o := by
  cases o with
  | none => rfl
  | some a =>
      change (do return some (← read (write a))) = Except.ok (some a)
      rw [back a rfl]
      rfl

theorem haltRecord_roundTrip {h : HaltRecord} (readable : ReadableHalt h) :
    haltRecordFromJson (haltRecordToJson h) = .ok h := by
  have reason : (haltRecordToJson h).field "reason" = .string h.reason.code := rfl
  have at' : (haltRecordToJson h).field "at" = dtToJson h.at' := rfl
  have detail : (haltRecordToJson h).field "detail" = .string h.detail := rfl
  have equity : (haltRecordToJson h).field "equity_at_halt" = optDecToJson h.equityAtHalt := rfl
  have hwm : (haltRecordToJson h).field "hwm_at_halt" = optDecToJson h.hwmAtHalt := rfl
  have attempts : (haltRecordToJson h).field "failed_flatten_attempts" = .number h.failedFlattenAttempts := rfl
  have small := readable.failedFlattenAttempts
  have counted : (Value.number h.failedFlattenAttempts).asU64.getD 0 % 2 ^ 32 = h.failedFlattenAttempts := by
    rw [Value.asU64, if_pos (by omega), Option.getD_some]
    omega
  simp only [haltRecordFromJson, reason, at', detail, equity, hwm, attempts, counted, Value.asStr_string, orError, ok_bind,
    haltReasonFromStr_code, dtFromJson_toJson, optDecFromJson_toJson readable.equityAtHalt,
    optDecFromJson_toJson readable.hwmAtHalt, Option.getD_some]
  rfl

theorem resumeRecord_roundTrip {r : ResumeRecord} (readable : ReadableResume r) :
    resumeRecordFromJson (resumeRecordToJson r) = .ok r := by
  have approver : (resumeRecordToJson r).field "approver" = .string r.approver := rfl
  have at' : (resumeRecordToJson r).field "at" = dtToJson r.at' := rfl
  have note : (resumeRecordToJson r).field "note" = .string r.note := rfl
  have equity : (resumeRecordToJson r).field "equity_at_resume" = decToJson r.equityAtResume := rfl
  have hwm : (resumeRecordToJson r).field "hwm_before" = optDecToJson r.hwmBefore := rfl
  have reason : (resumeRecordToJson r).field "halt_reason" = .string r.haltReason.code := rfl
  have halted : (resumeRecordToJson r).field "halted_at" = dtToJson r.haltedAt := rfl
  simp only [resumeRecordFromJson, approver, at', note, equity, hwm, reason, halted, Value.asStr_string, orError, ok_bind,
    haltReasonFromStr_code, dtFromJson_toJson, stateDecFromJson_toJson readable.equityAtResume,
    optDecFromJson_toJson readable.hwmBefore, Option.getD_some]
  rfl

theorem resumes_roundTrip {rs : List ResumeRecord} (readable : ∀ r ∈ rs, ReadableResume r) :
    resumesFromJson (resumesToJson rs) = .ok rs := by
  simp only [resumesFromJson, resumesToJson, Value.asArray, orError, ok_bind]
  rw [mapM_eq_ok, List.forall₂_map_left_iff, List.forall₂_same]
  exact fun r member => resumeRecord_roundTrip (readable r member)

theorem rowToState_stateRow {s : AccountState} (storable : StorableState s) (tenant : Tenant) (version : Nat) :
    rowToState (stateRow tenant version s) = AccountState.fromRecord { s.toRecord with version } := by
  have rung : (s.shrinkRung.map fun (v : Nat) => (v : Int).bmod (2 ^ 32)).map (fun v => (v % 2 ^ 64).toNat) =
      s.shrinkRung := by
    cases known : s.shrinkRung with
    | none => rfl
    | some v =>
        have small := storable.shrinkRung v known
        have same : (v : Int).bmod (2 ^ 32) = v := by
          rw [Int.bmod_eq_of_le] <;> omega
        simp only [Option.map_some, same, Option.some.injEq]
        omega
  have instant : s.lastEquityAt.map stored = s.lastEquityAt := by
    cases known : s.lastEquityAt with
    | none => rfl
    | some t => rw [Option.map_some, storable.lastEquityAt t known]
  have counted : (max (version : Int) 0).toNat = version := by omega
  simp only [rowToState, stateRow, statusFromStr_asStr, ok_bind, parseDec_display storable.riskScale, rung, instant, counted,
    mapM_map_roundTrip fun d h => parseDec_display (storable.hwm d h),
    mapM_map_roundTrip fun d h => parseDec_display (storable.dayStartEquity d h),
    mapM_map_roundTrip fun d h => parseDec_display (storable.lastEquity d h),
    mapM_map_roundTrip fun h known => haltRecord_roundTrip (storable.halt h known),
    resumes_roundTrip storable.resumes]
  rfl

end Texts

end RebalancerStore
