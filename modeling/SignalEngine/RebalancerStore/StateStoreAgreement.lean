import SignalEngine.RebalancerStore.PgStateStore
import SignalEngine.RebalancerStore.RunStoreAgreement

/-! # The two state stores

The statements of the Postgres store, interleaved in any way, against the in-memory store
that serves one call at a time; and what no interleaving does, also when statements fail.
-/

open BrokerAdapters Text Outcome Linearize

namespace RebalancerStore

open RebalancerRisk (AccountStatus AccountState StateStore StoreError ResumeRecord sameResumes sameAmount Follows)
open RebalancerRisk.AccountState (transitionAllowed Coherent)

/-! ## How rows change -/

/-- A save replaced the row by the next version, a state that may follow the one the row
    reads back as. -/
structure Succeeds [DebugText] [InstantReader] (r r' : StateRow) : Prop where
  version : r'.version = r.version + 1
  follows : ∃ o new tenant, rowToState r = .ok o ∧ StorableState new ∧ transitionAllowed o new = true ∧
    r' = stateRow tenant r'.version new

def SavedRows (w : StateTable) : Prop := ∀ id r, w id = some r → 1 ≤ r.version ∧ r.accountId = id

section Rows

variable [DebugText] [InstantReader]

/-- The rows that are there stay, or are replaced by what may follow. -/
structure Moves (w w' : StateTable) : Prop where
  saved : SavedRows w'
  rows : ∀ id r, w id = some r → ∃ r', w' id = some r' ∧ (r' = r ∨ Succeeds r r')

theorem Moves.refl {w : StateTable} (saved : SavedRows w) : Moves w w := ⟨saved, fun _ r found => ⟨r, found, .inl rfl⟩⟩

/-- As long as the row has the version that was read, the new state may follow. -/
structure Permits (w : StateTable) (expected : Nat) (new : AccountState) : Prop where
  reached : expected ≠ 0 → ∃ r, w new.accountId = some r ∧ (expected : Int) ≤ r.version
  allowed : ∀ r, w new.accountId = some r → r.version = expected →
    ∃ o, rowToState r = .ok o ∧ transitionAllowed o new = true

def Overtaken (w : StateTable) (expected : Nat) (accountId : String) : Prop :=
  ∃ r, w accountId = some r ∧ (expected : Int) < r.version

variable {w w' : StateTable} {expected : Nat} {new : AccountState}

theorem Permits.kept (permits : Permits w expected new) (moves : Moves w w') : Permits w' expected new where
  reached later := by
    obtain ⟨r, found, le⟩ := permits.reached later
    obtain ⟨r', found', same | next⟩ := moves.rows _ r found
    · exact ⟨r', found', same ▸ le⟩
    · have := next.version
      exact ⟨r', found', by omega⟩
  allowed r' found' version := by
    by_cases first : expected = 0
    · have := (moves.saved _ r' found').1
      omega
    · obtain ⟨r, found, le⟩ := permits.reached first
      obtain ⟨r'', found'', same | next⟩ := moves.rows _ r found
      · obtain rfl := Option.some.inj (found'.symm.trans found'')
        exact permits.allowed r' (same ▸ found) version
      · obtain rfl := Option.some.inj (found'.symm.trans found'')
        have := next.version
        omega

theorem Overtaken.kept {accountId : String} (overtaken : Overtaken w expected accountId) (moves : Moves w w') :
    Overtaken w' expected accountId := by
  obtain ⟨r, found, lt⟩ := overtaken
  obtain ⟨r', found', same | next⟩ := moves.rows _ r found
  · exact ⟨r', found', same ▸ lt⟩
  · have := next.version
    exact ⟨r', found', by omega⟩

/-! ## The two writes -/

omit [DebugText] [InstantReader] in
theorem insert_cases (w : StateTable) (row : StateRow) :
    (∃ old, w row.accountId = some old ∧ w.insert row = (0, w)) ∨
      w row.accountId = none ∧ w.insert row = (1, Function.update w row.accountId (some row)) := by
  cases found : w row.accountId with
  | some old => exact .inl ⟨old, rfl, by rw [StateTable.insert, found]⟩
  | none => exact .inr ⟨rfl, by rw [StateTable.insert, found]⟩

theorem written_moves (saved : SavedRows w) (row : StateRow) (version : 1 ≤ row.version)
    (follows : ∀ old, w row.accountId = some old → Succeeds old row) :
    Moves w (Function.update w row.accountId (some row)) := by
  refine ⟨fun id r found => ?_, fun id r found => ?_⟩
  · by_cases here : id = row.accountId
    · rw [here, Function.update_self, Option.some.injEq] at found
      subst found
      exact ⟨version, here.symm⟩
    · rw [Function.update_of_ne here] at found
      exact saved id r found
  · by_cases here : id = row.accountId
    · rw [here] at found
      exact ⟨row, by rw [here, Function.update_self], .inr (follows r found)⟩
    · exact ⟨r, by rw [Function.update_of_ne here, found], .inl rfl⟩

theorem insert_moves (saved : SavedRows w) {row : StateRow} (first : row.version = 1) : Moves w (w.insert row).2 := by
  obtain ⟨old, found, same⟩ | ⟨absent, written⟩ := insert_cases w row
  · rw [same]
    exact Moves.refl saved
  · rw [written]
    refine written_moves saved row first.ge fun old found => ?_
    rw [absent] at found
    cases found

omit [DebugText] [InstantReader] in
/-- An update loses, or meets the end of the versions, or writes the next version. -/
theorem update_cases (w : StateTable) (row : StateRow) (version : Int) :
    (w.update row version = (.ok 0, w) ∧ ∀ old, w row.accountId = some old → old.version ≠ version) ∨
      (∃ e, w.update row version = (.error e, w) ∧ 2 ^ 63 ≤ version + 1) ∨
      ∃ old, w row.accountId = some old ∧ old.version = version ∧
        w.update row version =
          (.ok 1, Function.update w row.accountId (some { row with version := version + 1 })) := by
  unfold StateTable.update
  cases w row.accountId with
  | none => exact .inl ⟨rfl, by simp⟩
  | some old =>
      by_cases same : old.version = version
      · subst same
        by_cases ends : 2 ^ 63 ≤ old.version + 1
        · refine .inr (.inl ⟨"bigint out of range", ?_, ends⟩)
          simp only [ne_eq, not_true_eq_false, if_false, if_pos ends]
        · refine .inr (.inr ⟨old, rfl, rfl, ?_⟩)
          simp only [ne_eq, not_true_eq_false, if_false, if_neg ends]
      · refine .inl ⟨?_, ?_⟩
        · simp only [ne_eq, same, not_false_eq_true, if_true]
        · rintro _ ⟨⟩
          exact same

theorem update_moves (saved : SavedRows w) (permits : Permits w expected new) (storable : StorableState new)
    (tenant : Tenant) : Moves w (w.update (stateRow tenant 0 new) expected).2 := by
  obtain ⟨lost, -⟩ | ⟨e, failed, -⟩ | ⟨old, found, version, written⟩ := update_cases w (stateRow tenant 0 new) expected
  · rw [lost]
    exact Moves.refl saved
  · rw [failed]
    exact Moves.refl saved
  · rw [written]
    obtain ⟨o, reads, allowed⟩ := permits.allowed old found version
    refine written_moves saved { stateRow tenant 0 new with version := expected + 1 } (by simp) fun old' found' => ?_
    obtain rfl := Option.some.inj (found.symm.trans found')
    exact ⟨by rw [version], o, new, tenant, reads, storable, allowed, rfl⟩

omit [DebugText] [InstantReader] in
theorem fromRecord_toRecord {r : RebalancerRisk.AccountStateRecord} {s : AccountState}
    (built : AccountState.fromRecord r = .ok s) : s.toRecord = r := by
  unfold AccountState.fromRecord at built
  split at built
  · cases built
  split at built
  · cases built
  split at built
  · cases built
  · cases built
    rfl

theorem rowToState_version {r : StateRow} {s : AccountState} (reads : rowToState r = .ok s) :
    s.version = (max r.version 0).toNat := by
  simp only [rowToState, bind_eq_ok] at reads
  obtain ⟨_, -, _, -, _, -, _, -, _, -, _, -, _, -, built⟩ := reads
  exact congrArg RebalancerRisk.AccountStateRecord.version (fromRecord_toRecord built)

end Rows

/-! ## Calls under way -/

abbrev StateTask := Task StateSql StateSql.Ans StateCall.Answer

section Underway

variable [DebugText] [InstantReader] (tenants : String → Tenant)

inductive StateUnderway (w : StateTable) : StateTask → Prop
  | load (accountId : String) : StateUnderway w ⟨.load accountId, PgStateStore.load accountId⟩
  | save (expected : Nat) (new : AccountState) (storable : StorableState new) :
      StateUnderway w ⟨.save expected new, PgStateStore.save tenants expected new⟩
  | saveWrite {expected : Nat} {new : AccountState} (storable : StorableState new) (permits : Permits w expected new) :
      StateUnderway w ⟨.save expected new, PgStateStore.saveWrite tenants expected new⟩
  | saveLost {expected : Nat} {new : AccountState} (overtaken : Overtaken w expected new.accountId) :
      StateUnderway w ⟨.save expected new, PgStateStore.saveLost expected new⟩

variable {tenants} {w w' : StateTable}

theorem StateUnderway.kept {t : StateTask} (underway : StateUnderway tenants w t) (moves : Moves w w') :
    StateUnderway tenants w' t := by
  cases underway with
  | load accountId => exact .load accountId
  | save expected new storable => exact .save expected new storable
  | saveWrite storable permits => exact .saveWrite storable (permits.kept moves)
  | saveLost overtaken => exact .saveLost (overtaken.kept moves)

/-! ## Halts, in every interleaving -/

def savesStorable : Guard StateSql StateSql.Ans StateTable StateCall.Answer where
  call
    | .load _ => True
    | .save _ new => StorableState new
  statement _ _ _ := True

structure Grown (w w' : StateTable) : Prop where
  saved : SavedRows w'
  rows : ∀ id r, w id = some r → ∃ r', w' id = some r' ∧ Relation.ReflTransGen Succeeds r r'

theorem Grown.moves {w'' : StateTable} (grown : Grown w w') (moves : Moves w' w'') : Grown w w'' := by
  refine ⟨moves.saved, fun id r found => ?_⟩
  obtain ⟨r', found', chain⟩ := grown.rows id r found
  obtain ⟨r'', found'', rfl | next⟩ := moves.rows id r' found'
  · exact ⟨r'', found'', chain⟩
  · exact ⟨r'', found'', chain.tail next⟩

/-- A row that was read, or none. -/
theorem read_cases {row : Option StateRow} {old : Option AccountState} (read : row.mapM rowToState = .ok old) :
    row = none ∧ old = none ∨ ∃ r o, row = some r ∧ rowToState r = .ok o ∧ old = some o := by
  cases row with
  | none => exact .inl ⟨rfl, (Except.ok.inj read).symm⟩
  | some r =>
      change (do return some (← rowToState r)) = Except.ok old at read
      obtain ⟨o, reads, same⟩ := bind_eq_ok.1 read
      exact .inr ⟨r, o, rfl, reads, (Except.ok.inj same).symm⟩

variable {base : StateTable} {expected : Nat} {new : AccountState}

theorem permits_of_read (saved : SavedRows w) {old : Option AccountState}
    (read : (w new.accountId).mapM rowToState = .ok old) (version : (old.map AccountState.version).getD 0 = expected)
    (free : old.filter (fun o => !transitionAllowed o new) = none) : Permits w expected new := by
  obtain ⟨absent, rfl⟩ | ⟨r, o, found, reads, rfl⟩ := read_cases read
  · refine ⟨fun later => absurd version.symm later, fun r found _ => ?_⟩
    rw [absent] at found
    cases found
  · have same : (expected : Int) = r.version := by
      have := (saved _ r found).1
      have counted := rowToState_version reads
      rw [Option.map_some, Option.getD_some] at version
      omega
    refine ⟨fun _ => ⟨r, found, same.le⟩, fun r' found' _ => ?_⟩
    obtain rfl := Option.some.inj (found.symm.trans found')
    exact ⟨o, reads, by simpa using free⟩

theorem saveRead_waits (saved : SavedRows w) (storable : StorableState new) {old : Option AccountState}
    (read : (w new.accountId).mapM rowToState = .ok old) :
    Waits (StateUnderway tenants) w (.save expected new) (PgStateStore.saveRead tenants expected new old) := by
  unfold PgStateStore.saveRead
  dsimp only
  split
  · exact trivial
  next version =>
    split
    · exact trivial
    next free => exact Waits.of_pending (.saveWrite storable (permits_of_read saved read (not_not.1 version) free))

theorem saveWritten_waits {what : String} {n : Except String Nat}
    (lost : n = .ok 0 → Overtaken w expected new.accountId) (one : ∀ k, n = .ok k → k = 0 ∨ k = 1) :
    Waits (StateUnderway tenants) w (.save expected new) (PgStateStore.saveWritten expected new what n) := by
  cases n with
  | error e => exact trivial
  | ok k =>
      obtain rfl | rfl := one k rfl
      · exact Waits.of_pending (.saveLost (lost rfl))
      · exact trivial

omit [DebugText] [InstantReader] in
theorem overtaken_of_insert (saved : SavedRows w) (first : expected = 0) {old : StateRow}
    (found : w new.accountId = some old) : Overtaken w expected new.accountId := by
  have := (saved _ old found).1
  exact ⟨old, found, by omega⟩

theorem overtaken_of_update (permits : Permits w expected new) (later : expected ≠ 0)
    (lost : ∀ old, w new.accountId = some old → old.version ≠ expected) :
    Overtaken w expected new.accountId := by
  obtain ⟨r, found, le⟩ := permits.reached later
  exact ⟨r, found, lt_of_le_of_ne le (lost r found).symm⟩

omit [DebugText] [InstantReader] in
theorem select_effect {accountId : String} {found : Except String (Option StateRow)}
    (effect : w.faultyEffect (.select accountId) found w') :
    w' = w ∧ (found = .ok (w accountId) ∨ ∃ e, found = .error e) := by
  cases found with
  | ok row =>
      obtain ⟨same, rfl⟩ | impossible := effect
      · exact ⟨rfl, .inl same⟩
      · exact impossible.elim
  | error e =>
      obtain ⟨impossible, -⟩ | same := effect
      · cases impossible
      · exact ⟨same, .inr ⟨e, rfl⟩⟩

omit [DebugText] [InstantReader] in
theorem insert_effect {row : StateRow} {n : Except String Nat} (effect : w.faultyEffect (.insert row) n w') :
    (w' = w ∨ w' = (w.insert row).2) ∧ ∀ k, n = .ok k → k = (w.insert row).1 ∧ w' = (w.insert row).2 := by
  cases n with
  | ok k =>
      obtain ⟨same, written⟩ | impossible := effect
      · refine ⟨.inr written, fun k' here => ?_⟩
        obtain rfl := Except.ok.inj here
        exact ⟨Except.ok.inj same, written⟩
      · exact impossible.elim
  | error e =>
      obtain ⟨impossible, -⟩ | either := effect
      · cases impossible
      · exact ⟨either, fun k impossible => by cases impossible⟩

omit [DebugText] [InstantReader] in
theorem update_effect {row : StateRow} {version : Int} {n : Except String Nat}
    (effect : w.faultyEffect (.update row version) n w') :
    (w' = w ∨ w' = (w.update row version).2) ∧
      ∀ k, n = .ok k → (w.update row version).1 = .ok k ∧ w' = (w.update row version).2 := by
  cases n with
  | ok k =>
      obtain same | impossible := effect
      · obtain ⟨same, written⟩ := Prod.ext_iff.1 same
        refine ⟨.inr written, fun k' here => ?_⟩
        obtain rfl := Except.ok.inj here
        exact ⟨same.symm, written⟩
      · exact impossible.elim
  | error e =>
      obtain same | either := effect
      · exact ⟨.inr (Prod.ext_iff.1 same).2, fun k impossible => by cases impossible⟩
      · exact ⟨either, fun k impossible => by cases impossible⟩

theorem insert_safe (here : Grown base w) :
    Safe (PgStateStore.faultyService tenants) (Grown base) (StateUnderway tenants) w
      ⟨.save 0 new, .call (.insert (stateRow (tenants new.accountId) 1 new)) fun (n : Except String Nat) =>
        PgStateStore.saveWritten 0 new "insert" n⟩ := by
  refine fun (n : Except String Nat) w' effect => ?_
  obtain ⟨either, answered⟩ := insert_effect effect
  have moves : Moves w w' := by
    obtain rfl | rfl := either
    · exact Moves.refl here.saved
    · exact insert_moves here.saved rfl
  refine ⟨here.moves moves, saveWritten_waits (fun lost => ?_) (fun k same => ?_), fun t known => known.kept moves⟩
  · obtain ⟨k, -⟩ := answered 0 lost
    obtain ⟨old, found, same⟩ | ⟨-, written⟩ := insert_cases w (stateRow (tenants new.accountId) 1 new)
    · exact (overtaken_of_insert here.saved rfl found).kept moves
    · rw [written] at k
      cases k
  · obtain ⟨rfl, -⟩ := answered k same
    obtain ⟨old, -, same⟩ | ⟨-, written⟩ := insert_cases w (stateRow (tenants new.accountId) 1 new)
    · exact .inl (congrArg Prod.fst same)
    · exact .inr (congrArg Prod.fst written)

theorem update_safe (here : Grown base w) (storable : StorableState new) (permits : Permits w expected new)
    (later : expected ≠ 0) :
    Safe (PgStateStore.faultyService tenants) (Grown base) (StateUnderway tenants) w
      ⟨.save expected new, .call (.update (stateRow (tenants new.accountId) 0 new) expected) fun (n : Except String Nat) =>
        PgStateStore.saveWritten expected new "update" n⟩ := by
  refine fun (n : Except String Nat) w' effect => ?_
  obtain ⟨either, answered⟩ := update_effect effect
  have moves : Moves w w' := by
    obtain rfl | rfl := either
    · exact Moves.refl here.saved
    · exact update_moves here.saved permits storable _
  refine ⟨here.moves moves, saveWritten_waits (fun lost => ?_) (fun k same => ?_), fun t known => known.kept moves⟩
  · obtain ⟨zero, -⟩ := answered 0 lost
    obtain ⟨-, gone⟩ | ⟨e, failed, -⟩ | ⟨old, -, -, written⟩ :=
      update_cases w (stateRow (tenants new.accountId) 0 new) expected
    · exact (overtaken_of_update permits later gone).kept moves
    · rw [failed] at zero
      cases zero
    · rw [written] at zero
      cases zero
  · obtain ⟨count, -⟩ := answered k same
    obtain ⟨lost, -⟩ | ⟨e, failed, -⟩ | ⟨old, -, -, written⟩ :=
      update_cases w (stateRow (tenants new.accountId) 0 new) expected
    · rw [lost] at count
      exact .inl (Except.ok.inj count).symm
    · rw [failed] at count
      cases count
    · rw [written] at count
      exact .inr (Except.ok.inj count).symm

theorem save_safe (here : Grown base w) (storable : StorableState new) :
    Safe (PgStateStore.faultyService tenants) (Grown base) (StateUnderway tenants) w
      ⟨.save expected new, PgStateStore.save tenants expected new⟩ := by
  refine fun (found : Except String (Option StateRow)) w' effect => ?_
  obtain ⟨rfl, rfl | ⟨e, rfl⟩⟩ := select_effect effect
  · refine ⟨here, ?_, fun t known => known⟩
    cases read : (w' new.accountId).mapM rowToState with
    | error e =>
        simp only [PgStateStore.readState, read]
        exact trivial
    | ok old =>
        simp only [PgStateStore.readState, read]
        exact saveRead_waits here.saved storable read
  · exact ⟨here, trivial, fun t known => known⟩

theorem halt_keeps (base : StateTable) :
    Keeps (PgStateStore.faultyService tenants) savesStorable (Grown base) (StateUnderway tenants) where
  start := by
    intro w c here allowed
    cases c with
    | load accountId => exact .load accountId
    | save expected new => exact .save expected new allowed
  statement := by
    intro w t others here known _
    cases known with
    | load accountId =>
        refine fun (found : Except String (Option StateRow)) w' effect => ?_
        obtain ⟨rfl, -⟩ := select_effect effect
        exact ⟨here, trivial, fun t known => known⟩
    | save expected new storable => exact save_safe here storable
    | @saveWrite expected new storable permits =>
        unfold PgStateStore.saveWrite
        split
        next first =>
          subst first
          exact insert_safe here
        next later => exact update_safe here storable permits later
    | saveLost overtaken =>
        refine fun (found : Except String (Option StateRow)) w' effect => ?_
        obtain ⟨rfl, -⟩ := select_effect effect
        exact ⟨here, trivial, fun t known => known⟩

/-! ## What a chain of rows says -/

end Underway

/-- The second list continues the first; decimals are compared by value. -/
def Extends (before after : List ResumeRecord) : Prop :=
  ∃ kept added, after = kept ++ added ∧ sameResumes before kept = true

/-- The later state continues the resumes of the earlier one, and a halt was left only
    with a resume more. -/
structure Continues (s s' : AccountState) : Prop where
  version : s.version ≤ s'.version
  resumes : Extends s.resumes s'.resumes
  resumed : s.status.isHalt = true → s'.status.mayAddRisk = true → s.resumes.length < s'.resumes.length

theorem sameAmount_trans {a b c : Option Dec} (first : sameAmount a b = true) (second : sameAmount b c = true) :
    sameAmount a c = true := by
  cases a <;> cases b <;> cases c <;> simp_all [sameAmount, Dec.eq_iff]

theorem same_trans {a b c : ResumeRecord} (first : a.same b = true) (second : b.same c = true) : a.same c = true := by
  simp only [ResumeRecord.same, Bool.and_eq_true, beq_iff_eq, Dec.eq_iff] at first second ⊢
  obtain ⟨⟨⟨⟨⟨⟨approver, at'⟩, note⟩, equity⟩, hwm⟩, reason⟩, halted⟩ := first
  obtain ⟨⟨⟨⟨⟨⟨approver', at''⟩, note'⟩, equity'⟩, hwm'⟩, reason'⟩, halted'⟩ := second
  exact ⟨⟨⟨⟨⟨⟨approver.trans approver', at'.trans at''⟩, note.trans note'⟩, equity.trans equity'⟩,
    sameAmount_trans hwm hwm'⟩, reason.trans reason'⟩, halted.trans halted'⟩

theorem sameResumes_length {a b : List ResumeRecord} (same : sameResumes a b = true) : a.length = b.length := by
  induction a generalizing b with
  | nil =>
      cases b with
      | nil => rfl
      | cons y b => cases same
  | cons x a ih =>
      cases b with
      | nil => cases same
      | cons y b =>
          rw [sameResumes, Bool.and_eq_true] at same
          rw [List.length_cons, List.length_cons, ih same.2]

theorem sameResumes_trans {a b c : List ResumeRecord} (first : sameResumes a b = true) (second : sameResumes b c = true) :
    sameResumes a c = true := by
  induction a generalizing b c with
  | nil =>
      cases b with
      | nil => exact second
      | cons y b => cases first
  | cons x a ih =>
      cases b with
      | nil => cases first
      | cons y b =>
          cases c with
          | nil => cases second
          | cons z c =>
              rw [sameResumes, Bool.and_eq_true] at first second ⊢
              exact ⟨same_trans first.1 second.1, ih first.2 second.2⟩

theorem sameResumes_split {a b c : List ResumeRecord} (same : sameResumes (a ++ b) c = true) : Extends a c := by
  induction a generalizing c with
  | nil => exact ⟨[], c, rfl, rfl⟩
  | cons x a ih =>
      cases c with
      | nil => cases same
      | cons y c =>
          rw [List.cons_append, sameResumes, Bool.and_eq_true] at same
          obtain ⟨kept, added, rfl, rest⟩ := ih same.2
          exact ⟨y :: kept, added, rfl, by simp [sameResumes, same.1, rest]⟩

namespace Extends

variable {a b c : List ResumeRecord}

theorem refl (a : List ResumeRecord) : Extends a a := ⟨a, [], by simp, RebalancerRisk.sameResumes_refl a⟩

theorem length_le (extends' : Extends a b) : a.length ≤ b.length := by
  obtain ⟨kept, added, rfl, same⟩ := extends'
  rw [List.length_append, sameResumes_length same]
  omega

theorem trans (first : Extends a b) (second : Extends b c) : Extends a c := by
  obtain ⟨kept, added, rfl, same⟩ := first
  obtain ⟨kept', added', rfl, same'⟩ := second
  obtain ⟨kept'', added'', rfl, same''⟩ := sameResumes_split same'
  exact ⟨kept'', added'' ++ added', by simp, sameResumes_trans same same''⟩

end Extends

namespace Continues

variable {a b c : AccountState}

theorem refl (s : AccountState) : Continues s s := by
  refine ⟨le_rfl, Extends.refl _, fun halted running => ?_⟩
  cases status : s.status <;> simp_all [AccountStatus.isHalt, AccountStatus.mayAddRisk]

theorem trans (first : Continues a b) (second : Continues b c) : Continues a c := by
  refine ⟨first.version.trans second.version, first.resumes.trans second.resumes, fun halted running => ?_⟩
  have more := first.resumes.length_le
  have more' := second.resumes.length_le
  by_cases middle : b.status.isHalt = true
  · have := second.resumed middle running
    omega
  · have open' : b.status.mayAddRisk = true := by
      cases status : b.status <;> simp_all [AccountStatus.isHalt, AccountStatus.mayAddRisk]
    have := first.resumed halted open'
    omega

end Continues

section Chains

variable [DebugText] [InstantReader]

theorem Succeeds.continues {r r' : StateRow} {s s' : AccountState} (next : Succeeds r r') (saved : 1 ≤ r.version)
    (reads : rowToState r = .ok s) (reads' : rowToState r' = .ok s') : Continues s s' := by
  obtain ⟨version, o, new, tenant, readsOld, storable, allowed, written⟩ := next
  obtain rfl := Except.ok.inj (reads.symm.trans readsOld)
  have counted := rowToState_version reads
  have counted' := rowToState_version reads'
  have back : s'.toRecord = { new.toRecord with version := r'.version.toNat } := by
    have whole : r'.version = (r'.version.toNat : Int) := by omega
    rw [written, whole, rowToState_stateRow storable] at reads'
    exact fromRecord_toRecord reads'
  have status : s'.status = new.status := congrArg RebalancerRisk.AccountStateRecord.status back
  have resumes : s'.resumes = new.resumes := congrArg RebalancerRisk.AccountStateRecord.resumes back
  obtain ⟨⟨kept, added, appended, same⟩, resumed⟩ := Follows.of_allowed allowed
  refine ⟨by omega, ⟨kept, added, resumes.trans appended, same⟩, fun halted running => ?_⟩
  rw [resumes, resumed halted (status ▸ running)]
  omega

theorem chain_continues {r r' : StateRow} {s s' : AccountState} (chain : Relation.ReflTransGen Succeeds r r')
    (saved : 1 ≤ r.version) (reads : rowToState r = .ok s) (reads' : rowToState r' = .ok s') :
    Continues s s' ∧ (s'.version = s.version → r' = r) := by
  induction chain using Relation.ReflTransGen.head_induction_on generalizing s with
  | refl =>
      obtain rfl := Except.ok.inj (reads.symm.trans reads')
      exact ⟨Continues.refl s, fun _ => rfl⟩
  | @head r middle next chain ih =>
      have version := next.version
      -- a row that was replaced had been read by the save that replaced it
      obtain ⟨m, readsMiddle⟩ : ∃ m, rowToState middle = .ok m := by
        rcases Relation.ReflTransGen.cases_head chain with rfl | ⟨after, follows, -⟩
        · exact ⟨s', reads'⟩
        · obtain ⟨o, -, -, readsO, -⟩ := follows.follows
          exact ⟨o, readsO⟩
      have step := next.continues saved reads readsMiddle
      have rest := (ih (by omega) readsMiddle).1
      have counted := rowToState_version reads
      have counted' := rowToState_version readsMiddle
      have later := rest.version
      exact ⟨step.trans rest, fun same => by omega⟩

end Chains

section Underway

variable [DebugText] [InstantReader] (tenants : String → Tenant)

/-- However the saves of any number of processes interleave and fail: a row stays, its
    versions go up, no version is written twice, and an account that was halted may add
    risk again only with a resume more on top of the resumes it had. -/
theorem halt_ends_by_resume {p p' : Pool StateSql StateSql.Ans StateTable StateCall.Answer}
    (reached : Reaches (PgStateStore.faultyService tenants) savesStorable (fun _ => none) p)
    (later : Relation.ReflTransGen (Step (PgStateStore.faultyService tenants) savesStorable) p p')
    {accountId : String} {r : StateRow} {s : AccountState} (row : p.world accountId = some r)
    (reads : rowToState r = .ok s) :
    ∃ r', p'.world accountId = some r' ∧ ∀ s', rowToState r' = .ok s' →
      Continues s s' ∧ (s'.version = s.version → r' = r) := by
  have here : p.Known (Grown fun _ => none) (StateUnderway tenants) := by
    refine (halt_keeps _).steps ⟨⟨?_, ?_⟩, by simp⟩ reached <;> simp [SavedRows]
  have fresh : Grown p.world p.world := ⟨here.1.saved, fun id r found => ⟨r, found, .refl⟩⟩
  have there := (halt_keeps p.world).steps ⟨fresh, here.2⟩ later
  obtain ⟨r', found, chain⟩ := there.1.rows accountId r row
  exact ⟨r', found, fun s' reads' => chain_continues chain (here.1.saved _ r row).1 reads reads'⟩

end Underway

/-! ## The same answers -/

def serveState (store : StateStore) : (c : StateCall) → StateStore × c.Answer
  | .load accountId => store.load accountId
  | .save expected new => store.save expected new

section Agreement

variable [DebugText] [InstantReader] (tenants : String → Tenant)

/-- The calls that save states a store can rebuild from its columns, as long as the
    versions fit 64 bits. -/
def savesCoherent : Guard StateSql StateSql.Ans StateTable StateCall.Answer where
  call
    | .load _ => True
    | .save _ new => StorableState new ∧ Coherent new
  statement _ _ t := ∀ row version next, t.2 = .call (.update row version) next → version + 1 < 2 ^ 63

inductive StateShown : Option StateRow → Option AccountState → Prop
  | absent : StateShown none none
  | held {r : StateRow} {s : AccountState} (reads : rowToState r = .ok s) : StateShown (some r) (some s)

structure SameStates (w : StateTable) (store : StateStore) : Prop where
  calm : store.failNext = 0
  saved : SavedRows w
  rows : ∀ id, StateShown (w id) store.states[id]?

def StatePending (w : StateTable) (t : StateTask) : Prop :=
  (savesCoherent.call t.1 : Prop) ∧ StateUnderway tenants w t

/-- The statement, whatever it answers, leaves the two stores in step. -/
abbrev StateInStep (w : StateTable) (store : StateStore) (others : List StateTask) (t : StateTask) : Prop :=
  Proceeds (PgStateStore.service tenants) serveState (fun _ => Eq) SameStates (StatePending tenants) w store others t

abbrev StateAnswers (w : StateTable) (store : StateStore) (c : StateCall)
    (rest : Interaction.Prog StateSql StateSql.Ans c.Answer) : Prop :=
  Settles serveState (fun _ => Eq) SameStates (StatePending tenants) w store c rest

variable {tenants} {w : StateTable} {store : StateStore} {expected : Nat} {new : AccountState} {others : List StateTask}

theorem SameStates.read (same : SameStates w store) (id : String) : (w id).mapM rowToState = .ok store.states[id]? := by
  have shown := same.rows id
  generalize w id = row, store.states[id]? = state at shown
  cases shown with
  | absent => rfl
  | @held r s reads =>
      change (do return some (← rowToState r)) = Except.ok (some s)
      rw [reads]
      rfl

theorem stateAnswers_done {c : StateCall} {r : c.Answer} {store' : StateStore} (served : serveState store c = (store', r))
    (same : SameStates w store') : StateAnswers tenants w store c (.done r) := by
  rw [StateAnswers, Settles, served]
  exact ⟨same, rfl⟩

theorem stateAnswers_pending {c : StateCall} {rest : Interaction.Prog StateSql StateSql.Ans c.Answer}
    (same : SameStates w store) (pending : StatePending tenants w ⟨c, rest⟩) (asks : ∃ op next, rest = .call op next) :
    StateAnswers tenants w store c rest := by
  obtain ⟨op, next, rfl⟩ := asks
  exact ⟨same, pending⟩

theorem StatePending.kept {w' : StateTable} {t : StateTask} (pending : StatePending tenants w t) (moves : Moves w w') :
    StatePending tenants w' t := ⟨pending.1, pending.2.kept moves⟩

/-! ## What the in-memory store does -/

omit [DebugText] [InstantReader] in
theorem save_conflict (calm : store.failNext = 0) (other : store.versionOf new.accountId ≠ expected) :
    serveState store (.save expected new) = (store, .error (.versionConflict expected (store.versionOf new.accountId))) := by
  rw [serveState, StateStore.save, if_neg (by omega), if_pos other]
  rfl

omit [DebugText] [InstantReader] in
theorem save_refused (calm : store.failNext = 0) (version : store.versionOf new.accountId = expected) {o : AccountState}
    (held : store.states[new.accountId]? = some o) (blocked : transitionAllowed o new = false) :
    serveState store (.save expected new) = (store, .error (.illegalTransition
      s!"{o.status.asStr} to {new.status.asStr} without a recorded human resume")) := by
  have refuses : store.refuses new = some (.illegalTransition
      s!"{o.status.asStr} to {new.status.asStr} without a recorded human resume") := by
    simp only [StateStore.refuses, held, blocked, Bool.not_false, if_true]
  rw [serveState, StateStore.save, if_neg (by omega), if_neg (not_not.2 version), refuses]
  rfl

omit [DebugText] [InstantReader] in
theorem save_stored (calm : store.failNext = 0) (version : store.versionOf new.accountId = expected)
    (allowed : ∀ o, store.states[new.accountId]? = some o → transitionAllowed o new = true) :
    serveState store (.save expected new) =
      ({ store with states := store.states.insert new.accountId { new with version := expected + 1 }
                    saves := store.saves + 1 }, .ok { new with version := expected + 1 }) := by
  have free : store.refuses new = none := by
    unfold StateStore.refuses
    cases held : store.states[new.accountId]? with
    | none => rfl
    | some o => simp [allowed o held]
  rw [serveState, StateStore.save, if_neg (by omega), if_neg (not_not.2 version), free]
  rfl

/-! ## Step by step -/

theorem load_inStep (same : SameStates w store) {accountId : String} :
    StateInStep tenants w store others ⟨.load accountId, PgStateStore.load accountId⟩ := by
  refine fun (found : Except String (Option StateRow)) w' effect => ?_
  obtain ⟨rfl, rfl⟩ : found = .ok (w accountId) ∧ w' = w := effect
  refine ⟨?_, fun t _ pending => pending⟩
  have served : serveState store (.load accountId) = (store, .ok store.states[accountId]?) := by
    rw [serveState, StateStore.load, if_neg (by have := same.calm; omega)]
    rfl
  simp only [PgStateStore.readState, same.read accountId]
  exact stateAnswers_done served same

theorem saveWrite_asks (expected : Nat) (new : AccountState) :
    ∃ op next, PgStateStore.saveWrite tenants expected new = .call op next := by
  unfold PgStateStore.saveWrite
  split <;> exact ⟨_, _, rfl⟩

theorem saveRead_answers (same : SameStates w store) (proper : StorableState new ∧ Coherent new) :
    StateAnswers tenants w store (.save expected new)
      (PgStateStore.saveRead tenants expected new store.states[new.accountId]?) := by
  unfold PgStateStore.saveRead
  dsimp only
  split
  next other => exact stateAnswers_done (save_conflict same.calm other) same
  next version =>
    rw [not_not] at version
    split
    next o blocked =>
      obtain ⟨held, refused⟩ := Option.filter_eq_some_iff.1 blocked
      exact stateAnswers_done (save_refused same.calm version held (by simpa using refused)) same
    next free =>
      have permits := permits_of_read same.saved (same.read new.accountId) version free
      exact stateAnswers_pending same ⟨proper, .saveWrite proper.1 permits⟩ (saveWrite_asks expected new)

theorem save_inStep (same : SameStates w store) (proper : StorableState new ∧ Coherent new) :
    StateInStep tenants w store others ⟨.save expected new, PgStateStore.save tenants expected new⟩ := by
  refine fun (found : Except String (Option StateRow)) w' effect => ?_
  obtain ⟨rfl, rfl⟩ : found = .ok (w new.accountId) ∧ w' = w := effect
  refine ⟨?_, fun t _ pending => pending⟩
  simp only [PgStateStore.readState, same.read new.accountId]
  exact saveRead_answers same proper

theorem saveLost_inStep (same : SameStates w store) (overtaken : Overtaken w expected new.accountId) :
    StateInStep tenants w store others ⟨.save expected new, PgStateStore.saveLost expected new⟩ := by
  refine fun (found : Except String (Option StateRow)) w' effect => ?_
  obtain ⟨rfl, rfl⟩ : found = .ok (w new.accountId) ∧ w' = w := effect
  refine ⟨?_, fun t _ pending => pending⟩
  have read := same.read new.accountId
  have other : store.versionOf new.accountId ≠ expected := by
    obtain ⟨r, found, lt⟩ := overtaken
    obtain ⟨absent, -⟩ | ⟨r', o, found', reads, held⟩ := read_cases read
    · rw [absent] at found
      cases found
    · obtain rfl := Option.some.inj (found.symm.trans found')
      have counted := rowToState_version reads
      rw [StateStore.versionOf, held, Option.map_some, Option.getD_some]
      omega
  simp only [PgStateStore.readState, read]
  exact stateAnswers_done (save_conflict same.calm other) same

theorem SameStates.written (same : SameStates w store) {row : StateRow} (account : row.accountId = new.accountId)
    (saved : SavedRows (Function.update w row.accountId (some row)))
    (reads : rowToState row = .ok { new with version := expected + 1 }) :
    SameStates (Function.update w row.accountId (some row))
      { store with states := store.states.insert new.accountId { new with version := expected + 1 }
                   saves := store.saves + 1 } where
  calm := same.calm
  saved := saved
  rows id := by
    by_cases here : id = new.accountId
    · subst here
      rw [account, Function.update_self]
      simp only [Std.ExtTreeMap.getElem?_insert_self]
      exact .held reads
    · rw [account, Function.update_of_ne here]
      simp only [Std.ExtTreeMap.getElem?_insert, Std.LawfulEqCmp.compare_eq_iff_eq, Ne.symm here, if_false]
      exact same.rows id

omit [DebugText] [InstantReader] in
theorem rebuilt {s : AccountState} (coherent : Coherent s) (version : Nat) :
    AccountState.fromRecord { s.toRecord with version } = .ok { s with version } :=
  (AccountState.fromRecord_toRecord_iff { s with version }).2 ⟨coherent.halt, coherent.scale, coherent.rung⟩

/-- One row was changed: the save is where the in-memory store serves it. -/
theorem saveWritten_answers {row : StateRow} {what : String} (same : SameStates w store)
    (proper : StorableState new ∧ Coherent new) (version : store.versionOf new.accountId = expected)
    (allowed : ∀ o, store.states[new.accountId]? = some o → transitionAllowed o new = true)
    (here : row = stateRow (tenants new.accountId) ((expected + 1 : Nat) : Int) new)
    (moves : Moves w (Function.update w row.accountId (some row))) :
    StateAnswers tenants (Function.update w row.accountId (some row)) store (.save expected new)
      (PgStateStore.saveWritten expected new what (.ok 1)) := by
  have built := rebuilt proper.2 (expected + 1)
  have reads : rowToState row = .ok { new with version := expected + 1 } := by
    rw [here, rowToState_stateRow proper.1, built]
  have answered : PgStateStore.saveWritten expected new what (.ok 1) = .done (.ok { new with version := expected + 1 }) := by
    simp only [PgStateStore.saveWritten, ne_eq, not_true_eq_false, if_false, built]
  rw [answered]
  exact stateAnswers_done (save_stored same.calm version allowed) (same.written (here ▸ rfl) moves.saved reads)

theorem insert_inStep (same : SameStates w store) (proper : StorableState new ∧ Coherent new) :
    StateInStep tenants w store others
      ⟨.save 0 new, .call (.insert (stateRow (tenants new.accountId) 1 new)) fun (n : Except String Nat) =>
        PgStateStore.saveWritten 0 new "insert" n⟩ := by
  refine fun (n : Except String Nat) w' effect => ?_
  obtain ⟨rfl, rfl⟩ : n = .ok (w.insert (stateRow (tenants new.accountId) 1 new)).1 ∧
    w' = (w.insert (stateRow (tenants new.accountId) 1 new)).2 := effect
  have first : (stateRow (tenants new.accountId) 1 new).version = 1 := rfl
  have moves := insert_moves same.saved first
  refine ⟨?_, fun t _ pending => pending.kept moves⟩
  obtain ⟨old, found, lost⟩ | ⟨absent, written⟩ := insert_cases w (stateRow (tenants new.accountId) 1 new)
  · rw [lost]
    have overtaken : Overtaken w 0 new.accountId := overtaken_of_insert same.saved rfl found
    exact stateAnswers_pending same ⟨proper, .saveLost overtaken⟩ ⟨_, _, rfl⟩
  · rw [written] at moves ⊢
    have shown := same.read new.accountId
    obtain ⟨-, held⟩ | ⟨r, o, found, -⟩ := read_cases shown
    · refine saveWritten_answers same proper ?_ ?_ rfl moves
      · rw [StateStore.versionOf, held]
        rfl
      · rw [held]
        simp
    · rw [show w new.accountId = none from absent] at found
      cases found

theorem update_inStep (same : SameStates w store) (proper : StorableState new ∧ Coherent new)
    (permits : Permits w expected new) (later : expected ≠ 0) (room : (expected : Int) + 1 < 2 ^ 63) :
    StateInStep tenants w store others
      ⟨.save expected new, .call (.update (stateRow (tenants new.accountId) 0 new) expected) fun (n : Except String Nat) =>
        PgStateStore.saveWritten expected new "update" n⟩ := by
  refine fun (n : Except String Nat) w' effect => ?_
  obtain ⟨rfl, rfl⟩ := Prod.ext_iff.1 (show (n, w') = w.update (stateRow (tenants new.accountId) 0 new) expected from effect)
  have moves := update_moves same.saved permits proper.1 (tenants new.accountId)
  refine ⟨?_, fun t _ pending => pending.kept moves⟩
  obtain ⟨lost, gone⟩ | ⟨e, failed, full⟩ | ⟨old, found, version, written⟩ :=
    update_cases w (stateRow (tenants new.accountId) 0 new) expected
  · rw [lost]
    exact stateAnswers_pending same ⟨proper, .saveLost (overtaken_of_update permits later gone)⟩ ⟨_, _, rfl⟩
  · omega
  · rw [written] at moves ⊢
    obtain ⟨absent, -⟩ | ⟨r, o, found', reads, held⟩ := read_cases (same.read new.accountId)
    · rw [show w new.accountId = some old from found] at absent
      cases absent
    · obtain rfl := Option.some.inj ((show w new.accountId = some old from found).symm.trans found')
      obtain ⟨o', reads', allowed⟩ := permits.allowed old found version
      obtain rfl := Except.ok.inj (reads.symm.trans reads')
      have counted := rowToState_version reads
      refine saveWritten_answers same proper ?_ ?_ rfl moves
      · rw [StateStore.versionOf, held, Option.map_some, Option.getD_some]
        omega
      · rw [held]
        rintro _ ⟨⟩
        exact allowed

theorem state_simulation : Simulation (PgStateStore.service tenants) savesCoherent serveState (fun _ => Eq) SameStates
    (StatePending tenants) where
  start := by
    intro w store c same allowed
    cases c with
    | load accountId => exact stateAnswers_pending same ⟨allowed, .load accountId⟩ ⟨_, _, rfl⟩
    | save expected new => exact stateAnswers_pending same ⟨allowed, .save expected new allowed.1⟩ ⟨_, _, rfl⟩
  statement := by
    intro w store t others same pending allowed
    obtain ⟨proper, underway⟩ := pending
    cases underway with
    | load accountId => exact load_inStep same
    | save expected new storable => exact save_inStep same proper
    | @saveWrite expected new storable permits =>
        unfold PgStateStore.saveWrite at allowed ⊢
        split at allowed
        next first =>
          subst first
          exact insert_inStep same proper
        next later =>
          rw [if_neg later]
          exact update_inStep same proper permits later (allowed _ _ _ rfl)
    | saveLost overtaken => exact saveLost_inStep same overtaken

end Agreement

/-- The two stores give the same answers, however the statements of any number of calls
    interleave. -/
theorem state_stores_agree [DebugText] [InstantReader] (tenants : String → Tenant)
    {p : Pool StateSql StateSql.Ans StateTable StateCall.Answer}
    (reached : Reaches (PgStateStore.service tenants) savesCoherent (fun _ => none) p) :
    Matches serveState (fun _ => Eq) StateStore.new p.log := by
  have same : SameStates (fun _ => none) StateStore.new := by
    refine ⟨rfl, by simp [SavedRows], fun id => ?_⟩
    have empty : StateStore.new.states[id]? = none := Std.ExtTreeMap.getElem?_empty
    rw [empty]
    exact .absent
  exact state_simulation.reaches_matches same reached

section Samples

@[reducible] private def stateQuotes : DebugText := ⟨fun s => "\"" ++ s ++ "\""⟩

attribute [local instance] stateQuotes epochReader

def haltedState : AccountState := ((AccountState.new "acct").haltNow .manual "stop" 0).1

def resumedState : AccountState :=
  match haltedState.resume ⟨"ops", 0, "checked"⟩ ⟨RebalancerRisk.one, 0⟩ 0 with
  | .ok (s, _) => s
  | .error _ => haltedState

theorem haltedState_storable : StorableState haltedState where
  riskScale := by decide +kernel
  shrinkRung _ none := by cases none
  hwm _ none := by cases none
  dayStartEquity _ none := by cases none
  lastEquity _ none := by cases none
  lastEquityAt _ none := by cases none
  halt h same := by
    cases same
    exact ⟨fun _ none => (by cases none), fun _ none => (by cases none), by decide +kernel⟩
  resumes _ none := by cases none

theorem one_readable : Readable RebalancerRisk.one := by decide +kernel

theorem resumedState_storable : StorableState resumedState where
  riskScale := one_readable
  shrinkRung _ none := by cases none
  hwm _ same := by
    cases same
    exact one_readable
  dayStartEquity _ same := by
    cases same
    exact one_readable
  lastEquity _ same := by
    cases same
    exact one_readable
  lastEquityAt _ same := by
    cases same
    decide +kernel
  halt _ none := by cases none
  resumes r member := by
    rcases List.mem_singleton.1 (show r ∈ [_] from member) with rfl
    exact ⟨one_readable, fun _ none => (by cases none)⟩

theorem coherent_samples : Coherent haltedState ∧ Coherent resumedState :=
  ⟨⟨by decide +kernel, by decide +kernel, by decide +kernel⟩, ⟨by decide +kernel, by decide +kernel, by decide +kernel⟩⟩

theorem halted_reads : rowToState (stateRow 1 1 haltedState) = .ok { haltedState with version := 1 } := by
  rw [show (1 : Int) = ((1 : Nat) : Int) from rfl, rowToState_stateRow haltedState_storable]
  exact rebuilt coherent_samples.1 1

theorem resumed_reads : rowToState (stateRow 1 2 resumedState) = .ok { resumedState with version := 2 } := by
  rw [show (2 : Int) = ((2 : Nat) : Int) from rfl, rowToState_stateRow resumedState_storable]
  exact rebuilt coherent_samples.2 2

theorem halted_state :
    PgStateStore.readState (.ok (some (stateRow 1 1 haltedState))) = .ok (some { haltedState with version := 1 }) := by
  change (do return some (← rowToState (stateRow 1 1 haltedState))) = Except.ok (some _)
  rw [halted_reads]
  rfl

def tableOf (r : StateRow) : StateTable := Function.update (fun _ => none) "acct" (some r)

/-- Two processes halt the account at the same time; the later write loses. -/
def haltedLog : Log StateCall.Answer :=
  [⟨.save 0 haltedState, .ok { haltedState with version := 1 }⟩, ⟨.save 0 haltedState, .error (.versionConflict 0 1)⟩]

def haltedPool : Pool StateSql StateSql.Ans StateTable StateCall.Answer :=
  ⟨tableOf (stateRow 1 1 haltedState), [], haltedLog⟩

/-- Then the account is resumed, with this answer. -/
def resumedPool (answer : Except StoreError AccountState) : Pool StateSql StateSql.Ans StateTable StateCall.Answer :=
  ⟨tableOf (stateRow 1 2 resumedState), [], haltedLog ++ [⟨.save 1 resumedState, answer⟩]⟩

theorem saves_halted : Reaches (PgStateStore.service oneTenant) savesCoherent (fun _ => none) haltedPool := by
  have proper : savesCoherent.call (.save 0 haltedState) := ⟨haltedState_storable, coherent_samples.1⟩
  have called : Reaches (PgStateStore.service oneTenant) savesCoherent (fun _ => none) ⟨fun _ => none,
      [⟨.save 0 haltedState, PgStateStore.save oneTenant 0 haltedState⟩,
        ⟨.save 0 haltedState, PgStateStore.save oneTenant 0 haltedState⟩], []⟩ :=
    (Relation.ReflTransGen.refl.tail (.start _ proper)).tail (.start _ proper)
  have read : (PgStateStore.service oneTenant).effect (fun _ => none) (.select "acct")
      (.ok none : Except String (Option StateRow)) (fun _ => none) := ⟨rfl, rfl⟩
  have wrote : (PgStateStore.service oneTenant).effect (fun _ => none) (.insert (stateRow 1 1 haltedState))
      (.ok 1 : Except String Nat) (tableOf (stateRow 1 1 haltedState)) := ⟨rfl, rfl⟩
  have lost : (PgStateStore.service oneTenant).effect (tableOf (stateRow 1 1 haltedState))
      (.insert (stateRow 1 1 haltedState)) (.ok 0 : Except String Nat) (tableOf (stateRow 1 1 haltedState)) := ⟨rfl, rfl⟩
  have reread : (PgStateStore.service oneTenant).effect (tableOf (stateRow 1 1 haltedState)) (.select "acct")
      (.ok (some (stateRow 1 1 haltedState)) : Except String (Option StateRow)) (tableOf (stateRow 1 1 haltedState)) :=
    ⟨rfl, rfl⟩
  have small {w : StateTable} {others : List StateTask} {sql : StateSql} {next}
      (other : ∀ row version, sql ≠ .update row version) :
      savesCoherent.statement w others ⟨.save 0 haltedState, .call sql next⟩ := by
    rintro row version next ⟨⟩
    exact absurd rfl (other row version)
  have reading := steps_asks (steps_asks called (small (by simp)) read rfl) (small (by simp)) read rfl
  have written := steps_asks (steps_answers reading (small (by simp)) wrote rfl) (small (by simp)) lost rfl
  refine steps_answers written (small (by simp)) reread ?_
  simp only [halted_state]
  rfl

theorem resume_reads : (PgStateStore.service oneTenant).effect (tableOf (stateRow 1 1 haltedState)) (.select "acct")
    (.ok (some (stateRow 1 1 haltedState)) : Except String (Option StateRow)) (tableOf (stateRow 1 1 haltedState)) :=
  ⟨rfl, rfl⟩

theorem resume_written : PgStateStore.saveRead oneTenant 1 resumedState (some { haltedState with version := 1 }) =
    PgStateStore.saveWrite oneTenant 1 resumedState := by
  have follows : transitionAllowed { haltedState with version := 1 } resumedState = true := by decide +kernel
  simp [PgStateStore.saveRead, Option.filter, follows]

theorem resumed_table : (tableOf (stateRow 1 1 haltedState)).update (stateRow 1 0 resumedState) 1 =
    (.ok 1, tableOf (stateRow 1 2 resumedState)) := by
  refine Prod.ext rfl ?_
  change Function.update (tableOf (stateRow 1 1 haltedState)) "acct" (some (stateRow 1 2 resumedState)) = _
  rw [tableOf, tableOf, Function.update_idem]

theorem save_resumed : Relation.ReflTransGen (Step (PgStateStore.service oneTenant) savesCoherent) haltedPool
    (resumedPool (.ok { resumedState with version := 2 })) := by
  have wrote : (PgStateStore.service oneTenant).effect (tableOf (stateRow 1 1 haltedState))
      (.update (stateRow 1 0 resumedState) 1) (.ok 1 : Except String Nat) (tableOf (stateRow 1 2 resumedState)) :=
    resumed_table.symm
  have proper : savesCoherent.call (.save 1 resumedState) := ⟨resumedState_storable, coherent_samples.2⟩
  refine steps_call .refl proper (.statement ?_ resume_reads ?_)
  · rintro row version next ⟨⟩
  · refine Alone.of_eq (?_ : _ = PgStateStore.saveWrite oneTenant 1 resumedState) (.statement ?_ wrote (.done _))
    · simp only [halted_state, resume_written]
    · rintro row version next ⟨⟩
      decide

/-- Two saves that overlap, and one after them. -/
theorem state_stores_agree_sample :
    Reaches (PgStateStore.service oneTenant) savesCoherent (fun _ => none)
        (resumedPool (.ok { resumedState with version := 2 })) ∧
      Matches serveState (fun _ => Eq) StateStore.new
        (resumedPool (.ok { resumedState with version := 2 })).log :=
  ⟨saves_halted.trans save_resumed, state_stores_agree oneTenant (saves_halted.trans save_resumed)⟩

theorem faulty_of_step {p p' : Pool StateSql StateSql.Ans StateTable StateCall.Answer}
    (step : Step (PgStateStore.service oneTenant) savesCoherent p p') :
    Step (PgStateStore.faultyService oneTenant) savesStorable p p' := by
  cases step with
  | start c allowed =>
      refine .start c ?_
      cases c with
      | load accountId => exact trivial
      | save expected new => exact allowed.1
  | statement chosen allowed effect => exact .statement chosen trivial (.inl effect)

theorem faulty_of_steps {p p' : Pool StateSql StateSql.Ans StateTable StateCall.Answer}
    (steps : Relation.ReflTransGen (Step (PgStateStore.service oneTenant) savesCoherent) p p') :
    Relation.ReflTransGen (Step (PgStateStore.faultyService oneTenant) savesStorable) p p' :=
  Relation.ReflTransGen.mono (fun _ _ => faulty_of_step) _ _ steps

/-- The write of the resume takes effect, but its answer is lost. -/
theorem save_resumed_unheard :
    Relation.ReflTransGen (Step (PgStateStore.faultyService oneTenant) savesStorable) haltedPool
      (resumedPool (.error (.unavailable "update: connection lost"))) := by
  have wrote : (PgStateStore.faultyService oneTenant).effect (tableOf (stateRow 1 1 haltedState))
      (.update (stateRow 1 0 resumedState) 1) (.error "connection lost" : Except String Nat)
      (tableOf (stateRow 1 2 resumedState)) :=
    .inr (.inr (congrArg Prod.snd resumed_table).symm)
  refine steps_call .refl (show savesStorable.call (.save 1 resumedState) from resumedState_storable)
    (.statement trivial (.inl resume_reads) ?_)
  refine Alone.of_eq (?_ : _ = PgStateStore.saveWrite oneTenant 1 resumedState) (.statement trivial wrote (.done _))
  simp only [halted_state, resume_written]

/-- An account is halted by two processes and resumed by a save that hears of an error. -/
theorem halt_ends_by_resume_sample :
    Continues { haltedState with version := 1 } { resumedState with version := 2 } := by
  have row : haltedPool.world "acct" = some (stateRow 1 1 haltedState) := rfl
  obtain ⟨r', found, continues⟩ := halt_ends_by_resume oneTenant (faulty_of_steps saves_halted) save_resumed_unheard row
    halted_reads
  obtain rfl := Option.some.inj (show some (stateRow 1 2 resumedState) = some r' from found)
  exact (continues _ resumed_reads).1

end Samples

end RebalancerStore
