import SignalEngine.BrokerAdapters.OandaReconstruction

/-! # Complete pages

A page that holds every transaction after an id proves that a tag was not used. The
test of a page adds one to ids of 64 bits; a build with overflow checks stops where
such a sum does not fit.
-/

open Outcome Text

namespace BrokerAdapters.Oanda

/-! ## Checked additions -/

def nextId (id : Nat) : Option Nat := if id + 1 < 2 ^ 64 then some (id + 1) else none

theorem nextId_of_lt {id : Nat} (fits : id + 1 < 2 ^ 64) : nextId id = some (id + 1) := if_pos fits

theorem nextId_of_le {id : Nat} (large : 2 ^ 64 ≤ id + 1) : nextId id = none := if_neg (not_lt.2 large)

def checkGapsChecked : List TxnRecord → Option (Except String Unit)
  | first :: second :: rest => do
      let next ← nextId first.id
      if second.id ≠ next then some (.error s!"gap between transaction {first.id} and {second.id}")
      else checkGapsChecked (second :: rest)
  | _ => some (.ok ())

/-- The test with overflow checks. -/
def TxnPage.completenessChecked (page : TxnPage) : Option (Except String Unit) :=
  match page.records.head?, page.records.getLast? with
  | some first, some last => do
      let start ← nextId page.afterId
      if first.id ≠ start then some (.error s!"page starts at id {first.id}, not {start}")
      else if last.id ≠ page.lastTransactionId then
        some (.error <| s!"page ends at id {last.id} but the account's last transaction id is " ++
          s!"{page.lastTransactionId}")
      else checkGapsChecked page.records
  | _, _ =>
      if page.lastTransactionId = page.afterId then some (.ok ())
      else some (.error <| s!"empty page after id {page.afterId} but the account's last transaction id is " ++
        s!"{page.lastTransactionId}")

/-! ## What the test asks for -/

/-- The ids run from the one after the requested id to the account's last. -/
def TxnPage.Consecutive (page : TxnPage) : Prop :=
  page.afterId ≤ page.lastTransactionId ∧
    page.records.map TxnRecord.id = List.range' (page.afterId + 1) (page.lastTransactionId - page.afterId)

/-- The ids run without a gap to the largest number of 64 bits, and the page goes on. -/
def TxnPage.RunsOver (page : TxnPage) : Prop :=
  ∃ upTo rest, page.records = upTo ++ rest ∧ rest ≠ [] ∧
    upTo.map TxnRecord.id = List.range' (page.afterId + 1) upTo.length ∧
    page.afterId + upTo.length + 1 = 2 ^ 64 ∧ page.records.getLast?.map TxnRecord.id = some page.lastTransactionId

/-- The test of a page neither overflows nor errs, and a complete page tells which tags
    no transaction after the requested id carries. -/
structure TxnPage.TestedRight (page : TxnPage) : Prop where
  calm : page.completenessChecked ≠ none
  exact : page.completenessChecked = some (.ok ()) ↔ page.Consecutive
  absent : page.completenessChecked = some (.ok ()) → ∀ (tag : String) (carried : Nat → Option String),
    (∀ r ∈ page.records, carried r.id = r.clientId) → (∀ r ∈ page.records, r.clientId ≠ some tag) →
    ∀ id, page.afterId < id → id ≤ page.lastTransactionId → carried id ≠ some tag

structure TxnPage.Read (page : TxnPage) : Prop where
  after : ∀ r ∈ page.records, page.afterId < r.id
  fits : ∀ r ∈ page.records, r.id < 2 ^ 64

theorem parseU64_lt {s : String} {n : Nat} (read : parseU64 s = some n) : n < 2 ^ 64 := by
  have bounded : ∀ {digits : List Char}, (if digits ≠ [] ∧ allDigits digits then
      if Nat.ofDigitChars 10 digits 0 < 2 ^ 64 then some (Nat.ofDigitChars 10 digits 0) else none
      else none) = some n → n < 2 ^ 64 := by
    intro digits read
    split at read
    next =>
      split at read
      next fits =>
        obtain rfl := Option.some.inj read
        exact fits
      next => cases read
    next => cases read
  exact bounded read

theorem readRecord_id [DebugText] {afterId : Nat} {t : Value} {r : TxnRecord} (read : readRecord afterId t = .ok r) :
    afterId < r.id ∧ r.id < 2 ^ 64 := by
  unfold readRecord at read
  simp only [bind_eq_ok, pure_eq_ok] at read
  obtain ⟨idText, -, id, number, _, later, kind, -, rfl⟩ := read
  exact ⟨not_le.1 (refuse_eq_ok.1 later), parseU64_lt (okOr_eq_ok.1 number)⟩

theorem parseTransactionsPage_read [DebugText] [JsonText] {body : String} {afterId : Nat} {page : TxnPage}
    (parsed : parseTransactionsPage body afterId = .ok page) : page.Read := by
  unfold parseTransactionsPage at parsed
  simp only [bind_eq_ok, pure_eq_ok] at parsed
  obtain ⟨root, -, arr, -, text, -, last, -, records, read, rfl⟩ := parsed
  have each : ∀ r ∈ records, afterId < r.id ∧ r.id < 2 ^ 64 := by
    have pairs := mapM_eq_ok.1 read
    clear read
    induction pairs with
    | nil => simp
    | cons head _ ih =>
        intro r member
        rcases List.mem_cons.1 member with rfl | member
        · exact readRecord_id head
        · exact ih r member
  exact ⟨fun r member => (each r member).1, fun r member => (each r member).2⟩

/-! ## The gaps -/

theorem checkGapsChecked_cons {first second : TxnRecord} {rest : List TxnRecord} (fits : first.id + 1 < 2 ^ 64) :
    checkGapsChecked (first :: second :: rest) =
      if second.id ≠ first.id + 1 then some (.error s!"gap between transaction {first.id} and {second.id}")
      else checkGapsChecked (second :: rest) := by
  rw [checkGapsChecked, nextId_of_lt fits]
  rfl

theorem checkGapsChecked_ok_iff {first : TxnRecord} {rest : List TxnRecord} (fits : ∀ r ∈ first :: rest, r.id < 2 ^ 64) :
    checkGapsChecked (first :: rest) = some (.ok ()) ↔
      rest.map TxnRecord.id = List.range' (first.id + 1) rest.length := by
  induction rest generalizing first with
  | nil => simp [checkGapsChecked]
  | cons second rest ih =>
      have later := @ih second fun r member => fits r (List.mem_cons_of_mem _ member)
      rw [List.map_cons, List.length_cons, List.range'_succ, List.cons.injEq]
      rcases Nat.lt_or_ge (first.id + 1) (2 ^ 64) with small | large
      · rw [checkGapsChecked_cons small]
        by_cases gap : second.id = first.id + 1
        · rw [if_neg (not_not.2 gap), later, gap]
          simp
        · rw [if_pos gap]
          simp [gap]
      · have bound := fits second (by simp)
        rw [checkGapsChecked, nextId_of_le large]
        constructor
        · intro impossible
          cases impossible
        · rintro ⟨next, -⟩
          omega

theorem checkGapsChecked_none_iff {first : TxnRecord} {rest : List TxnRecord} (fits : ∀ r ∈ first :: rest, r.id < 2 ^ 64) :
    checkGapsChecked (first :: rest) = none ↔ ∃ upTo later, rest = upTo ++ later ∧ later ≠ [] ∧
      upTo.map TxnRecord.id = List.range' (first.id + 1) upTo.length ∧ first.id + upTo.length + 1 = 2 ^ 64 := by
  induction rest generalizing first with
  | nil =>
      constructor
      · intro impossible
        cases impossible
      · rintro ⟨upTo, later, split, more, -⟩
        exact absurd (List.append_eq_nil_iff.1 split.symm).2 more
  | cons second rest ih =>
      have later := @ih second fun r member => fits r (List.mem_cons_of_mem _ member)
      have bound := fits first (by simp)
      have bound' := fits second (by simp)
      rcases Nat.lt_or_ge (first.id + 1) (2 ^ 64) with small | large
      · rw [checkGapsChecked_cons small]
        by_cases gap : second.id = first.id + 1
        · rw [if_neg (not_not.2 gap), later]
          constructor
          · rintro ⟨upTo, more, rfl, some, ids, last⟩
            refine ⟨second :: upTo, more, rfl, some, ?_, ?_⟩
            · rw [List.map_cons, List.length_cons, List.range'_succ, ids, gap]
            · rw [List.length_cons]
              omega
          · rintro ⟨upTo, more, split, some, ids, last⟩
            cases upTo with
            | nil =>
                simp only [List.length_nil] at last
                omega
            | cons r upTo =>
                obtain ⟨rfl, rest⟩ := List.cons.inj split
                rw [List.map_cons, List.length_cons, List.range'_succ, List.cons.injEq, ← gap] at ids
                rw [List.length_cons] at last
                exact ⟨upTo, more, rest, some, ids.2, by omega⟩
        · rw [if_pos gap]
          constructor
          · intro impossible
            cases impossible
          · rintro ⟨upTo, more, split, some, ids, last⟩
            cases upTo with
            | nil =>
                simp only [List.length_nil] at last
                omega
            | cons r upTo =>
                obtain ⟨rfl, rest⟩ := List.cons.inj split
                rw [List.map_cons, List.length_cons, List.range'_succ, List.cons.injEq] at ids
                exact absurd ids.1 gap
      · rw [checkGapsChecked, nextId_of_le large]
        exact ⟨fun _ => ⟨[], second :: rest, rfl, by simp, rfl, by simp only [List.length_nil]; omega⟩, fun _ => rfl⟩

/-! ## The page -/

namespace TxnPage

section Cons

variable {page : TxnPage} {first : TxnRecord} {rest : List TxnRecord}

theorem completenessChecked_cons (read : page.Read) (records : page.records = first :: rest) :
    page.completenessChecked =
      if first.id ≠ page.afterId + 1 then some (.error s!"page starts at id {first.id}, not {page.afterId + 1}")
      else if ((first :: rest).getLast (by simp)).id ≠ page.lastTransactionId then
        some (.error <| s!"page ends at id {((first :: rest).getLast (by simp)).id} but the account's last transaction id is " ++
          s!"{page.lastTransactionId}")
      else checkGapsChecked (first :: rest) := by
  have after := read.after first (by simp [records])
  have fits := read.fits first (by simp [records])
  have last : page.records.getLast? = some ((first :: rest).getLast (by simp)) := by
    rw [records]
    exact List.getLast?_eq_some_getLast _
  have head : page.records.head? = some first := by rw [records, List.head?_cons]
  rw [completenessChecked, head, last, records]
  simp only [nextId_of_lt (show page.afterId + 1 < 2 ^ 64 by omega)]
  rfl

theorem getLast_range {a n l : Nat} (last : (List.range' (a + 1) n).getLast? = some l) : l = a + n ∧ 0 < n := by
  rw [List.getLast?_range'] at last
  split at last
  next => cases last
  next some =>
    obtain rfl := Option.some.inj last
    omega

theorem last_id (records : page.records = first :: rest) :
    page.records.getLast?.map TxnRecord.id = some ((first :: rest).getLast (by simp)).id := by
  rw [records, List.getLast?_eq_some_getLast (by simp), Option.map_some]

theorem consecutive_cons (records : page.records = first :: rest) :
    page.Consecutive ↔ first.id = page.afterId + 1 ∧
      ((first :: rest).getLast (by simp)).id = page.lastTransactionId ∧
      rest.map TxnRecord.id = List.range' (first.id + 1) rest.length := by
  have last := last_id records
  rw [← List.getLast?_map] at last
  constructor
  · rintro ⟨ordered, ids⟩
    have size := congrArg List.length ids
    rw [List.length_map, List.length_range', records, List.length_cons] at size
    rw [ids] at last
    obtain ⟨final, -⟩ := getLast_range last
    rw [records, ← size, List.map_cons, List.range'_succ, List.cons.injEq] at ids
    refine ⟨ids.1, by omega, ?_⟩
    rw [ids.1]
    exact ids.2
  · rintro ⟨start, final, ids⟩
    have all : page.records.map TxnRecord.id = List.range' (page.afterId + 1) (rest.length + 1) := by
      rw [records, List.map_cons, ids, List.range'_succ, start]
    rw [all] at last
    obtain ⟨reached, -⟩ := getLast_range last
    refine ⟨by omega, ?_⟩
    rw [all]
    congr 1
    omega

theorem runsOver_cons (read : page.Read) (records : page.records = first :: rest) :
    page.RunsOver ↔ first.id = page.afterId + 1 ∧
      ((first :: rest).getLast (by simp)).id = page.lastTransactionId ∧
      ∃ upTo later, rest = upTo ++ later ∧ later ≠ [] ∧
        upTo.map TxnRecord.id = List.range' (first.id + 1) upTo.length ∧ first.id + upTo.length + 1 = 2 ^ 64 := by
  have last := last_id records
  constructor
  · rintro ⟨upTo, later, split, more, ids, top, final⟩
    rw [last] at final
    rw [records] at split
    cases upTo with
    | nil =>
        have after := read.after first (by simp [records])
        have fits := read.fits first (by simp [records])
        rw [List.length_nil] at top
        omega
    | cons r upTo =>
        obtain ⟨rfl, others⟩ := List.cons.inj split
        rw [List.map_cons, List.length_cons, List.range'_succ, List.cons.injEq] at ids
        rw [List.length_cons] at top
        refine ⟨ids.1, Option.some.inj final, upTo, later, others, more, ?_, by omega⟩
        rw [ids.1]
        exact ids.2
  · rintro ⟨start, final, upTo, later, rfl, more, ids, top⟩
    refine ⟨first :: upTo, later, records, more, ?_, ?_, ?_⟩
    · rw [List.map_cons, ids, List.length_cons, List.range'_succ, start]
    · rw [List.length_cons]
      omega
    · rw [last, final]

end Cons

/-- A tag that no record of a consecutive page carries is carried by no transaction
    after the requested id. -/
theorem Consecutive.absent {page : TxnPage} (complete : page.Consecutive) {tag : String} {carried : Nat → Option String}
    (told : ∀ r ∈ page.records, carried r.id = r.clientId) (unused : ∀ r ∈ page.records, r.clientId ≠ some tag) {id : Nat}
    (after : page.afterId < id) (upTo : id ≤ page.lastTransactionId) : carried id ≠ some tag := by
  have listed : id ∈ page.records.map TxnRecord.id := by
    rw [complete.2, List.mem_range'_1]
    have ordered := complete.1
    omega
  obtain ⟨r, member, rfl⟩ := List.mem_map.1 listed
  rw [told r member]
  exact unused r member

theorem testedRight_iff {page : TxnPage} (read : page.Read) : page.TestedRight ↔ ¬ page.RunsOver := by
  have tested : (page.completenessChecked = none ↔ page.RunsOver) ∧
      (page.completenessChecked = some (.ok ()) ↔ page.Consecutive) := by
    cases records : page.records with
    | nil =>
        have empty : page.completenessChecked = if page.lastTransactionId = page.afterId then some (.ok ())
            else some (.error <| s!"empty page after id {page.afterId} but the account's last transaction id is " ++
              s!"{page.lastTransactionId}") := by
          rw [completenessChecked, records]
          rfl
        rw [empty]
        constructor
        · constructor
          · intro impossible
            split at impossible
            · cases impossible
            · cases impossible
          · rintro ⟨upTo, later, split, more, -⟩
            rw [records] at split
            exact absurd (List.append_eq_nil_iff.1 split.symm).2 more
        · rw [Consecutive, records]
          by_cases same : page.lastTransactionId = page.afterId
          · simp [same]
          · rw [if_neg same]
            constructor
            · intro impossible
              cases impossible
            · rintro ⟨ordered, ids⟩
              have size := congrArg List.length ids
              rw [List.length_range'] at size
              simp only [List.map_nil, List.length_nil] at size
              omega
    | cons first rest =>
        have fits : ∀ r ∈ first :: rest, r.id < 2 ^ 64 := by
          rw [← records]
          exact read.fits
        rw [completenessChecked_cons read records, runsOver_cons read records, consecutive_cons records,
          ← checkGapsChecked_ok_iff fits, ← checkGapsChecked_none_iff fits]
        by_cases start : first.id = page.afterId + 1
        · rw [if_neg (not_not.2 start)]
          by_cases final : ((first :: rest).getLast (by simp)).id = page.lastTransactionId
          · rw [if_neg (not_not.2 final)]
            simp [start, final]
          · rw [if_pos final]
            simp [final]
        · rw [if_pos start]
          simp [start]
  constructor
  · intro right over'
    exact right.calm (tested.1.2 over')
  · intro bounded
    refine ⟨fun stops => bounded (tested.1.1 stops), tested.2, ?_⟩
    intro complete tag carried told unused id after upTo
    exact (tested.2.1 complete).absent told unused after upTo

end TxnPage

section

variable [DebugText] [JsonText]

/-- The test of every page that is read is right, unless its ids run over. -/
theorem page_tested_iff (body : String) (afterId : Nat) (page : TxnPage)
    (parsed : parseTransactionsPage body afterId = .ok page) : page.TestedRight ↔ ¬ page.RunsOver :=
  TxnPage.testedRight_iff (parseTransactionsPage_read parsed)

end

namespace TopId

local instance pageQuotes : DebugText where
  quoted s := "\"" ++ s ++ "\""

private def order (id : String) : Value := .object [("id", .string id), ("type", .string "MARKET_ORDER")]

private def body (first second : String) : Value := .object
  [("transactions", .array [order first, order second]), ("lastTransactionID", .string second)]

def text (first second : String) : String :=
  "\x7b\"transactions\":[\x7b\"id\":\"" ++ first ++ "\",\"type\":\"MARKET_ORDER\"\x7d,\x7b\"id\":\"" ++ second ++
    "\",\"type\":\"MARKET_ORDER\"\x7d],\"lastTransactionID\":\"" ++ second ++ "\"\x7d"

def top : String := "18446744073709551615"

/-- The library on a page with the largest id twice and on a page with two ids in order. -/
local instance pageParser : JsonText where
  fromStr t := some (if t = text top top then body top top else body "5" "6")

def record (id : Nat) (idText : String) : TxnRecord := ⟨id, idText, "MARKET_ORDER", none, none, order idText⟩

theorem parsed_top : parseTransactionsPage (text top top) (2 ^ 64 - 2) =
    .ok ⟨2 ^ 64 - 2, [record (2 ^ 64 - 1) top, record (2 ^ 64 - 1) top], 2 ^ 64 - 1⟩ := by
  have library : JsonText.fromStr (text top top) = some (body top top) := congrArg some (if_pos rfl)
  simp only [parseTransactionsPage, library]
  rfl

/-- The largest id twice: the test adds one to it. -/
theorem repeated_top_id_overflows : ∃ page, parseTransactionsPage (text top top) (2 ^ 64 - 2) = .ok page ∧
    page.completenessChecked = none ∧ ¬ page.TestedRight := by
  have stops : TxnPage.completenessChecked ⟨2 ^ 64 - 2, [record (2 ^ 64 - 1) top, record (2 ^ 64 - 1) top], 2 ^ 64 - 1⟩ =
      none := by decide +kernel
  exact ⟨_, parsed_top, stops, fun right => right.calm stops⟩

theorem two_ids_tested : TxnPage.TestedRight ⟨4, [record 5 "5", record 6 "6"], 6⟩ := by
  have library : JsonText.fromStr (text "5" "6") = some (body "5" "6") := congrArg some (if_neg (by decide +kernel))
  refine (page_tested_iff (text "5" "6") 4 _ ?_).2 ?_
  · simp only [parseTransactionsPage, library]
    rfl
  · rintro ⟨upTo, rest, records, -, -, bound, -⟩
    have size := congrArg List.length records
    rw [List.length_append] at size
    simp only [List.length_cons, List.length_nil] at size bound
    omega

end TopId

end BrokerAdapters.Oanda
