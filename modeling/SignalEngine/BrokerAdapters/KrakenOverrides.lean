import SignalEngine.BrokerAdapters.KrakenOrder
import SignalEngine.Lib.LastWrites
import Mathlib.Data.List.TakeWhile
import Mathlib.Data.String.Basic

/-! # Kraken pair overrides

Operator overrides of the pair table. The overrides are applied one after the
other, by the order of their keys; a key is any name of a pair, and a key that
names no pair ends the run with an error where it stands.
-/

open Outcome Text LastWrites

namespace BrokerAdapters.Kraken

inductive PairSource where
  | builtin
  | assetPairs
  | override
  deriving Repr, DecidableEq

/-- A row of the pair table with where it comes from. -/
structure PairRow extends PairInfo where
  baseAsset : String
  quoteAsset : String
  source : PairSource
  deriving DecidableEq

structure PairOverride where
  pairDecimals : Option Nat
  lotDecimals : Option Nat
  orderMin : Option Dec
  costMin : Option Dec
  tickSize : Option Dec
  status : Option String
  deriving DecidableEq

abbrev OverrideMap := Std.ExtTreeMap String PairOverride

/-- The JSON library: an object with one override for each key. -/
class OverrideJson where
  fromStr : String → Except String OverrideMap

def PairRow.apply (row : PairRow) (ov : PairOverride) : PairRow :=
  { row with
    pairDecimals := ov.pairDecimals.getD row.pairDecimals
    lotDecimals := ov.lotDecimals.getD row.lotDecimals
    orderMin := ov.orderMin.getD row.orderMin
    costMin := ov.costMin.or row.costMin
    tickSize := ov.tickSize.or row.tickSize
    status := ov.status.or row.status
    source := .override }

private def builtinRow (canonical altname restName wsName baseAsset : String) (pairDecimals : Nat) (orderMin tickSize : Dec) :
    PairRow where
  canonical := canonical
  altname := altname
  restName := restName
  wsName := wsName
  baseAsset := baseAsset
  quoteAsset := "ZUSD"
  pairDecimals := pairDecimals
  lotDecimals := 8
  orderMin := orderMin
  costMin := some ⟨⟨5, Dec.fits_five⟩, 1, Dec.scale_one⟩
  tickSize := some tickSize
  status := none
  source := .builtin

def builtin : List PairRow :=
  [builtinRow "BTC/USD" "XBTUSD" "XXBTZUSD" "XBT/USD" "XXBT" 1 ⟨⟨1, Dec.fits_one⟩, 4, Dec.scale_four⟩ ⟨⟨1, Dec.fits_one⟩, 1, Dec.scale_one⟩,
    builtinRow "ETH/USD" "ETHUSD" "XETHZUSD" "ETH/USD" "XETH" 2 ⟨⟨2, Dec.fits_two⟩, 3, Dec.scale_three⟩ ⟨⟨1, Dec.fits_one⟩, 2, Dec.scale_two⟩]

def position (rows : List PairRow) (name : String) : Option Nat :=
  rows.findIdx? fun row => row.toPairInfo.matches name

/-- The rows are changed in place: what was applied before an error stays. -/
def applyOverrides (rows : List PairRow) : List (String × PairOverride) → List PairRow × Except BrokerError Unit
  | [] => (rows, .ok ())
  | (name, ov) :: rest =>
      match position rows name with
      | none => (rows, .error (.config s!"override for unknown pair {name}"))
      | some i => applyOverrides (rows.modify i (·.apply ov)) rest

def applyOverridesJson [OverrideJson] (rows : List PairRow) (json : String) : List PairRow × Except BrokerError Unit :=
  match OverrideJson.fromStr json with
  | .error e => (rows, .error (.config s!"pair overrides: {e}"))
  | .ok map => applyOverrides rows map.toList

/-! ## What a run of overrides does -/

theorem matches_apply (row : PairRow) (ov : PairOverride) (name : String) :
    (row.apply ov).toPairInfo.matches name = row.toPairInfo.matches name := rfl

theorem position_modify (rows : List PairRow) (i : Nat) (ov : PairOverride) (name : String) :
    position (rows.modify i (·.apply ov)) name = position rows name := by
  unfold position
  induction rows generalizing i with
  | nil => simp
  | cons row rows ih =>
      cases i with
      | zero =>
          simp only [List.modify_zero_cons, List.findIdx?_cons, matches_apply]
          rfl
      | succ i => simp [List.findIdx?_cons, ih]

variable {rows : List PairRow} {entries : List (String × PairOverride)}

/-- The overrides before the first key that names no pair. -/
def known (rows : List PairRow) (entries : List (String × PairOverride)) : List (String × PairOverride) :=
  entries.takeWhile fun e => (position rows e.1).isSome

def updates (rows : List PairRow) (entries : List (String × PairOverride)) : List (Nat × PairOverride) :=
  entries.filterMap fun e => (position rows e.1).map fun i => (i, e.2)

theorem applyOverrides_rows (rows : List PairRow) (entries : List (String × PairOverride)) :
    (applyOverrides rows entries).1 = updateRows PairRow.apply rows (updates rows (known rows entries)) := by
  induction entries generalizing rows with
  | nil => rfl
  | cons e entries ih =>
      obtain ⟨name, ov⟩ := e
      unfold applyOverrides known
      cases found : position rows name with
      | none => simp [found, updates, updateRows]
      | some i =>
          have same : ∀ n, position (rows.modify i (·.apply ov)) n = position rows n := position_modify rows i ov
          have first : updates rows ((name, ov) :: known rows entries) = (i, ov) :: updates rows (known rows entries) := by
            simp [updates, found]
          simp only [List.takeWhile_cons, found, Option.isSome_some, if_true]
          rw [ih, ← known, first]
          simp only [known, updates, same]
          rfl

theorem applyOverrides_ok_iff : (applyOverrides rows entries).2 = .ok () ↔ ∀ e ∈ entries, position rows e.1 ≠ none := by
  induction entries generalizing rows with
  | nil => simp [applyOverrides]
  | cons e entries ih =>
      obtain ⟨name, ov⟩ := e
      unfold applyOverrides
      cases found : position rows name with
      | none => simp [found]
      | some i => simp [ih, position_modify, found]

theorem known_of_ok (named : ∀ e ∈ entries, position rows e.1 ≠ none) : known rows entries = entries := by
  rw [known, List.takeWhile_eq_self_iff]
  intro e member
  rw [Option.isSome_iff_ne_none]
  exact named e member

def overridesOf (rows : List PairRow) (i : Nat) (entries : List (String × PairOverride)) : List PairOverride :=
  (entries.filter fun e => position rows e.1 = some i).map Prod.snd

theorem updatesOf_updates (i : Nat) (entries : List (String × PairOverride)) :
    updatesOf i (updates rows entries) = overridesOf rows i entries := by
  induction entries with
  | nil => rfl
  | cons e entries ih =>
      cases found : position rows e.1 with
      | none =>
          simp only [updates, overridesOf, List.filterMap_cons, found, Option.map_none, List.filter_cons, reduceCtorEq,
            decide_false, Bool.false_eq_true, if_false]
          exact ih
      | some j =>
          by_cases same : j = i
          · subst same
            have step : updates rows (e :: entries) = (j, e.2) :: updates rows entries := by simp [updates, found]
            rw [step, updatesOf_cons_self, ih]
            simp [overridesOf, found]
          · have step : updates rows (e :: entries) = (j, e.2) :: updates rows entries := by simp [updates, found]
            rw [step, updatesOf_cons_other same, ih]
            simp [overridesOf, found, same]

theorem applyOverrides_row (rows : List PairRow) (entries : List (String × PairOverride)) (i : Nat) :
    (applyOverrides rows entries).1[i]? =
      rows[i]?.map fun row => (overridesOf rows i (known rows entries)).foldl PairRow.apply row := by
  rw [applyOverrides_rows, updateRows_getElem?, updatesOf_updates]

theorem foldl_apply (row : PairRow) (ovs : List PairOverride) : ovs.foldl PairRow.apply row =
    { row with
      pairDecimals := (lastSome PairOverride.pairDecimals ovs).getD row.pairDecimals
      lotDecimals := (lastSome PairOverride.lotDecimals ovs).getD row.lotDecimals
      orderMin := (lastSome PairOverride.orderMin ovs).getD row.orderMin
      costMin := (lastSome PairOverride.costMin ovs).or row.costMin
      tickSize := (lastSome PairOverride.tickSize ovs).or row.tickSize
      status := (lastSome PairOverride.status ovs).or row.status
      source := if ovs = [] then row.source else .override } := by
  induction ovs using List.reverseRecOn with
  | nil => rfl
  | append_singleton ovs ov ih =>
      rw [List.foldl_append, List.foldl_cons, List.foldl_nil, ih]
      simp [lastSome_concat, PairRow.apply, Option.getD_or, Option.or_assoc]

/-! ## Overrides of one row -/

structure Compatible (ov ov' : PairOverride) : Prop where
  pairDecimals : ∀ v v', ov.pairDecimals = some v → ov'.pairDecimals = some v' → v = v'
  lotDecimals : ∀ v v', ov.lotDecimals = some v → ov'.lotDecimals = some v' → v = v'
  orderMin : ∀ v v', ov.orderMin = some v → ov'.orderMin = some v' → v = v'
  costMin : ∀ v v', ov.costMin = some v → ov'.costMin = some v' → v = v'
  tickSize : ∀ v v', ov.tickSize = some v → ov'.tickSize = some v' → v = v'
  status : ∀ v v', ov.status = some v → ov'.status = some v' → v = v'

structure Shows (row : PairRow) (ov : PairOverride) : Prop where
  pairDecimals : ∀ v, ov.pairDecimals = some v → row.pairDecimals = v
  lotDecimals : ∀ v, ov.lotDecimals = some v → row.lotDecimals = v
  orderMin : ∀ v, ov.orderMin = some v → row.orderMin = v
  costMin : ∀ v, ov.costMin = some v → row.costMin = some v
  tickSize : ∀ v, ov.tickSize = some v → row.tickSize = some v
  status : ∀ v, ov.status = some v → row.status = some v

variable {entries' : List (String × PairOverride)} {row : PairRow} {ovs : List PairOverride}

theorem Shows.compatible {ov ov' : PairOverride} (left : Shows row ov) (right : Shows row ov') :
    Compatible ov ov' where
  pairDecimals v v' h h' := (left.pairDecimals v h).symm.trans (right.pairDecimals v' h')
  lotDecimals v v' h h' := (left.lotDecimals v h).symm.trans (right.lotDecimals v' h')
  orderMin v v' h h' := (left.orderMin v h).symm.trans (right.orderMin v' h')
  costMin v v' h h' := Option.some.inj ((left.costMin v h).symm.trans (right.costMin v' h'))
  tickSize v v' h h' := Option.some.inj ((left.tickSize v h).symm.trans (right.tickSize v' h'))
  status v v' h h' := Option.some.inj ((left.status v h).symm.trans (right.status v' h'))

theorem shows_of_last {ov : PairOverride} (last : ovs.getLast? = some ov) :
    Shows (ovs.foldl PairRow.apply row) ov := by
  rw [foldl_apply]
  constructor
  · intro v set
    simp [lastSome_of_last last set]
  · intro v set
    simp [lastSome_of_last last set]
  · intro v set
    simp [lastSome_of_last last set]
  · intro v set
    simp [lastSome_of_last last set]
  · intro v set
    simp [lastSome_of_last last set]
  · intro v set
    simp [lastSome_of_last last set]

theorem foldl_apply_perm {ovs' : List PairOverride} (same : ovs.Perm ovs')
    (agree : ∀ ov ∈ ovs, ∀ ov' ∈ ovs, Compatible ov ov') :
    ovs.foldl PairRow.apply row = ovs'.foldl PairRow.apply row := by
  have empty : ovs = [] ↔ ovs' = [] := by
    rw [← List.length_eq_zero_iff, ← List.length_eq_zero_iff, same.length_eq]
  rw [foldl_apply, foldl_apply,
    lastSome_perm same fun ov h ov' h' => (agree ov h ov' h').pairDecimals,
    lastSome_perm same fun ov h ov' h' => (agree ov h ov' h').lotDecimals,
    lastSome_perm same fun ov h ov' h' => (agree ov h ov' h').orderMin,
    lastSome_perm same fun ov h ov' h' => (agree ov h ov' h').costMin,
    lastSome_perm same fun ov h ov' h' => (agree ov h ov' h').tickSize,
    lastSome_perm same fun ov h ov' h' => (agree ov h ov' h').status]
  simp only [empty]

/-- The row is marked as overridden and has the last value of each field already. -/
structure Restates (row : PairRow) (ovs : List PairOverride) : Prop where
  source : ovs ≠ [] → row.source = .override
  pairDecimals : ∀ v, lastSome PairOverride.pairDecimals ovs = some v → row.pairDecimals = v
  lotDecimals : ∀ v, lastSome PairOverride.lotDecimals ovs = some v → row.lotDecimals = v
  orderMin : ∀ v, lastSome PairOverride.orderMin ovs = some v → row.orderMin = v
  costMin : ∀ v, lastSome PairOverride.costMin ovs = some v → row.costMin = some v
  tickSize : ∀ v, lastSome PairOverride.tickSize ovs = some v → row.tickSize = some v
  status : ∀ v, lastSome PairOverride.status ovs = some v → row.status = some v

private theorem getD_eq_self_iff {α : Type} {o : Option α} {a : α} : o.getD a = a ↔ ∀ v, o = some v → a = v := by
  cases o with
  | none => simp
  | some b => simp [eq_comm]

private theorem or_eq_self_iff {α : Type} {o o' : Option α} : o.or o' = o' ↔ ∀ v, o = some v → o' = some v := by
  cases o with
  | none => simp
  | some b => simp [eq_comm]

theorem foldl_apply_eq_self_iff : ovs.foldl PairRow.apply row = row ↔ Restates row ovs := by
  rw [foldl_apply]
  obtain ⟨info, base, quote, source⟩ := row
  obtain ⟨⟩ := info
  simp only [PairRow.mk.injEq, PairInfo.mk.injEq, true_and, getD_eq_self_iff, or_eq_self_iff]
  constructor
  · rintro ⟨⟨pairDecimals, lotDecimals, orderMin, costMin, tickSize, status⟩, marked⟩
    refine ⟨fun some => ?_, pairDecimals, lotDecimals, orderMin, costMin, tickSize, status⟩
    rw [if_neg some] at marked
    exact marked.symm
  · intro restates
    refine ⟨⟨restates.pairDecimals, restates.lotDecimals, restates.orderMin, restates.costMin, restates.tickSize,
      restates.status⟩, ?_⟩
    by_cases none : ovs = []
    · rw [if_pos none]
    · rw [if_neg none]
      exact (restates.source none).symm

/-! ## Other names of a pair -/

def padded (k : Nat) (name : String) : String := String.ofList (List.replicate k '\t' ++ (trimmed name).toList)

private theorem trim_blanks (k : Nat) (cs : List Char) : trim (List.replicate k '\t' ++ cs) = trim cs := by
  induction k with
  | zero => simp
  | succ k ih =>
      rw [← ih]
      simp only [trim, List.replicate_succ, List.cons_append]
      rw [List.dropWhile_cons_of_pos (by decide)]

theorem position_padded (rows : List PairRow) (k : Nat) (name : String) :
    position rows (padded k name) = position rows name := by
  have same : trimmed (padded k name) = trimmed name := by
    simp only [padded, trimmed, String.toList_ofList, trim_blanks, trim_trim]
  simp only [position, PairInfo.matches, same]

theorem padded_inj {k k' : Nat} {name : String} (same : padded k name = padded k' name) : k = k' := by
  have lengths := congrArg (fun s => s.toList.length) same
  simpa [padded] using lengths

theorem padded_order (name : String) :
    (∀ k d, compare (padded k name) (padded (k + d + 1) name) = .lt) ∨
      ∀ k d, compare (padded (k + d + 1) name) (padded k name) = .lt := by
  have below : ∀ {s t : String}, s.toList < t.toList → compare s t = .lt := by
    intro s t less
    exact compare_lt_iff_lt.2 (String.lt_iff_toList_lt.2 less)
  have front : ∀ (k : Nat) {as bs : List Char}, as < bs → List.replicate k '\t' ++ as < List.replicate k '\t' ++ bs := by
    intro k as bs less
    induction k with
    | zero => exact less
    | succ k ih => exact List.cons_lt_cons_iff.2 (.inr ⟨rfl, ih⟩)
  have longer : ∀ k d, (padded (k + d + 1) name).toList =
      List.replicate k '\t' ++ '\t' :: (List.replicate d '\t' ++ (trimmed name).toList) := by
    intro k d
    have blanks : List.replicate (k + d + 1) '\t' = List.replicate k '\t' ++ '\t' :: List.replicate d '\t' := by
      rw [Nat.add_assoc, List.replicate_add, List.replicate_succ]
    rw [padded, String.toList_ofList, blanks, List.append_assoc, List.cons_append]
  have shorter : ∀ k, (padded k name).toList = List.replicate k '\t' ++ (trimmed name).toList := by
    intro k
    rw [padded, String.toList_ofList]
  cases text : (trimmed name).toList with
  | nil =>
      left
      intro k d
      apply below
      rw [shorter, longer, text]
      exact front k (List.nil_lt_cons '\t' _)
  | cons h rest =>
      have seen : h ≠ '\t' := by
        rintro rfl
        rw [trimmed, String.toList_ofList] at text
        have blank : isWhitespace '\t' = false := trim_head _ (by rw [text]; rfl)
        exact absurd blank (by decide)
      rcases lt_or_gt_of_ne seen with less | greater
      · left
        intro k d
        apply below
        rw [shorter, longer, text]
        exact front k (List.cons_lt_cons_iff.2 (.inl less))
      · right
        intro k d
        apply below
        rw [longer, shorter, text]
        exact front k (List.cons_lt_cons_iff.2 (.inl greater))

/-- The same overrides, with other names for the pairs. -/
def Renames (rows : List PairRow) (map map' : OverrideMap) : Prop :=
  ∃ entries, entries.Perm map'.toList ∧
    List.Forall₂ (fun e e' => e'.2 = e.2 ∧ position rows e'.1 = position rows e.1) map.toList entries

theorem overridesOf_perm (same : entries.Perm entries') (i : Nat) :
    (overridesOf rows i entries).Perm (overridesOf rows i entries') :=
  (same.filter _).map _

theorem overridesOf_renamed
    (renamed : List.Forall₂ (fun e e' => e'.2 = e.2 ∧ position rows e'.1 = position rows e.1) entries entries')
    (i : Nat) :
    overridesOf rows i entries' = overridesOf rows i entries := by
  induction renamed with
  | nil => rfl
  | @cons e e' entries entries' head _ ih =>
      obtain ⟨override, pair⟩ := head
      by_cases here : position rows e.1 = some i
      · have here' := pair.trans here
        simp only [overridesOf, List.filter_cons, here, here', decide_true, if_true, List.map_cons, override]
        exact congrArg _ ih
      · have here' : ¬ position rows e'.1 = some i := by rwa [pair]
        simp only [overridesOf, List.filter_cons, here, here', decide_false, Bool.false_eq_true, if_false]
        exact ih

private theorem exists_blanks (entries : List (String × PairOverride)) (name : String) (e : String × PairOverride) :
    ∃ blanks : String × PairOverride → Nat, (∀ a ∈ entries, ∀ b ∈ entries, blanks a = blanks b → a = b) ∧
      ∀ a ∈ entries, a ≠ e → compare (padded (blanks a) name) (padded (blanks e) name) = .lt := by
  let blanks (last : Nat) (a : String × PairOverride) : Nat := if a = e then last else entries.idxOf a + 1
  have self : ∀ last, blanks last e = last := fun last => if_pos rfl
  have other : ∀ last, ∀ a, a ≠ e → blanks last a = entries.idxOf a + 1 := fun last a different => if_neg different
  have apart : ∀ last, (∀ a ∈ entries, a ≠ e → entries.idxOf a + 1 ≠ last) →
      ∀ a ∈ entries, ∀ b ∈ entries, blanks last a = blanks last b → a = b := by
    intro last fresh a memberA b memberB same
    by_cases first : a = e
    · by_cases second : b = e
      · rw [first, second]
      · rw [first, self, other last b second] at same
        exact absurd same.symm (fresh b memberB second)
    · by_cases second : b = e
      · rw [second, self, other last a first] at same
        exact absurd same (fresh a memberA first)
      · rw [other last a first, other last b second, Nat.succ_inj] at same
        exact (List.idxOf_inj memberA).1 same
  rcases padded_order name with ascending | descending
  · refine ⟨blanks (entries.length + 1), apart _ ?_, ?_⟩
    · intro a memberA _ same
      have bound := List.idxOf_lt_length_of_mem memberA
      omega
    · intro a memberA different
      have bound := List.idxOf_lt_length_of_mem memberA
      have gap : entries.length + 1 = (entries.idxOf a + 1) + (entries.length - entries.idxOf a - 1) + 1 := by omega
      rw [self, other _ a different, gap]
      exact ascending _ _
  · refine ⟨blanks 0, apart _ ?_, ?_⟩
    · intro a _ _ same
      omega
    · intro a _ different
      rw [self, other _ a different]
      have step := descending 0 (entries.idxOf a)
      rwa [Nat.zero_add] at step

theorem exists_last (rows : List PairRow) (map : OverrideMap) {e : String × PairOverride} {i : Nat}
    (member : e ∈ map.toList) (here : position rows e.1 = some i) :
    ∃ map', Renames rows map map' ∧ (overridesOf rows i map'.toList).getLast? = some e.2 := by
  obtain ⟨blanks, apart, behind⟩ := exists_blanks map.toList e.1 e
  let rename (a : String × PairOverride) : String × PairOverride :=
    if position rows a.1 = some i then (padded (blanks a) e.1, a.2) else a
  have moved : ∀ a, position rows a.1 = some i → rename a = (padded (blanks a) e.1, a.2) := fun a pair => if_pos pair
  have kept : ∀ a, position rows a.1 ≠ some i → rename a = a := fun a pair => if_neg pair
  have pairs : ∀ a, position rows (rename a).1 = position rows a.1 := by
    intro a
    by_cases pair : position rows a.1 = some i
    · rw [moved a pair, position_padded, here, pair]
    · rw [kept a pair]
  have overrides : ∀ a, (rename a).2 = a.2 := by
    intro a
    by_cases pair : position rows a.1 = some i
    · rw [moved a pair]
    · rw [kept a pair]
  have keys : (map.toList.map Prod.fst).Nodup := by
    rw [List.Nodup, List.pairwise_map]
    refine (Std.ExtTreeMap.distinct_keys_toList).imp ?_
    intro a b differ same
    exact differ (by rw [same]; exact Std.ReflCmp.compare_self)
  have distinct : ((map.toList.map rename).map Prod.fst).Nodup := by
    rw [List.map_map]
    refine List.Nodup.map_on ?_ (List.Nodup.of_map Prod.fst keys)
    intro a memberA b memberB same
    have samePair := congrArg (position rows) same
    simp only [Function.comp_apply, pairs] at samePair same
    by_cases pair : position rows a.1 = some i
    · rw [moved a pair, moved b (samePair ▸ pair)] at same
      exact apart a memberA b memberB (padded_inj same)
    · rw [kept a pair, kept b (samePair ▸ pair)] at same
      exact List.inj_on_of_nodup_map keys memberA memberB same
  have made := toList_ofList_perm distinct
  refine ⟨Std.ExtTreeMap.ofList (map.toList.map rename), ⟨_, made.symm, ?_⟩, ?_⟩
  · rw [List.forall₂_map_right_iff, List.forall₂_same]
    exact fun a _ => ⟨overrides a, pairs a⟩
  · have sorted := (Std.ExtTreeMap.ofList (map.toList.map rename) compare).ordered_keys_toList
    rw [overridesOf, List.getLast?_map, getLast?_of_max (e := rename e) (sorted.filter _), Option.map_some, overrides]
    · rw [List.mem_filter, made.mem_iff]
      exact ⟨List.mem_map_of_mem member, by simpa [pairs] using here⟩
    · intro a' memberA' different
      rw [List.mem_filter, made.mem_iff] at memberA'
      obtain ⟨known, pair⟩ := memberA'
      obtain ⟨a, memberA, rfl⟩ := List.mem_map.1 known
      rw [decide_eq_true_iff, pairs] at pair
      rw [moved a pair, moved e here]
      exact behind a memberA fun same => different (by rw [same])

end BrokerAdapters.Kraken
