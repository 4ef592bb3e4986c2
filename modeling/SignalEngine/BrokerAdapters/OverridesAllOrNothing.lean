import SignalEngine.BrokerAdapters.KrakenOverrides

/-! # All or nothing

What operators may expect of pair overrides: a refused set leaves the table
alone, and an accepted one means the same under all names of the pairs. Rows
are changed where they stand, by the order of the names, so this takes
overrides that are harmless when cut short or reordered.
-/

open Outcome Text LastWrites

namespace BrokerAdapters.Kraken

section

variable [OverrideJson]

structure AllOrNothing (rows : List PairRow) (json : String) : Prop where
  /-- A failed call leaves the table alone. -/
  failed : ∀ e, (applyOverridesJson rows json).2 = .error e → (applyOverridesJson rows json).1 = rows
  /-- Any names of the pairs give the same table. -/
  aliases : ∀ map, OverrideJson.fromStr json = .ok map → (applyOverridesJson rows json).2 = .ok () →
    ∀ map', Renames rows map map' → applyOverrides rows map'.toList = applyOverridesJson rows json
  /-- So does any order that keeps the overrides of each pair in order. -/
  order : ∀ map, OverrideJson.fromStr json = .ok map → (applyOverridesJson rows json).2 = .ok () →
    ∀ entries : List (String × PairOverride), entries.Perm map.toList →
      (∀ i, overridesOf rows i entries = overridesOf rows i map.toList) →
      applyOverrides rows entries = applyOverridesJson rows json
  /-- A pair that is not named keeps its row. -/
  unnamed : ∀ map, OverrideJson.fromStr json = .ok map → (applyOverridesJson rows json).2 = .ok () →
    ∀ i, (∀ e ∈ map.toList, position rows e.1 ≠ some i) → (applyOverridesJson rows json).1[i]? = rows[i]?

omit [OverrideJson] in
/-- The condition on the overrides: those of one pair agree, and where a key is unknown, what
comes before it says what the table has already. -/
structure Harmless (rows : List PairRow) (map : OverrideMap) : Prop where
  agree : (∀ e ∈ map.toList, position rows e.1 ≠ none) → ∀ e ∈ map.toList, ∀ e' ∈ map.toList,
    position rows e.1 = position rows e'.1 → Compatible e.2 e'.2
  restate : (∃ e ∈ map.toList, position rows e.1 = none) → ∀ i row, rows[i]? = some row →
    Restates row (overridesOf rows i (known rows map.toList))

variable {rows : List PairRow} {json : String} {map map' : OverrideMap}

theorem applyOverridesJson_ok (parsed : OverrideJson.fromStr json = .ok map) :
    applyOverridesJson rows json = applyOverrides rows map.toList := by
  simp only [applyOverridesJson, parsed]

/-! ## Accepted overrides -/

omit [OverrideJson] in
theorem Renames.known (renames : Renames rows map map') (named : ∀ e ∈ map.toList, position rows e.1 ≠ none) :
    ∀ e ∈ map'.toList, position rows e.1 ≠ none := by
  obtain ⟨entries, perm, renamed⟩ := renames
  have each : ∀ e ∈ entries, position rows e.1 ≠ none := by
    clear perm
    generalize map.toList = entries' at renamed named
    induction renamed with
    | nil => simp
    | @cons e e' _ _ head _ ih =>
        intro a member
        rcases List.mem_cons.1 member with rfl | member
        · rw [head.2]
          exact named e List.mem_cons_self
        · exact ih (fun b h => named b (List.mem_cons_of_mem _ h)) a member
  exact fun e member => each e (perm.mem_iff.2 member)

omit [OverrideJson] in
theorem Renames.overridesOf (renames : Renames rows map map') (i : Nat) :
    (overridesOf rows i map'.toList).Perm (overridesOf rows i map.toList) := by
  obtain ⟨entries, perm, renamed⟩ := renames
  rw [← overridesOf_renamed renamed]
  exact (overridesOf_perm perm i).symm

omit [OverrideJson] in
theorem applyOverrides_congr {entries entries' : List (String × PairOverride)}
    (named : ∀ e ∈ entries, position rows e.1 ≠ none) (named' : ∀ e ∈ entries', position rows e.1 ≠ none)
    (same : ∀ i row, rows[i]? = some row →
      (Kraken.overridesOf rows i entries).foldl PairRow.apply row =
        (Kraken.overridesOf rows i entries').foldl PairRow.apply row) :
    applyOverrides rows entries = applyOverrides rows entries' := by
  apply Prod.ext
  · apply List.ext_getElem?
    intro i
    rw [applyOverrides_row, applyOverrides_row, known_of_ok named, known_of_ok named']
    cases row : rows[i]? with
    | none => rfl
    | some r => rw [Option.map_some, Option.map_some, same i r row]
  · rw [applyOverrides_ok_iff.2 named, applyOverrides_ok_iff.2 named']

omit [OverrideJson] in
theorem compatible_of_agree {i : Nat} (agree : ∀ e ∈ map.toList, ∀ e' ∈ map.toList,
    position rows e.1 = position rows e'.1 → Compatible e.2 e'.2) :
    ∀ ov ∈ Kraken.overridesOf rows i map.toList, ∀ ov' ∈ Kraken.overridesOf rows i map.toList, Compatible ov ov' := by
  have each : ∀ ov ∈ Kraken.overridesOf rows i map.toList, ∃ e ∈ map.toList, position rows e.1 = some i ∧ e.2 = ov := by
    intro ov member
    obtain ⟨e, filtered, rfl⟩ := List.mem_map.1 member
    obtain ⟨known, pair⟩ := List.mem_filter.1 filtered
    exact ⟨e, known, of_decide_eq_true pair, rfl⟩
  intro ov member ov' member'
  obtain ⟨e, known, pair, rfl⟩ := each ov member
  obtain ⟨e', known', pair', rfl⟩ := each ov' member'
  exact agree e known e' known' (pair.trans pair'.symm)

/-! ## The condition -/

theorem allOrNothing_of_harmless (parsed : OverrideJson.fromStr json = .ok map) (harmless : Harmless rows map) :
    AllOrNothing rows json := by
  have run : applyOverridesJson rows json = applyOverrides rows map.toList := applyOverridesJson_ok parsed
  have accepted : (applyOverridesJson rows json).2 = .ok () → ∀ e ∈ map.toList, position rows e.1 ≠ none := by
    intro ok
    rw [run] at ok
    exact applyOverrides_ok_iff.1 ok
  have only : ∀ m, OverrideJson.fromStr json = .ok m → m = map := by
    intro m parsed'
    rw [parsed] at parsed'
    exact (Except.ok.inj parsed').symm
  constructor
  · intro e failed
    rw [run] at failed ⊢
    have unknown : ∃ e ∈ map.toList, position rows e.1 = none := by
      by_contra none
      push Not at none
      rw [applyOverrides_ok_iff.2 none] at failed
      cases failed
    apply List.ext_getElem?
    intro i
    rw [applyOverrides_row]
    cases row : rows[i]? with
    | none => rfl
    | some r => rw [Option.map_some, foldl_apply_eq_self_iff.2 (harmless.restate unknown i r row)]
  · intro m parsed' ok m' renames
    obtain rfl := only m parsed'
    have named := accepted ok
    rw [run]
    apply applyOverrides_congr (renames.known named) named
    intro i row _
    exact (foldl_apply_perm (renames.overridesOf i).symm (compatible_of_agree (harmless.agree named))).symm
  · intro m parsed' ok entries perm same
    obtain rfl := only m parsed'
    have named := accepted ok
    rw [run]
    apply applyOverrides_congr (fun e member => named e (perm.mem_iff.1 member)) named
    intro i row _
    rw [same]
  · intro m parsed' ok i unnamed
    obtain rfl := only m parsed'
    have none : Kraken.overridesOf rows i m.toList = [] := by
      rw [Kraken.overridesOf, List.map_eq_nil_iff, List.filter_eq_nil_iff]
      intro e member pair
      exact unnamed e member (of_decide_eq_true pair)
    rw [run, applyOverrides_row, known_of_ok (accepted ok), none]
    simp

theorem AllOrNothing.shows (whole : AllOrNothing rows json) (parsed : OverrideJson.fromStr json = .ok map)
    (named : ∀ e ∈ map.toList, position rows e.1 ≠ none) {e : String × PairOverride} (member : e ∈ map.toList) {i : Nat}
    (here : position rows e.1 = some i) : ∃ row, (applyOverridesJson rows json).1[i]? = some row ∧ Shows row e.2 := by
  obtain ⟨map', renames, last⟩ := exists_last rows map member here
  have ok : (applyOverridesJson rows json).2 = .ok () := by
    rw [applyOverridesJson_ok parsed]
    exact applyOverrides_ok_iff.2 named
  have same := whole.aliases map parsed ok map' renames
  have bound : i < rows.length := (List.findIdx?_eq_some_iff_getElem.1 here).1
  have found : rows[i]? = some rows[i] := List.getElem?_eq_getElem bound
  have shows : Shows ((overridesOf rows i map'.toList).foldl PairRow.apply rows[i]) e.2 := shows_of_last last
  refine ⟨_, ?_, shows⟩
  rw [← same, applyOverrides_row, known_of_ok (renames.known named), found, Option.map_some]

theorem harmless_of_allOrNothing (parsed : OverrideJson.fromStr json = .ok map) (whole : AllOrNothing rows json) :
    Harmless rows map := by
  constructor
  · intro named e member e' member' same
    obtain ⟨i, here⟩ := Option.ne_none_iff_exists'.1 (named e member)
    obtain ⟨row, shown, left⟩ := whole.shows parsed named member here
    obtain ⟨row', shown', right⟩ := whole.shows parsed named member' (same.symm.trans here)
    rw [shown] at shown'
    obtain rfl := Option.some.inj shown'
    exact left.compatible right
  · rintro ⟨e, member, unknown⟩ i row found
    have failed : ∃ error, (applyOverrides rows map.toList).2 = .error error := by
      cases result : (applyOverrides rows map.toList).2 with
      | ok => exact absurd unknown (applyOverrides_ok_iff.1 result e member)
      | error error => exact ⟨error, rfl⟩
    obtain ⟨error, failed⟩ := failed
    have kept := whole.failed error
    rw [applyOverridesJson_ok parsed] at kept
    have same := congrArg (·[i]?) (kept failed)
    simp only [applyOverrides_row, found, Option.map_some, Option.some.injEq] at same
    exact foldl_apply_eq_self_iff.1 same

/-- Overrides are all or nothing exactly when they are harmless. -/
theorem all_or_nothing_iff (rows : List PairRow) (json : String) :
    AllOrNothing rows json ↔ ∀ map, OverrideJson.fromStr json = .ok map → Harmless rows map := by
  constructor
  · intro whole map parsed
    exact harmless_of_allOrNothing parsed whole
  · intro harmless
    cases parsed : OverrideJson.fromStr json with
    | ok map => exact allOrNothing_of_harmless parsed (harmless map parsed)
    | error e =>
        -- the text is refused before any row is touched
        have run : applyOverridesJson rows json = (rows, .error (.config s!"pair overrides: {e}")) := by
          simp only [applyOverridesJson, parsed]
        constructor
        · intro _ _
          rw [run]
        · intro map parsed'
          rw [parsed] at parsed'
          cases parsed'
        · intro map parsed'
          rw [parsed] at parsed'
          cases parsed'
        · intro map parsed'
          rw [parsed] at parsed'
          cases parsed'

end

namespace UnknownPair

/-- Two overrides, the second of a pair the table does not have. -/
def text : String := "\x7b\"BTC/USD\":\x7b\"ordermin\":\"0.0002\"\x7d,\"XYZ/USD\":\x7b\"ordermin\":\"1\"\x7d\x7d"

private def minimum (orderMin : Dec) : PairOverride := ⟨none, none, some orderMin, none, none, none⟩

private def overrides : OverrideMap :=
  .ofList [("BTC/USD", minimum ⟨⟨2, Dec.fits_two⟩, 4, Dec.scale_four⟩), ("XYZ/USD", minimum ⟨⟨1, Dec.fits_one⟩, 0, Dec.scale_zero⟩)]

local instance parser : OverrideJson where
  fromStr _ := .ok overrides

/-- The first override stays when the second is refused. -/
theorem refused_set_changes : ¬ AllOrNothing builtin text := by
  intro whole
  have failed : (applyOverridesJson builtin text).2 = .error (.config "override for unknown pair XYZ/USD") := by
    decide +kernel
  have changed : (applyOverridesJson builtin text).1 ≠ builtin := by
    decide +kernel
  exact changed (whole.failed _ failed)

end UnknownPair

end BrokerAdapters.Kraken
