import SignalEngine.Lib.MachineInt
import SignalEngine.Lib.Outcome
import SignalEngine.Lib.Runs

/-! # The client-order-id table

A persistent two-way table between order tags and 31-bit references. A tag's first
choice is its hash; a reference owned by another tag is probed past, wrapping from
the largest value to 1. The hash function is a parameter: nothing below depends on
how it spreads the tags.
-/

open MachineInt Outcome Runs

namespace BrokerAdapters

inductive UserrefError where
  | emptyTag
  | exhausted
  | outOfRange (userref : Int)
  | conflict (entry : String)
  deriving Repr, DecidableEq

structure UserrefEntry where
  tag : String
  userref : SInt 32
  deriving DecidableEq

/-- The two directions of the table, each ordered by its key. -/
structure UserrefMap where
  byTag : Std.ExtTreeMap String Int
  byRef : Std.ExtTreeMap Int String

/-- `i32::MAX`. -/
def maxRef : Int := 2147483647

def nextProbe (r : Int) : Int := if r = maxRef then 1 else r + 1

/-- How many references lie after `r` on the way round to `start`. -/
def probesLeft (start r : Int) : Nat := ((start - r - 1) % maxRef).toNat

theorem nextProbe_range {r : Int} (range : 1 ≤ r ∧ r ≤ maxRef) :
    1 ≤ nextProbe r ∧ nextProbe r ≤ maxRef := by
  unfold nextProbe maxRef at *
  split <;> omega

theorem probesLeft_next {start r : Int} (startRange : 1 ≤ start ∧ start ≤ maxRef)
    (range : 1 ≤ r ∧ r ≤ maxRef) (around : nextProbe r ≠ start) :
    probesLeft start (nextProbe r) < probesLeft start r := by
  unfold probesLeft nextProbe maxRef at *
  split at around
  next last =>
      rw [if_pos last]
      omega
  next inner =>
      rw [if_neg inner]
      omega

theorem probesLeft_le_start (start r : Int) : probesLeft start r ≤ probesLeft start start := by
  unfold probesLeft maxRef
  omega

/-- The probing loop of `assign`, from `r` on: the first free reference, unless the
    probe comes round to where it started. -/
def probe (taken : Int → Bool) (start r : Int) (startRange : 1 ≤ start ∧ start ≤ maxRef)
    (range : 1 ≤ r ∧ r ≤ maxRef) : Option Int :=
  if taken r then
    if _around : nextProbe r = start then none
    else probe taken start (nextProbe r) startRange (nextProbe_range range)
  else some r
termination_by probesLeft start r
decreasing_by exact probesLeft_next startRange range _around

/-- Every reference from `r` round to `start` is taken when the probe gives up, and
    what it returns is free. -/
theorem probe_spec (taken : Int → Bool) (start r : Int) (startRange : 1 ≤ start ∧ start ≤ maxRef)
    (range : 1 ≤ r ∧ r ≤ maxRef) :
    match probe taken start r startRange range with
    | some free => 1 ≤ free ∧ free ≤ maxRef ∧ taken free = false
    | none => ∀ x, 1 ≤ x → x ≤ maxRef → probesLeft start x ≤ probesLeft start r →
        taken x = true := by
  fun_induction probe taken start r startRange range with
  | case1 r range here around =>
      intro x low high near
      have same : x = r := by
        unfold probesLeft nextProbe maxRef at *
        split at around <;> omega
      exact same ▸ here
  | case2 r range here around ih =>
      split
      next free h =>
          rw [h] at ih
          exact ih
      next h =>
          rw [h] at ih
          intro x low high near
          by_cases same : x = r
          · exact same ▸ here
          · refine ih x low high ?_
            unfold probesLeft nextProbe maxRef at *
            split at around
            next last =>
                rw [if_pos last]
                omega
            next inner =>
                rw [if_neg inner]
                omega
  | case3 r range here => exact ⟨range.1, range.2, by simpa using here⟩

namespace UserrefMap

def new : UserrefMap := ⟨∅, ∅⟩

def insert (m : UserrefMap) (tag : String) (r : Int) : UserrefMap :=
  ⟨m.byTag.insert tag r, m.byRef.insert r tag⟩

def loadEntry (m : UserrefMap) (e : UserrefEntry) : Except UserrefError UserrefMap :=
  if e.tag = "" then .error .emptyTag
  else if e.userref.val < 1 then .error (.outOfRange e.userref.val)
  else
    match m.byTag[e.tag]?, m.byRef[e.userref.val]? with
    | none, none => .ok (m.insert e.tag e.userref.val)
    | some r, some t =>
        if r = e.userref.val ∧ t = e.tag then .ok m
        else .error (.conflict s!"{e.tag} <-> {e.userref.val}")
    | _, _ => .error (.conflict s!"{e.tag} <-> {e.userref.val}")

def fromEntries (entries : List UserrefEntry) : Except UserrefError UserrefMap :=
  entries.foldlM loadEntry new

/-- The table as a store writes it, in the order of the tags. The references are
    32-bit values in the source. -/
def entries (m : UserrefMap) : List UserrefEntry :=
  m.byTag.toList.map fun (tag, r) => ⟨tag, .wrapping r⟩

section Assign

variable (sha256 : List UInt8 → Vector UInt8 32)

/-- Four bytes, big endian, masked to 31 bits. -/
def headBits (digest : Vector UInt8 32) : Nat :=
  (digest[0].toNat * 2 ^ 24 + digest[1].toNat * 2 ^ 16 + digest[2].toNat * 2 ^ 8 +
    digest[3].toNat) % 2 ^ 31

/-- The hash-derived first choice for a tag, before probing. -/
def candidate (tag : String) : Int :=
  let v := headBits (sha256 ("mendl-userref-v1\x00".toUTF8.toList ++ tag.toUTF8.toList))
  if v = 0 then 1 else v

theorem candidate_range (tag : String) : 1 ≤ candidate sha256 tag ∧ candidate sha256 tag ≤ maxRef := by
  have small (digest : Vector UInt8 32) : headBits digest < 2 ^ 31 := Nat.mod_lt _ (by decide)
  have bound := small (sha256 ("mendl-userref-v1\x00".toUTF8.toList ++ tag.toUTF8.toList))
  simp only [candidate, maxRef]
  split <;> omega

/-- The probe of `assign`, from the tag's own candidate. -/
def freeRef (m : UserrefMap) (tag : String) : Option Int :=
  probe m.byRef.contains (candidate sha256 tag) (candidate sha256 tag)
    (candidate_range sha256 tag) (candidate_range sha256 tag)

/-- The tag's reference, assigning one if it has none yet. -/
def assign (m : UserrefMap) (tag : String) : Except UserrefError Int × UserrefMap :=
  if tag = "" then (.error .emptyTag, m)
  else
    match m.byTag[tag]? with
    | some r => (.ok r, m)
    | none =>
        match freeRef sha256 m tag with
        | some r => (.ok r, m.insert tag r)
        | none => (.error .exhausted, m)

end Assign

/-- The two directions are inverse to each other, the references are in range, and
    no tag is empty. -/
structure Bijective (m : UserrefMap) : Prop where
  inverse : ∀ (tag : String) (r : Int), m.byTag[tag]? = some r ↔ m.byRef[r]? = some tag
  range : ∀ (tag : String) (r : Int), m.byTag[tag]? = some r → 1 ≤ r ∧ r ≤ maxRef
  nonempty : ∀ r : Int, m.byTag[""]? ≠ some r

theorem new_bijective : Bijective new := by
  refine ⟨?_, ?_, ?_⟩ <;> simp [new]

theorem byTag_insert (m : UserrefMap) (tag t : String) (r : Int) :
    (m.insert tag r).byTag[t]? = if tag = t then some r else m.byTag[t]? := by
  simp [insert, Std.ExtTreeMap.getElem?_insert]

theorem byRef_insert (m : UserrefMap) (tag : String) (r x : Int) :
    (m.insert tag r).byRef[x]? = if r = x then some tag else m.byRef[x]? := by
  simp [insert, Std.ExtTreeMap.getElem?_insert]

theorem Bijective.insert {m : UserrefMap} (h : Bijective m) {tag : String} {r : Int}
    (named : tag ≠ "") (range : 1 ≤ r ∧ r ≤ maxRef) (newTag : m.byTag[tag]? = none)
    (free : m.byRef[r]? = none) : Bijective (m.insert tag r) := by
  refine ⟨fun t x => ?_, fun t x => ?_, fun x => ?_⟩
  · rw [byTag_insert, byRef_insert]
    by_cases tagSame : tag = t
    · by_cases refSame : r = x
      · simp [tagSame, refSame]
      · have other : m.byRef[x]? ≠ some t := by
          rw [Ne, ← h.inverse, ← tagSame, newTag]
          simp
        simp [tagSame, refSame, other]
    · by_cases refSame : r = x
      · have other : m.byTag[t]? ≠ some x := by
          rw [Ne, h.inverse, ← refSame, free]
          simp
        simp [tagSame, refSame, other]
      · simp [tagSame, refSame, h.inverse]
  · rw [byTag_insert]
    split
    · rintro ⟨⟩
      exact range
    · exact h.range t x
  · rw [byTag_insert, if_neg named]
    exact h.nonempty x

/-- Every entry of `m` is an entry of `m'`, in both directions. -/
structure Extends (m m' : UserrefMap) : Prop where
  byTag : ∀ (tag : String) (r : Int), m.byTag[tag]? = some r → m'.byTag[tag]? = some r
  byRef : ∀ (r : Int) (tag : String), m.byRef[r]? = some tag → m'.byRef[r]? = some tag

theorem Extends.refl (m : UserrefMap) : Extends m m := ⟨fun _ _ => id, fun _ _ => id⟩

theorem extends_insert {m : UserrefMap} {tag : String} {r : Int} (newTag : m.byTag[tag]? = none)
    (free : m.byRef[r]? = none) : Extends m (m.insert tag r) := by
  constructor
  · intro t x known
    rw [byTag_insert, if_neg, known]
    rintro rfl
    rw [newTag] at known
    cases known
  · intro x t known
    rw [byRef_insert, if_neg, known]
    rintro rfl
    rw [free] at known
    cases known

/-! ## Loading -/

theorem loadEntry_bijective {m m' : UserrefMap} {e : UserrefEntry} (h : Bijective m)
    (load : m.loadEntry e = .ok m') : Bijective m' := by
  unfold loadEntry at load
  split at load
  · cases load
  next named =>
      split at load
      · cases load
      next positive =>
          have range : 1 ≤ e.userref.val ∧ e.userref.val ≤ maxRef := by
            obtain ⟨lower, upper⟩ := e.userref.fits
            unfold maxRef
            omega
          split at load
          next newTag free =>
              cases load
              exact h.insert named range newTag free
          next r t _ _ =>
              split at load
              · cases load
                exact h
              · cases load
          next => cases load

theorem fromEntries_bijective {entries : List UserrefEntry} {m : UserrefMap}
    (load : fromEntries entries = .ok m) : Bijective m := by
  have fold : ∀ (entries : List UserrefEntry) (start m : UserrefMap), Bijective start →
      entries.foldlM loadEntry start = .ok m → Bijective m := by
    intro entries
    induction entries with
    | nil =>
        intro start m h load
        cases load
        exact h
    | cons e entries ih =>
        intro start m h load
        obtain ⟨next, first, rest⟩ := bind_eq_ok.1 load
        exact ih next m (loadEntry_bijective h first) rest
  exact fold entries new m new_bijective load

theorem loadEntry_of_extends {whole m : UserrefMap} (bijective : Bijective whole)
    (h : Bijective m) (part : Extends m whole) {e : UserrefEntry}
    (entry : whole.byTag[e.tag]? = some e.userref.val) :
    ∃ m', m.loadEntry e = .ok m' ∧ Bijective m' ∧ Extends m' whole ∧ Extends m m' ∧
      m'.byTag[e.tag]? = some e.userref.val := by
  have named : e.tag ≠ "" := by
    intro empty
    rw [empty] at entry
    exact bijective.nonempty _ entry
  have range := bijective.range _ _ entry
  have positive : ¬ e.userref.val < 1 := by omega
  have back := (bijective.inverse _ _).1 entry
  unfold loadEntry
  rw [if_neg named, if_neg positive]
  cases known : m.byTag[e.tag]? with
  | some r =>
      have same : r = e.userref.val := by
        have := part.byTag _ _ known
        rw [entry] at this
        exact (Option.some.inj this).symm
      subst same
      have reverse := (h.inverse _ _).1 known
      refine ⟨m, ?_, h, part, .refl m, known⟩
      simp [reverse]
  | none =>
      have free : m.byRef[e.userref.val]? = none := by
        cases owner : m.byRef[e.userref.val]? with
        | none => rfl
        | some t =>
            have same := part.byRef _ _ owner
            rw [back] at same
            obtain rfl := Option.some.inj same
            rw [(h.inverse _ _).2 owner] at known
            cases known
      refine ⟨m.insert e.tag e.userref.val, by simp [free],
        h.insert named range known free, ⟨?_, ?_⟩, extends_insert known free, ?_⟩
      · intro t x
        rw [byTag_insert]
        split
        next same =>
            rintro ⟨⟩
            exact same ▸ entry
        next => exact part.byTag t x
      · intro x t
        rw [byRef_insert]
        split
        next same =>
            rintro ⟨⟩
            exact same ▸ back
        next => exact part.byRef x t
      · rw [byTag_insert, if_pos rfl]

theorem Extends.trans {a b c : UserrefMap} (first : Extends a b) (second : Extends b c) :
    Extends a c :=
  ⟨fun t r h => second.byTag t r (first.byTag t r h), fun r t h => second.byRef r t (first.byRef r t h)⟩

theorem mem_entries {m : UserrefMap} (h : Bijective m) {e : UserrefEntry} :
    e ∈ m.entries ↔ m.byTag[e.tag]? = some e.userref.val := by
  have wrapped {tag : String} {r : Int} (known : m.byTag[tag]? = some r) :
      (SInt.wrapping r : SInt 32).val = r := by
    have range := h.range tag r known
    apply SInt.wrapping_val_of_fits
    unfold Fits maxRef at *
    omega
  simp only [entries, List.mem_map, Prod.exists]
  constructor
  · rintro ⟨tag, r, member, rfl⟩
    have known := Std.ExtTreeMap.mem_toList_iff_getElem?_eq_some.1 member
    rw [known, wrapped known]
  · intro known
    refine ⟨e.tag, e.userref.val, Std.ExtTreeMap.mem_toList_iff_getElem?_eq_some.2 known, ?_⟩
    have same : (SInt.wrapping e.userref.val : SInt 32) = e.userref := SInt.ext_val (wrapped known)
    rw [same]

theorem fromEntries_entries {m : UserrefMap} (h : Bijective m) : fromEntries m.entries = .ok m := by
  have fold : ∀ (entries : List UserrefEntry) (start : UserrefMap), Bijective start →
      Extends start m → (∀ e ∈ entries, m.byTag[e.tag]? = some e.userref.val) →
      ∃ out, entries.foldlM loadEntry start = .ok out ∧ Bijective out ∧ Extends out m ∧
        Extends start out ∧ ∀ e ∈ entries, out.byTag[e.tag]? = some e.userref.val := by
    intro entries
    induction entries with
    | nil =>
        intro start good part _
        exact ⟨start, rfl, good, part, .refl start, by simp⟩
    | cons e entries ih =>
        intro start good part known
        obtain ⟨next, load, nextGood, nextPart, grown, here⟩ :=
          loadEntry_of_extends h good part (known e (by simp))
        obtain ⟨out, rest, outGood, outPart, outGrown, all⟩ :=
          ih next nextGood nextPart fun e' member => known e' (by simp [member])
        refine ⟨out, bind_eq_ok.2 ⟨next, load, rest⟩, outGood, outPart, grown.trans outGrown, ?_⟩
        intro e' member
        rcases List.mem_cons.1 member with rfl | member
        · exact outGrown.byTag _ _ here
        · exact all e' member
  have emptyPart : Extends new m := by
    constructor <;> simp [new]
  obtain ⟨out, load, good, part, -, all⟩ :=
    fold m.entries new new_bijective emptyPart fun e member => (mem_entries h).1 member
  have same : out = m := by
    have tags : out.byTag = m.byTag := by
      apply Std.ExtTreeMap.ext_getElem?
      intro tag
      cases known : m.byTag[tag]? with
      | some r =>
          have range := h.range tag r known
          have fits : Fits 32 r := by
            unfold Fits maxRef at *
            omega
          exact all ⟨tag, ⟨r, fits⟩⟩ ((mem_entries h).2 known)
      | none =>
          cases other : out.byTag[tag]? with
          | none => rfl
          | some r =>
              rw [part.byTag tag r other] at known
              cases known
    have refs : out.byRef = m.byRef := by
      apply Std.ExtTreeMap.ext_getElem?
      intro r
      apply Option.ext
      intro tag
      rw [← good.inverse, ← h.inverse, tags]
    cases out
    cases m
    simp_all
  rw [← same]
  exact same ▸ load

/-! ## Assigning -/

section Assign

variable (sha256 : List UInt8 → Vector UInt8 32)

theorem freeRef_some {m : UserrefMap} {tag : String} {r : Int}
    (found : freeRef sha256 m tag = some r) :
    (1 ≤ r ∧ r ≤ maxRef) ∧ m.byRef[r]? = none := by
  have spec := probe_spec m.byRef.contains (candidate sha256 tag) (candidate sha256 tag)
    (candidate_range sha256 tag) (candidate_range sha256 tag)
  rw [← freeRef, found] at spec
  obtain ⟨low, high, free⟩ := spec
  exact ⟨⟨low, high⟩, Std.ExtTreeMap.getElem?_eq_none_of_contains_eq_false free⟩

theorem freeRef_none {m : UserrefMap} {tag : String} (gone : freeRef sha256 m tag = none) {r : Int}
    (low : 1 ≤ r) (high : r ≤ maxRef) : r ∈ m.byRef := by
  have spec := probe_spec m.byRef.contains (candidate sha256 tag) (candidate sha256 tag)
    (candidate_range sha256 tag) (candidate_range sha256 tag)
  rw [← freeRef, gone] at spec
  rw [← Std.ExtTreeMap.contains_iff_mem]
  exact spec r low high (probesLeft_le_start _ r)

/-- What one `assign` can do. -/
theorem assign_cases (m : UserrefMap) (tag : String) :
    (tag = "" ∧ assign sha256 m tag = (.error .emptyTag, m)) ∨
    (∃ r, m.byTag[tag]? = some r ∧ assign sha256 m tag = (.ok r, m)) ∨
    (∃ r, tag ≠ "" ∧ m.byTag[tag]? = none ∧ (1 ≤ r ∧ r ≤ maxRef) ∧ m.byRef[r]? = none ∧
      assign sha256 m tag = (.ok r, m.insert tag r)) ∨
    (tag ≠ "" ∧ m.byTag[tag]? = none ∧ (∀ r, 1 ≤ r → r ≤ maxRef → r ∈ m.byRef) ∧
      assign sha256 m tag = (.error .exhausted, m)) := by
  unfold assign
  by_cases empty : tag = ""
  · exact .inl ⟨empty, by rw [if_pos empty]⟩
  · rw [if_neg empty]
    cases known : m.byTag[tag]? with
    | some r => exact .inr (.inl ⟨r, rfl, rfl⟩)
    | none =>
        refine .inr (.inr ?_)
        cases found : freeRef sha256 m tag with
        | some r =>
            obtain ⟨range, free⟩ := freeRef_some sha256 found
            exact .inl ⟨r, empty, rfl, range, free, rfl⟩
        | none =>
            exact .inr ⟨empty, rfl, fun r low high => freeRef_none sha256 found low high, rfl⟩

theorem assign_bijective {m : UserrefMap} (h : Bijective m) (tag : String) :
    Bijective (assign sha256 m tag).2 := by
  rcases assign_cases sha256 m tag with
    ⟨-, result⟩ | ⟨r, -, result⟩ | ⟨r, named, newTag, range, free, result⟩ | ⟨-, -, -, result⟩
  · rw [result]
    exact h
  · rw [result]
    exact h
  · rw [result]
    exact h.insert named range newTag free
  · rw [result]
    exact h

theorem assign_extends (m : UserrefMap) (tag : String) : Extends m (assign sha256 m tag).2 := by
  rcases assign_cases sha256 m tag with
    ⟨-, result⟩ | ⟨r, -, result⟩ | ⟨r, -, newTag, -, free, result⟩ | ⟨-, -, -, result⟩
  · rw [result]
    exact .refl m
  · rw [result]
    exact .refl m
  · rw [result]
    exact extends_insert newTag free
  · rw [result]
    exact .refl m

/-- The table after a sequence of `assign` calls. -/
def assignAll (m : UserrefMap) (tags : List String) : UserrefMap :=
  run (fun m tag => (assign sha256 m tag).2) m tags

theorem assignAll_bijective (tags : List String) : ∀ {m : UserrefMap}, Bijective m →
    Bijective (assignAll sha256 m tags) := by
  induction tags with
  | nil =>
      intro m h
      exact h
  | cons tag tags ih =>
      intro m h
      exact ih (assign_bijective sha256 h tag)

theorem assign_recorded {m : UserrefMap} (h : Bijective m) {tag : String} {r : Int}
    (assigned : (assign sha256 m tag).1 = .ok r) :
    (assign sha256 m tag).2.byTag[tag]? = some r ∧ (assign sha256 m tag).2.byRef[r]? = some tag := by
  rcases assign_cases sha256 m tag with
    ⟨-, result⟩ | ⟨r', known, result⟩ | ⟨r', -, -, -, -, result⟩ | ⟨-, -, -, result⟩
  · rw [result] at assigned
    cases assigned
  · rw [result] at assigned ⊢
    cases assigned
    exact ⟨known, (h.inverse tag r).1 known⟩
  · rw [result] at assigned ⊢
    cases assigned
    exact ⟨by rw [byTag_insert, if_pos rfl], by rw [byRef_insert, if_pos rfl]⟩
  · rw [result] at assigned
    cases assigned

theorem assign_succeeds (m : UserrefMap) {tag : String} (named : tag ≠ "") {x : Int} (low : 1 ≤ x) (high : x ≤ maxRef)
    (free : x ∉ m.byRef) : ∃ r, (assign sha256 m tag).1 = .ok r := by
  rcases assign_cases sha256 m tag with
    ⟨empty, -⟩ | ⟨r, -, result⟩ | ⟨r, -, -, -, -, result⟩ | ⟨-, -, full, -⟩
  · exact absurd empty named
  · exact ⟨r, by rw [result]⟩
  · exact ⟨r, by rw [result]⟩
  · exact absurd (full x low high) free

/-- From an empty or a reloaded table, any sequence of `assign` calls leaves a
    bijection that assigns idempotently, never moves an entry, records what it assigns,
    gives up only when every reference is taken, and survives being written and reloaded. -/
theorem userref_map_stays_bijective (start : UserrefMap) (tags : List String)
    (origin : start = new ∨ ∃ entries, fromEntries entries = .ok start) :
    (∀ (tag : String) (r : Int), (assignAll sha256 start tags).byTag[tag]? = some r ↔
      (assignAll sha256 start tags).byRef[r]? = some tag) ∧
    (∀ (r : Int) (tag : String), (assignAll sha256 start tags).byRef[r]? = some tag →
      1 ≤ r ∧ r ≤ maxRef) ∧
    (∀ (tag : String) (r : Int), (assignAll sha256 start tags).byTag[tag]? = some r →
      assign sha256 (assignAll sha256 start tags) tag = (.ok r, assignAll sha256 start tags)) ∧
    (∀ tag : String, (assignAll sha256 start tags).byTag[tag]? = none →
      Extends (assignAll sha256 start tags) (assign sha256 (assignAll sha256 start tags) tag).2) ∧
    (∀ tag : String, (assign sha256 (assignAll sha256 start tags) tag).1 = .error .exhausted →
      ∀ r, 1 ≤ r → r ≤ maxRef → r ∈ (assignAll sha256 start tags).byRef) ∧
    (∀ (tag : String) (r : Int), (assign sha256 (assignAll sha256 start tags) tag).1 = .ok r →
      (assign sha256 (assignAll sha256 start tags) tag).2.byTag[tag]? = some r ∧
        (assign sha256 (assignAll sha256 start tags) tag).2.byRef[r]? = some tag) ∧
    (∀ (tag : String) (x : Int), tag ≠ "" → 1 ≤ x → x ≤ maxRef → x ∉ (assignAll sha256 start tags).byRef →
      ∃ r, (assign sha256 (assignAll sha256 start tags) tag).1 = .ok r) ∧
    fromEntries (assignAll sha256 start tags).entries = .ok (assignAll sha256 start tags) := by
  have startGood : Bijective start := by
    rcases origin with rfl | ⟨entries, load⟩
    · exact new_bijective
    · exact fromEntries_bijective load
  have good := assignAll_bijective sha256 tags startGood
  refine ⟨good.inverse, fun r tag owner => good.range tag r ((good.inverse tag r).2 owner), ?_,
    fun tag _ => assign_extends sha256 _ tag, ?_, fun tag r => assign_recorded sha256 good,
    fun tag x named low high => assign_succeeds sha256 _ named low high, fromEntries_entries good⟩
  · intro tag r known
    rcases assign_cases sha256 (assignAll sha256 start tags) tag with
      ⟨rfl, -⟩ | ⟨r', known', result⟩ | ⟨r', -, newTag, -⟩ | ⟨-, newTag, -⟩
    · exact absurd known (good.nonempty r)
    · rw [known] at known'
      obtain rfl := Option.some.inj known'
      exact result
    · rw [known] at newTag
      cases newTag
    · rw [known] at newTag
      cases newTag
  · intro tag failed
    rcases assign_cases sha256 (assignAll sha256 start tags) tag with
      ⟨-, result⟩ | ⟨r', -, result⟩ | ⟨r', -, -, -, -, result⟩ | ⟨-, -, full, -⟩
    · rw [result] at failed
      cases failed
    · rw [result] at failed
      cases failed
    · rw [result] at failed
      cases failed
    · exact full

end Assign

/-- The digest of the tag `order-1` under the scheme's prefix. -/
def orderOneDigest : Vector UInt8 32 :=
  #v[71, 30, 27, 9, 135, 243, 59, 27, 133, 58, 115, 179, 201, 60, 20, 83, 50, 210, 68, 140,
    217, 95, 243, 31, 228, 250, 183, 70, 100, 82, 157, 46]

/-- Two tags with one digest: the second gets the next reference, and both are reloaded. -/
theorem colliding_orders_reload :
    (assignAll (fun _ => orderOneDigest) new ["order-1", "order-2"]).byTag.toList =
        [("order-1", 1193155337), ("order-2", 1193155338)] ∧
      fromEntries (assignAll (fun _ => orderOneDigest) new ["order-1", "order-2"]).entries =
        .ok (assignAll (fun _ => orderOneDigest) new ["order-1", "order-2"]) := by
  refine ⟨?_, (userref_map_stays_bijective (fun _ => orderOneDigest) new ["order-1", "order-2"] (.inl rfl)).2.2.2.2.2.2.2⟩
  have hashed (tag : String) : candidate (fun _ => orderOneDigest) tag = 1193155337 := by
    rw [candidate, show headBits orderOneDigest = 1193155337 by decide]
    rfl
  have first : assign (fun _ => orderOneDigest) new "order-1" = (.ok 1193155337, new.insert "order-1" 1193155337) := by
    rw [assign, if_neg (by decide), show new.byTag["order-1"]? = none by simp [new], freeRef]
    simp only [hashed]
    rw [probe, if_neg (by decide +kernel)]
  have second : assign (fun _ => orderOneDigest) (new.insert "order-1" 1193155337) "order-2" =
      (.ok 1193155338, (new.insert "order-1" 1193155337).insert "order-2" 1193155338) := by
    rw [assign, if_neg (by decide), show (new.insert "order-1" 1193155337).byTag["order-2"]? = none by decide +kernel, freeRef]
    simp only [hashed]
    rw [probe, if_pos (by decide +kernel), dif_neg (by decide +kernel), probe, if_neg (by decide +kernel)]
    rfl
  show (assign _ (assign _ new "order-1").2 "order-2").2.byTag.toList = _
  rw [first, second]
  decide +kernel

end UserrefMap

end BrokerAdapters
