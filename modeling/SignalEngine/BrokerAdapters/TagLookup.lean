import SignalEngine.BrokerAdapters.Userref
import SignalEngine.BrokerAdapters.Order

/-! # Finding orders by their tag

The exchange knows an order by its reference, not by its tag. A process looks its
orders up through its own table, which starts empty and is filled in the order in
which the tags are first used.
-/

namespace BrokerAdapters

open UserrefMap

def UserrefError.display : UserrefError → String
  | emptyTag => "order tag must not be empty"
  | exhausted => "userref space exhausted"
  | outOfRange userref => s!"userref {userref} is outside 1..=2147483647"
  | conflict entry => s!"conflicting entries for {entry}"

structure KrakenOrder where
  brokerOrderId : String
  userref : Option Int
  isOpen : Bool
  deriving DecidableEq

/-- The answer to a query for the open or the closed orders with a reference. -/
def ordersWithUserref (account : List KrakenOrder) (isOpen : Bool) (userref : Int) :
    List KrakenOrder :=
  account.filter fun o => o.isOpen == isOpen && o.userref == some userref

def pushReport (out : List KrakenOrder) (r : KrakenOrder) : List KrakenOrder :=
  if out.any fun o => o.brokerOrderId == r.brokerOrderId then out else out ++ [r]

def findOrdersByTag (m : UserrefMap) (account : List KrakenOrder) (tag : String) :
    Except BrokerError (List KrakenOrder) :=
  match m.byTag[tag]? with
  | none => .error (.unknownTag tag)
  | some userref =>
      let out := (ordersWithUserref account false userref).foldl pushReport
        (ordersWithUserref account true userref)
      -- The filter of the exchange is not trusted.
      .ok (out.filter fun r => r.userref == some userref)

section Restart

variable (sha256 : List UInt8 → Vector UInt8 32)

def reserveUserref (m : UserrefMap) (tag : String) : Except BrokerError Int × UserrefMap :=
  match assign sha256 m tag with
  | (.ok r, m) => (.ok r, m)
  | (.error e, m) => (.error (.userref e.display), m)

/-- The look-up of the broker wrapper: the reference is reserved first. -/
def findByTag (m : UserrefMap) (account : List KrakenOrder) (tag : String) :
    Except BrokerError (List KrakenOrder) :=
  match reserveUserref sha256 m tag with
  | (.ok _, m) => findOrdersByTag m account tag
  | (.error e, _) => .error e

/-- The table of a process that started empty and used the tags in this order. -/
def reserved (tags : List String) : UserrefMap := assignAll sha256 new tags

/-- The orders of a process, each with the tag it was placed for and the reference the
    table of the process gives the tag. The exchange gives every order its own id. -/
structure PlacedBy (m : UserrefMap) (placed : List (String × KrakenOrder)) : Prop where
  referenced : ∀ entry ∈ placed, ∃ r, m.byTag[entry.1]? = some r ∧ entry.2.userref = some r
  distinct : (placed.map fun entry => entry.2.brokerOrderId).Nodup

/-- A process that used the tags in one order is found by one that uses them in another:
    every tag has the same reference, and a look-up returns the orders placed for the
    tag, each once, and no other. -/
def SurvivesRestart (first second : List String) : Prop :=
  ∀ tag ∈ first, (reserved sha256 first).byTag[tag]? = (reserved sha256 second).byTag[tag]? ∧
    (tag ≠ "" → ∀ placed, PlacedBy (reserved sha256 first) placed →
      ∃ found, findByTag sha256 (reserved sha256 second) (placed.map Prod.snd) tag = .ok found ∧
        found.Nodup ∧ ∀ o, o ∈ found ↔ (tag, o) ∈ placed)

/-- No two of the tags have the same first choice. -/
def Apart (tags : Finset String) : Prop :=
  ∀ a ∈ tags, ∀ b ∈ tags, a ≠ "" → b ≠ "" → candidate sha256 a = candidate sha256 b → a = b

/-! ## Tags that are apart -/

def Direct (tags : Finset String) (m : UserrefMap) : Prop :=
  ∀ (tag : String) (r : Int), m.byTag[tag]? = some r → tag ∈ tags ∧ r = candidate sha256 tag

variable {sha256}

variable (order : List String) {m : UserrefMap} {account : List KrakenOrder} {tag : String} {tags : Finset String}

theorem freeRef_candidate (free : m.byRef[candidate sha256 tag]? = none) :
    freeRef sha256 m tag = some (candidate sha256 tag) := by
  have gone : m.byRef.contains (candidate sha256 tag) = false := by
    rw [Std.ExtTreeMap.contains_eq_isSome_getElem?, free]
    rfl
  unfold freeRef
  rw [probe, if_neg (by simp [gone])]

theorem assign_candidate (named : tag ≠ "") (newTag : m.byTag[tag]? = none)
    (free : m.byRef[candidate sha256 tag]? = none) :
    assign sha256 m tag = (.ok (candidate sha256 tag), m.insert tag (candidate sha256 tag)) := by
  unfold assign
  rw [if_neg named, newTag, freeRef_candidate free]

theorem assign_direct (apart : Apart sha256 tags) {m : UserrefMap} (bijective : Bijective m)
    (direct : Direct sha256 tags m) {tag : String} (member : tag ∈ tags) :
    Direct sha256 tags (assign sha256 m tag).2 ∧
      (tag ≠ "" → (assign sha256 m tag).2.byTag[tag]? = some (candidate sha256 tag)) := by
  by_cases named : tag = ""
  · refine ⟨?_, fun other => absurd named other⟩
    rw [assign, if_pos named]
    exact direct
  · cases known : m.byTag[tag]? with
    | some r =>
        have same : assign sha256 m tag = (.ok r, m) := by rw [assign, if_neg named, known]
        rw [same]
        exact ⟨direct, fun _ => by rw [known, (direct tag r known).2]⟩
    | none =>
        have free : m.byRef[candidate sha256 tag]? = none := by
          by_contra owned
          obtain ⟨owner, owns⟩ := Option.ne_none_iff_exists'.1 owned
          have entry := (bijective.inverse owner _).2 owns
          obtain ⟨inside, same⟩ := direct owner _ entry
          have ownerNamed : owner ≠ "" := by
            rintro rfl
            exact bijective.nonempty _ entry
          obtain rfl := apart tag member owner inside named ownerNamed same
          rw [known] at entry
          cases entry
        rw [assign_candidate named known free]
        refine ⟨?_, fun _ => by rw [byTag_insert, if_pos rfl]⟩
        intro t r entry
        rw [byTag_insert] at entry
        split at entry
        next here =>
            cases entry
            exact ⟨here ▸ member, by rw [here]⟩
        next => exact direct t r entry

theorem assignAll_extends (m : UserrefMap) : Extends m (assignAll sha256 m order) := by
  induction order generalizing m with
  | nil => exact .refl m
  | cons tag order ih => exact (assign_extends sha256 m tag).trans (ih _)

theorem assignAll_direct {tags : Finset String} (apart : Apart sha256 tags) (order : List String)
    (inside : ∀ t ∈ order, t ∈ tags) (m : UserrefMap) (bijective : Bijective m)
    (direct : Direct sha256 tags m) : Direct sha256 tags (assignAll sha256 m order) ∧
      ∀ t ∈ order, t ≠ "" → (assignAll sha256 m order).byTag[t]? = some (candidate sha256 t) := by
  induction order generalizing m with
  | nil => exact ⟨direct, by simp⟩
  | cons tag order ih =>
      obtain ⟨here, assigned⟩ := assign_direct apart bijective direct (inside tag (by simp))
      obtain ⟨final, rest⟩ := ih (fun t member => inside t (by simp [member])) _
        (assign_bijective sha256 bijective tag) here
      refine ⟨final, ?_⟩
      intro t member named
      rcases List.mem_cons.1 member with rfl | later
      -- What is assigned now is never moved.
      · exact (assignAll_extends order _).byTag t _ (assigned named)
      · exact rest t later named

theorem reserved_bijective : Bijective (reserved sha256 order) :=
  assignAll_bijective sha256 order new_bijective

/-- Tags that are apart get their first choices in whatever order they are used. -/
theorem reserved_direct (apart : Apart sha256 tags) {order : List String} (inside : ∀ t ∈ order, t ∈ tags)
    {tag : String} (member : tag ∈ order) (named : tag ≠ "") :
    (reserved sha256 order).byTag[tag]? = some (candidate sha256 tag) := by
  have empty : Direct sha256 tags new := by
    intro t r entry
    simp [new] at entry
  exact (assignAll_direct apart order inside new new_bijective empty).2 tag member named

theorem reserved_unnamed : (reserved sha256 order).byTag[""]? = none := by
  by_contra known
  obtain ⟨r, entry⟩ := Option.ne_none_iff_exists'.1 known
  exact (reserved_bijective order).nonempty r entry

/-! ## The look-up -/

theorem foldl_pushReport (later : List KrakenOrder) : ∀ out : List KrakenOrder,
    ((out ++ later).map KrakenOrder.brokerOrderId).Nodup → later.foldl pushReport out = out ++ later := by
  induction later with
  | nil => simp
  | cons r later ih =>
      intro out distinct
      have absent : (out.any fun o => o.brokerOrderId == r.brokerOrderId) = false := by
        rw [List.any_eq_false]
        intro o member same
        rw [List.map_append, List.nodup_append] at distinct
        exact distinct.2.2 _ (List.mem_map_of_mem member) r.brokerOrderId (by simp) (by simpa using same)
      rw [List.foldl_cons, pushReport, if_neg (by simp [absent]), ih]
      · simp
      · simpa using distinct

theorem ordersWithUserref_perm (account : List KrakenOrder) (r : Int) :
    (ordersWithUserref account true r ++ ordersWithUserref account false r).Perm
      (account.filter fun o => o.userref == some r) := by
  have opened : ordersWithUserref account true r =
      (account.filter fun o => o.userref == some r).filter KrakenOrder.isOpen := by
    rw [List.filter_filter]
    apply List.filter_congr
    intro o _
    simp
  have closed : ordersWithUserref account false r =
      (account.filter fun o => o.userref == some r).filter fun o => !o.isOpen := by
    rw [List.filter_filter]
    apply List.filter_congr
    intro o _
    simp
  rw [opened, closed]
  exact List.filter_append_perm _ _

theorem findOrdersByTag_known {r : Int} (known : m.byTag[tag]? = some r)
    (distinct : (account.map KrakenOrder.brokerOrderId).Nodup) :
    ∃ found, findOrdersByTag m account tag = .ok found ∧ found.Nodup ∧
      ∀ o, o ∈ found ↔ o ∈ account ∧ o.userref = some r := by
  have perm := ordersWithUserref_perm account r
  have kept : ((account.filter fun o => o.userref == some r).map KrakenOrder.brokerOrderId).Nodup :=
    (List.filter_sublist.map _).nodup distinct
  have taken := foldl_pushReport (ordersWithUserref account false r) (ordersWithUserref account true r)
    ((perm.map _).nodup_iff.2 kept)
  have all : ∀ o ∈ ordersWithUserref account true r ++ ordersWithUserref account false r,
      (o.userref == some r) = true := by
    intro o member
    exact (List.mem_filter.1 (perm.mem_iff.1 member)).2
  refine ⟨ordersWithUserref account true r ++ ordersWithUserref account false r, ?_, ?_, ?_⟩
  · rw [findOrdersByTag, known]
    simp only [taken, List.filter_eq_self.2 all]
  · exact perm.nodup_iff.2 kept.of_map
  · intro o
    rw [perm.mem_iff, List.mem_filter, beq_iff_eq]

theorem findByTag_known {r : Int} (named : tag ≠ "") (known : m.byTag[tag]? = some r) :
    findByTag sha256 m account tag = findOrdersByTag m account tag := by
  rw [findByTag, reserveUserref, assign, if_neg named, known]

theorem findByTag_placed {first second : UserrefMap} (bijective : Bijective first)
    {placed : List (String × KrakenOrder)} (orders : PlacedBy first placed) {tag : String} {r : Int}
    (named : tag ≠ "") (before : first.byTag[tag]? = some r) (after : second.byTag[tag]? = some r) :
    ∃ found, findByTag sha256 second (placed.map Prod.snd) tag = .ok found ∧ found.Nodup ∧
      ∀ o, o ∈ found ↔ (tag, o) ∈ placed := by
  have distinct : ((placed.map Prod.snd).map KrakenOrder.brokerOrderId).Nodup := by
    rw [List.map_map]
    exact orders.distinct
  obtain ⟨found, result, once, members⟩ := findOrdersByTag_known after distinct
  refine ⟨found, by rw [findByTag_known named after, result], once, ?_⟩
  intro o
  rw [members, List.mem_map]
  constructor
  · rintro ⟨⟨⟨t, o⟩, member, rfl⟩, ref⟩
    obtain ⟨r', entry, same⟩ := orders.referenced _ member
    obtain rfl := Option.some.inj (ref.symm.trans same)
    -- One reference belongs to one tag.
    have owner := (bijective.inverse t r).1 entry
    rw [(bijective.inverse tag r).1 before] at owner
    cases owner
    exact member
  · intro member
    obtain ⟨r', entry, same⟩ := orders.referenced _ member
    obtain rfl := Option.some.inj (before.symm.trans entry)
    exact ⟨⟨(tag, o), member, rfl⟩, same⟩

theorem apart_survives (apart : Apart sha256 tags) {first second : List String} (before : ∀ t, t ∈ first ↔ t ∈ tags)
    (after : ∀ t, t ∈ second ↔ t ∈ tags) :
    SurvivesRestart sha256 first second := by
  intro tag member
  have insideFirst : ∀ t ∈ first, t ∈ tags := fun t => (before t).1
  have insideSecond : ∀ t ∈ second, t ∈ tags := fun t => (after t).1
  have again : tag ∈ second := (after tag).2 (insideFirst tag member)
  by_cases named : tag = ""
  · subst named
    exact ⟨by rw [reserved_unnamed, reserved_unnamed], fun other => absurd rfl other⟩
  · have old := reserved_direct apart insideFirst member named
    have new := reserved_direct apart insideSecond again named
    exact ⟨old.trans new.symm, fun _ placed orders =>
      findByTag_placed (reserved_bijective first) orders named old new⟩

/-! ## Tags that are not -/

theorem reserved_head (named : tag ≠ "") (rest : List String) :
    (reserved sha256 (tag :: rest)).byTag[tag]? = some (candidate sha256 tag) := by
  have fresh : assign sha256 new tag = (.ok (candidate sha256 tag), new.insert tag (candidate sha256 tag)) :=
    assign_candidate named (by simp [new]) (by simp [new])
  have first : (assign sha256 new tag).2.byTag[tag]? = some (candidate sha256 tag) := by
    rw [fresh, byTag_insert, if_pos rfl]
  exact (assignAll_extends rest _).byTag tag _ first

theorem collision_moves {a b : String} (aNamed : a ≠ "") (bNamed : b ≠ "") (other : a ≠ b)
    (same : candidate sha256 a = candidate sha256 b) (rest : List String) :
    (reserved sha256 (a :: b :: rest)).byTag[a]? ≠ (reserved sha256 (b :: a :: rest)).byTag[a]? := by
  intro equal
  rw [reserved_head aNamed, same] at equal
  have owner := ((reserved_bijective (b :: a :: rest)).inverse a _).1 equal.symm
  rw [((reserved_bijective (b :: a :: rest)).inverse b _).1 (reserved_head bNamed _)] at owner
  exact other (Option.some.inj owner).symm

end Restart

/-- A restarted process finds its orders, in whatever order it uses a set of tags again,
    exactly when no two of the tags have the same first choice. -/
theorem tag_lookup_survives_restart_iff (sha256 : List UInt8 → Vector UInt8 32) (tags : Finset String) :
    (∀ first second : List String, (∀ t, t ∈ first ↔ t ∈ tags) → (∀ t, t ∈ second ↔ t ∈ tags) →
      SurvivesRestart sha256 first second) ↔ Apart sha256 tags := by
  constructor
  · intro survives a aMember b bMember aNamed bNamed same
    by_contra other
    have covers : ∀ x y : String, x ∈ tags → y ∈ tags → ∀ t, t ∈ x :: y :: tags.toList ↔ t ∈ tags := by
      intro x y xMember yMember t
      simp only [List.mem_cons, Finset.mem_toList]
      constructor
      · rintro (rfl | rfl | member)
        · exact xMember
        · exact yMember
        · exact member
      · exact fun member => .inr (.inr member)
    have kept := survives (a :: b :: tags.toList) (b :: a :: tags.toList)
      (covers a b aMember bMember) (covers b a bMember aMember) a (by simp)
    exact collision_moves aNamed bNamed other same tags.toList kept.1
  · exact fun apart first second before after => apart_survives apart before after

section Sample

private def early : String := "rb1:20260105T000000Z:S9809:buy:1d4a65a41da076f1ca9d"

private def late : String := "rb1:20260105T000000Z:S22705:buy:b24ddf748b14a10c3e14"

/-- The digests of two tags under the scheme's prefix. Their first four bytes agree. -/
private def twoTags (text : List UInt8) : Vector UInt8 32 :=
  if text = "mendl-userref-v1\x00".toUTF8.toList ++ early.toUTF8.toList then
    #v[43, 52, 238, 146, 54, 153, 75, 250, 155, 137, 98, 58, 198, 91, 4, 60, 50, 132, 223, 204, 219, 13,
      147, 113, 219, 231, 33, 117, 34, 103, 133, 98]
  else
    #v[43, 52, 238, 146, 127, 13, 46, 220, 170, 170, 159, 13, 106, 216, 50, 224, 176, 146, 105, 165, 240,
      228, 121, 147, 19, 46, 194, 152, 116, 151, 45, 106]

private theorem candidate_early : candidate twoTags early = 724889234 := by decide +kernel

private theorem candidate_late : candidate twoTags late = 724889234 := by decide +kernel

private theorem late_moves : (reserved twoTags [early, late]).byTag[late]? = some 724889235 := by
  have first : assign twoTags new early = (.ok 724889234, new.insert early 724889234) := by
    rw [← candidate_early]
    exact assign_candidate (by decide) (by simp [new]) (by simp [new])
  have moved : freeRef twoTags (new.insert early 724889234) late = some 724889235 := by
    unfold freeRef
    simp only [candidate_late]
    rw [probe, if_pos (by decide +kernel), dif_neg (by decide +kernel), probe, if_neg (by decide +kernel)]
    rfl
  have second : assign twoTags (new.insert early 724889234) late =
      (.ok 724889235, (new.insert early 724889234).insert late 724889235) := by
    have unknown : (new.insert early 724889234).byTag[late]? = none := by decide +kernel
    rw [assign, if_neg (by decide), unknown, moved]
  show (assign twoTags (assign twoTags new early).2 late).2.byTag[late]? = _
  rw [first, second, byTag_insert, if_pos rfl]

/-- The first process placed an order for each tag; the second, which looks for the later
    tag first, takes the order of the earlier tag for it. -/
theorem restarted_process_finds_another_order :
    ∃ placed, PlacedBy (reserved twoTags [early, late]) placed ∧
      (reserved twoTags [early, late]).byTag[late]? ≠ (reserved twoTags [late, early]).byTag[late]? ∧
      (late, ⟨"O1", some 724889234, true⟩) ∉ placed ∧
      findByTag twoTags new (placed.map Prod.snd) late = .ok [⟨"O1", some 724889234, true⟩] := by
  have fresh : assign twoTags new late = (.ok 724889234, new.insert late 724889234) := by
    rw [← candidate_late]
    exact assign_candidate (by decide) (by simp [new]) (by simp [new])
  refine ⟨[(early, ⟨"O1", some 724889234, true⟩), (late, ⟨"O2", some 724889235, true⟩)],
    ⟨?_, by decide⟩, ?_, by decide, ?_⟩
  · intro entry member
    rcases List.mem_pair.1 member with rfl | rfl
    · exact ⟨724889234, by rw [reserved_head (by decide), candidate_early], rfl⟩
    · exact ⟨724889235, late_moves, rfl⟩
  · rw [late_moves, reserved_head (by decide), candidate_late]
    decide
  · have known : (new.insert late 724889234).byTag[late]? = some 724889234 := by
      rw [byTag_insert, if_pos rfl]
    rw [findByTag, reserveUserref, fresh]
    simp only [findOrdersByTag, known]
    decide

end Sample

end BrokerAdapters
