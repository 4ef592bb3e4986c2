import SignalEngine.ExecutionHandler.RiskControls
import SignalEngine.Lib.Runs
import Mathlib.Algebra.BigOperators.Field
import Mathlib.Data.Sym.Sym2
import Mathlib.Tactic.FieldSimp

/-! # Pair links

Two legs are linked to each other when they are one hedged pair. The links are a
matching as long as no leg is linked again before its pair is unlinked, and then the
netted exposure does not depend on the order in which the positions are walked.
-/

namespace ExecutionHandler

/-! ## Links -/

inductive LinkCall where
  | registerPairLink (legA legB : PositionKey)
  | unregisterPairLink (legA : PositionKey)

def registerPairLink (links : PairLinkMap) (legA legB : PositionKey) : PairLinkMap :=
  (links.insert legA legB).insert legB legA

def unregisterPairLink (links : PairLinkMap) (legA : PositionKey) : PairLinkMap :=
  match links.get legA with
  | none => links
  | some legB => (links.erase legA).erase legB

def linkStep (links : PairLinkMap) : LinkCall → PairLinkMap
  | .registerPairLink legA legB => registerPairLink links legA legB
  | .unregisterPairLink legA => unregisterPairLink links legA

/-- Siblings are each other's siblings, and no leg is its own. -/
structure IsMatching (links : PairLinkMap) : Prop where
  symm : ∀ a b, links.get a = some b → links.get b = some a
  irrefl : ∀ a, links.get a ≠ some a

/-- The legs differ, and each is unlinked or already the sibling of the other. -/
def LinkCall.Fresh (links : PairLinkMap) : LinkCall → Prop
  | .registerPairLink legA legB =>
      legA ≠ legB ∧ (∀ b, links.get legA = some b → b = legB) ∧ ∀ a, links.get legB = some a → a = legA
  | .unregisterPairLink _ => True

section Links

variable {links : PairLinkMap} {a b : PositionKey}

theorem isMatching_empty : IsMatching .empty := ⟨by simp, by simp⟩

theorem get_register (links : PairLinkMap) (a b k : PositionKey) :
    (registerPairLink links a b).get k = if k = b then some a else if k = a then some b else links.get k := by
  rw [registerPairLink, Registry.get_insert, Registry.get_insert]

/-- From a matching, linking two legs gives a matching exactly when they are fresh. -/
theorem isMatching_register_iff (matching : IsMatching links) :
    IsMatching (registerPairLink links a b) ↔ (LinkCall.registerPairLink a b).Fresh links := by
  constructor
  · intro after
    have apart : a ≠ b := by
      rintro rfl
      exact after.irrefl a (by simp [get_register])
    refine ⟨apart, fun c linked => ?_, fun c linked => ?_⟩
    · -- the old sibling of `a` still points at it
      by_contra other
      have back := matching.symm a c linked
      have own : c ≠ a := fun same => matching.irrefl a (same ▸ linked)
      have still : (registerPairLink links a b).get c = some a := by
        rw [get_register, if_neg other, if_neg own, back]
      have new := after.symm c a still
      rw [get_register, if_neg apart, if_pos rfl] at new
      exact other (Option.some.inj new).symm
    · by_contra other
      have back := matching.symm b c linked
      have own : c ≠ b := fun same => matching.irrefl b (same ▸ linked)
      have still : (registerPairLink links a b).get c = some b := by
        rw [get_register, if_neg own, if_neg other, back]
      have new := after.symm c b still
      rw [get_register, if_pos rfl] at new
      exact other (Option.some.inj new).symm
  · rintro ⟨apart, onlyA, onlyB⟩
    constructor
    · intro c d linked
      rw [get_register] at linked ⊢
      split at linked
      next here =>
        subst here
        obtain rfl := Option.some.inj linked
        rw [if_neg apart, if_pos rfl]
      next notB =>
        split at linked
        next here =>
          subst here
          obtain rfl := Option.some.inj linked
          rw [if_pos rfl]
        next notA =>
          have back := matching.symm c d linked
          by_cases dB : d = b
          · subst dB
            exact absurd (onlyB c back) notA
          · by_cases dA : d = a
            · subst dA
              exact absurd (onlyA c back) notB
            · rw [if_neg dB, if_neg dA, back]
    · intro c linked
      rw [get_register] at linked
      split at linked
      next here => exact apart ((Option.some.inj linked).trans here)
      next notB =>
        split at linked
        next here => exact notB (Option.some.inj linked).symm
        next => exact matching.irrefl c linked

theorem isMatching_unregister (matching : IsMatching links) (a : PositionKey) : IsMatching (unregisterPairLink links a) := by
  unfold unregisterPairLink
  split
  next => exact matching
  next b linked =>
    have back := matching.symm a b linked
    constructor
    · intro c d kept
      rw [Registry.get_erase, Registry.get_erase] at kept ⊢
      split at kept
      next => cases kept
      next notB =>
        split at kept
        next => cases kept
        next notA =>
          have other := matching.symm c d kept
          have dB : d ≠ b := by
            rintro rfl
            rw [back] at other
            exact notA (Option.some.inj other).symm
          have dA : d ≠ a := by
            rintro rfl
            rw [linked] at other
            exact notB (Option.some.inj other).symm
          rw [if_neg dB, if_neg dA, other]
    · intro c kept
      rw [Registry.get_erase, Registry.get_erase] at kept
      split at kept
      next => cases kept
      next =>
        split at kept
        next => cases kept
        next => exact matching.irrefl c kept

theorem linkStep_isMatching_iff (matching : IsMatching links) (call : LinkCall) :
    IsMatching (linkStep links call) ↔ call.Fresh links := by
  cases call with
  | registerPairLink a b => exact isMatching_register_iff matching
  | unregisterPairLink a => exact iff_of_true (isMatching_unregister matching a) trivial

end Links

/-! ## Exposure -/

section Exposure

variable (positions : PositionMap) (links : PairLinkMap)

def openSibling (key : PositionKey) : Option PositionKey :=
  if (positions.get key).isSome then (links.get key).filter fun sibling => (positions.get sibling).isSome else none

def signedAt (key : PositionKey) : ℚ := ((positions.get key).map fun p => signedNotional p.1 p.2).getD 0

def valueAt (key : PositionKey) : ℚ := ((positions.get key).map Prod.snd).getD 0

def pairExposure : Sym2 PositionKey → ℚ :=
  Sym2.lift ⟨fun a b => |signedAt positions a + signedAt positions b|, fun a b => by dsimp only; rw [add_comm]⟩

/-- The legs that are linked to a leg that is open as well. -/
def paired : Finset PositionKey := positions.keys.toFinset.filter fun key => (openSibling positions links key).isSome

def unpaired : Finset PositionKey := positions.keys.toFinset.filter fun key => ¬ (openSibling positions links key).isSome

def pairOf (key : PositionKey) : Sym2 PositionKey := s(key, (openSibling positions links key).getD key)

def pairedExposure : ℚ :=
  ∑ pair ∈ (paired positions links).image (pairOf positions links), pairExposure positions pair +
    ∑ key ∈ unpaired positions links, valueAt positions key

/-- What a position brings to the exposure: half of its pair, or its value. -/
def shareOf (key : PositionKey) : ℚ :=
  match openSibling positions links key with
  | some sibling => |signedAt positions key + signedAt positions sibling| / 2
  | none => valueAt positions key

end Exposure

section Matching

variable {positions : PositionMap} {links : PairLinkMap} {a b : PositionKey}

theorem openSibling_eq_some : openSibling positions links a = some b ↔
    (positions.get a).isSome ∧ links.get a = some b ∧ (positions.get b).isSome := by
  unfold openSibling
  split
  next isOpen => simp [isOpen, Option.filter_eq_some_iff]
  next closed => simp [closed]

theorem IsMatching.openSibling_symm (matching : IsMatching links) (siblings : openSibling positions links a = some b) :
    openSibling positions links b = some a ∧ b ≠ a := by
  obtain ⟨openA, linked, openB⟩ := openSibling_eq_some.1 siblings
  refine ⟨openSibling_eq_some.2 ⟨openB, matching.symm a b linked, openA⟩, ?_⟩
  rintro rfl
  exact matching.irrefl b linked

theorem pairOf_eq_iff (matching : IsMatching links) (siblings : openSibling positions links a = some b)
    {k : PositionKey} (linked : (openSibling positions links k).isSome) :
    pairOf positions links k = pairOf positions links a ↔ k = a ∨ k = b := by
  obtain ⟨back, -⟩ := matching.openSibling_symm siblings
  obtain ⟨l, sibling⟩ := Option.isSome_iff_exists.1 linked
  rw [pairOf, pairOf, siblings, sibling, Option.getD_some, Option.getD_some, Sym2.eq_iff]
  constructor
  · rintro (⟨rfl, -⟩ | ⟨rfl, -⟩)
    · exact .inl rfl
    · exact .inr rfl
  · rintro (rfl | rfl)
    · exact .inl ⟨rfl, Option.some.inj (sibling.symm.trans siblings)⟩
    · exact .inr ⟨rfl, Option.some.inj (sibling.symm.trans back)⟩

theorem sum_pairs (matching : IsMatching links) :
    ∑ pair ∈ (paired positions links).image (pairOf positions links), pairExposure positions pair =
      ∑ key ∈ paired positions links, shareOf positions links key := by
  have twice : ∑ key ∈ paired positions links, pairExposure positions (pairOf positions links key) =
      ∑ pair ∈ (paired positions links).image (pairOf positions links), 2 * pairExposure positions pair := by
    rw [Finset.sum_comp]
    apply Finset.sum_congr rfl
    intro pair member
    obtain ⟨k, inPaired, rfl⟩ := Finset.mem_image.1 member
    obtain ⟨-, linked⟩ := Finset.mem_filter.1 inPaired
    obtain ⟨sibling, siblings⟩ := Option.isSome_iff_exists.1 linked
    obtain ⟨back, other⟩ := matching.openSibling_symm siblings
    have legs : (paired positions links).filter (fun j => pairOf positions links j = pairOf positions links k) =
        {k, sibling} := by
      ext j
      rw [Finset.mem_filter, Finset.mem_insert, Finset.mem_singleton]
      constructor
      · rintro ⟨inside, same⟩
        exact (pairOf_eq_iff matching siblings (Finset.mem_filter.1 inside).2).1 same
      · intro leg
        have linkedJ : (openSibling positions links j).isSome := by
          rcases leg with rfl | rfl
          · exact linked
          · rw [back]
            rfl
        have openJ : (positions.get j).isSome := by
          obtain ⟨l, found⟩ := Option.isSome_iff_exists.1 linkedJ
          exact (openSibling_eq_some.1 found).1
        refine ⟨Finset.mem_filter.2 ⟨?_, linkedJ⟩, (pairOf_eq_iff matching siblings linkedJ).2 leg⟩
        rw [List.mem_toFinset, positions.mem_keys]
        exact openJ
    rw [legs, Finset.card_pair other.symm, two_nsmul, two_mul]
  have halves : ∑ key ∈ paired positions links, shareOf positions links key =
      ∑ key ∈ paired positions links, pairExposure positions (pairOf positions links key) / 2 := by
    apply Finset.sum_congr rfl
    intro k inPaired
    obtain ⟨sibling, siblings⟩ := Option.isSome_iff_exists.1 (Finset.mem_filter.1 inPaired).2
    rw [shareOf, pairOf, siblings]
    rfl
  rw [halves, ← Finset.sum_div, twice, ← Finset.mul_sum]
  field_simp

theorem pairedExposure_eq (matching : IsMatching links) :
    pairedExposure positions links = ∑ key ∈ positions.keys.toFinset, shareOf positions links key := by
  have alone : ∑ key ∈ unpaired positions links, valueAt positions key =
      ∑ key ∈ unpaired positions links, shareOf positions links key := by
    apply Finset.sum_congr rfl
    intro k member
    have none : openSibling positions links k = none := by
      simpa using (Finset.mem_filter.1 member).2
    rw [shareOf, none]
  rw [pairedExposure, sum_pairs matching, alone]
  exact Finset.sum_filter_add_sum_filter_not _ _ _

/-! ## The walk -/

def visit {F : Type} [FloatLike F] (positions : Registry PositionKey (F × F)) (links : PairLinkMap)
    (seen : List PositionKey × F) (key : PositionKey) : List PositionKey × F :=
  if key ∈ seen.1 then seen
  else
    match positions.get key with
    | none => seen
    | some (qty, value) =>
        match (links.get key).bind fun sibling => (positions.get sibling).map (sibling, ·) with
        | some (sibling, sibQty, sibValue) =>
            (sibling :: key :: seen.1,
              seen.2 + FloatLike.abs (signedNotional qty value + signedNotional sibQty sibValue))
        | none => (key :: seen.1, seen.2 + value)

theorem nettedPortfolioExposure_eq {F : Type} [FloatLike F] (order : List PositionKey)
    (positions : Registry PositionKey (F × F)) (links : PairLinkMap) :
    nettedPortfolioExposure order positions links = (order.foldl (visit positions links) ([], 0)).2 := rfl

theorem visit_pair {seen : List PositionKey × ℚ} (fresh : a ∉ seen.1) (siblings : openSibling positions links a = some b) :
    visit positions links seen a = (b :: a :: seen.1, seen.2 + |signedAt positions a + signedAt positions b|) := by
  obtain ⟨openA, linked, openB⟩ := openSibling_eq_some.1 siblings
  obtain ⟨p, here⟩ := Option.isSome_iff_exists.1 openA
  obtain ⟨q, there⟩ := Option.isSome_iff_exists.1 openB
  simp [visit, fresh, here, there, linked, signedAt]

theorem visit_single {seen : List PositionKey × ℚ} (fresh : a ∉ seen.1) (isOpen : (positions.get a).isSome)
    (alone : openSibling positions links a = none) :
    visit positions links seen a = (a :: seen.1, seen.2 + valueAt positions a) := by
  obtain ⟨p, here⟩ := Option.isSome_iff_exists.1 isOpen
  have none : ((links.get a).bind fun sibling => (positions.get sibling).map (sibling, ·)) = none := by
    cases linked : links.get a with
    | none => rfl
    | some b =>
        cases there : positions.get b with
        | none => simp [there]
        | some q =>
            have siblings := openSibling_eq_some.2 ⟨isOpen, linked, by rw [there]; rfl⟩
            rw [alone] at siblings
            cases siblings
  simp [visit, fresh, here, none, valueAt]

/-- What was walked is counted, and with a leg its open sibling. -/
structure Walked (positions : PositionMap) (links : PairLinkMap) (done : List PositionKey) (seen : List PositionKey × ℚ) :
    Prop where
  closed : ∀ a ∈ seen.1, ∀ b, openSibling positions links a = some b → b ∈ seen.1
  total : seen.2 = ∑ key ∈ seen.1.toFinset, shareOf positions links key
  opened : ∀ a ∈ seen.1, (positions.get a).isSome
  counted : ∀ a ∈ done, (positions.get a).isSome → a ∈ seen.1

theorem Walked.visit (matching : IsMatching links) {done : List PositionKey} {seen : List PositionKey × ℚ}
    (walked : Walked positions links done seen) (a : PositionKey) :
    Walked positions links (done ++ [a]) (ExecutionHandler.visit positions links seen a) := by
  by_cases known : a ∈ seen.1
  · rw [ExecutionHandler.visit, if_pos known]
    refine ⟨walked.closed, walked.total, walked.opened, fun k member isOpen => ?_⟩
    rcases List.mem_append.1 member with before | here
    · exact walked.counted k before isOpen
    · obtain rfl := List.mem_singleton.1 here
      exact known
  · cases here : positions.get a with
    | none =>
        have same : ExecutionHandler.visit positions links seen a = seen := by
          simp [ExecutionHandler.visit, known, here]
        rw [same]
        refine ⟨walked.closed, walked.total, walked.opened, fun k member isOpen => ?_⟩
        rcases List.mem_append.1 member with before | last
        · exact walked.counted k before isOpen
        · obtain rfl := List.mem_singleton.1 last
          rw [here] at isOpen
          cases isOpen
    | some p =>
        have isOpen : (positions.get a).isSome := by rw [here]; rfl
        cases siblings : openSibling positions links a with
        | none =>
            rw [visit_single known isOpen siblings]
            constructor
            case closed =>
              intro k member b linked
              rcases List.mem_cons.1 member with rfl | before
              · rw [siblings] at linked
                cases linked
              · exact List.mem_cons_of_mem _ (walked.closed k before b linked)
            case total =>
              rw [List.toFinset_cons, Finset.sum_insert (by simpa using known), walked.total, shareOf, siblings, add_comm]
            case opened =>
              intro k member
              rcases List.mem_cons.1 member with rfl | before
              · exact isOpen
              · exact walked.opened k before
            case counted =>
              intro k member openK
              rcases List.mem_append.1 member with before | last
              · exact List.mem_cons_of_mem _ (walked.counted k before openK)
              · obtain rfl := List.mem_singleton.1 last
                exact List.mem_cons_self
        | some b =>
            obtain ⟨back, other⟩ := matching.openSibling_symm siblings
            obtain ⟨-, -, openB⟩ := openSibling_eq_some.1 siblings
            -- a sibling that was counted would have counted this leg as well
            have unknown : b ∉ seen.1 := fun member => known (walked.closed b member a back)
            rw [visit_pair known siblings]
            constructor
            case closed =>
              intro k member c linked
              rcases List.mem_cons.1 member with rfl | member
              · rw [back] at linked
                obtain rfl := Option.some.inj linked
                simp
              · rcases List.mem_cons.1 member with rfl | before
                · rw [siblings] at linked
                  obtain rfl := Option.some.inj linked
                  simp
                · have inside := walked.closed k before c linked
                  simp [inside]
            case total =>
              have shareA : shareOf positions links a = |signedAt positions a + signedAt positions b| / 2 := by
                rw [shareOf, siblings]
              have shareB : shareOf positions links b = |signedAt positions a + signedAt positions b| / 2 := by
                rw [shareOf, back, add_comm]
              rw [List.toFinset_cons, List.toFinset_cons, Finset.sum_insert (by simpa [other] using unknown),
                Finset.sum_insert (by simpa using known), shareA, shareB, walked.total]
              ring
            case opened =>
              intro k member
              rcases List.mem_cons.1 member with rfl | member
              · exact openB
              · rcases List.mem_cons.1 member with rfl | before
                · exact isOpen
                · exact walked.opened k before
            case counted =>
              intro k member openK
              rcases List.mem_append.1 member with before | last
              · have inside := walked.counted k before openK
                simp [inside]
              · obtain rfl := List.mem_singleton.1 last
                simp

variable (positions links) in
theorem walked_nothing : Walked positions links [] ([], 0) := ⟨by simp, by simp, by simp, by simp⟩

theorem walked_all (matching : IsMatching links) (order : List PositionKey) : ∀ {done : List PositionKey}
    {seen : List PositionKey × ℚ}, Walked positions links done seen →
    Walked positions links (done ++ order) (order.foldl (visit positions links) seen) := by
  induction order with
  | nil =>
      intro done seen walked
      simpa using walked
  | cons a order ih =>
      intro done seen walked
      have rest := ih (walked.visit matching a)
      simpa using rest

/-- In whatever order the positions are walked, the exact exposure is that of the pairs. -/
theorem netted_eq (matching : IsMatching links) {order : List PositionKey}
    (walks : ∀ k, (positions.get k).isSome → k ∈ order) :
    nettedPortfolioExposure order positions links = pairedExposure positions links := by
  have walked := walked_all matching order (walked_nothing positions links)
  rw [nettedPortfolioExposure_eq, walked.total, pairedExposure_eq matching]
  congr 1
  ext k
  rw [List.mem_toFinset, List.mem_toFinset, positions.mem_keys]
  exact ⟨walked.opened k, fun isOpen => walked.counted k (walks k isOpen) isOpen⟩

end Matching

/-! ## Sums of doubles -/

/-- The doubles are finite and have these values. -/
def Represents (positions : Registry PositionKey (Double × Double)) (exact : PositionMap) : Prop :=
  ∀ key, positions.get key = (exact.get key).map fun p => (Double.finite p.1, Double.finite p.2)

/-- Nothing is rounded, in whatever order the positions are added: the net of each open
    pair is a double, and so is the sum over any of the pairs and other positions. -/
structure AddsUp (positions : PositionMap) (links : PairLinkMap) : Prop where
  nets : ∀ a b, openSibling positions links a = some b →
    Double.Exact (signedAt positions a + signedAt positions b)
  sums : ∀ keys ⊆ positions.keys.toFinset,
    (∀ a ∈ keys, ∀ b, openSibling positions links a = some b → b ∈ keys) →
      Double.Exact (∑ key ∈ keys, shareOf positions links key)

section Doubles

variable {positions : Registry PositionKey (Double × Double)} {exact : PositionMap} {links : PairLinkMap}

theorem signedNotional_finite (qty value : ℚ) :
    signedNotional (Double.finite qty) (Double.finite value) =
      Double.finite (signedNotional qty value) := by
  have long : 0 < Double.finite qty ↔ 0 < qty := decide_eq_true_iff
  have short : Double.finite qty < 0 ↔ qty < 0 := decide_eq_true_iff
  unfold signedNotional
  simp only [long, short]
  split
  · rfl
  split
  · rfl
  · rfl

theorem visit_finite (matching : IsMatching links) (represents : Represents positions exact)
    (addsUp : AddsUp exact links) {done : List PositionKey} {seen : List PositionKey × ℚ}
    (walked : Walked exact links done seen) (a : PositionKey) :
    visit positions links (seen.1, Double.finite seen.2) a =
      ((visit exact links seen a).1, Double.finite (visit exact links seen a).2) := by
  have after := walked.visit matching a
  have total : Double.Exact (visit exact links seen a).2 := by
    rw [after.total]
    apply addsUp.sums
    · intro k member
      rw [List.mem_toFinset, exact.mem_keys]
      exact after.opened k (List.mem_toFinset.1 member)
    · intro k member b siblings
      exact List.mem_toFinset.2 (after.closed k (List.mem_toFinset.1 member) b siblings)
  by_cases known : a ∈ seen.1
  · simp [visit, known]
  cases here : exact.get a with
  | none =>
      have missing : positions.get a = none := by rw [represents, here]; rfl
      simp [visit, known, here, missing]
  | some p =>
      have isOpen : (exact.get a).isSome := by rw [here]; rfl
      have found : positions.get a = some (Double.finite p.1, Double.finite p.2) := by rw [represents, here]; rfl
      cases siblings : openSibling exact links a with
      | none =>
          have alone : ((links.get a).bind fun sibling => (positions.get sibling).map (sibling, ·)) = none := by
            cases linked : links.get a with
            | none => rfl
            | some b =>
                cases there : exact.get b with
                | none =>
                    have missing : positions.get b = none := by rw [represents, there]; rfl
                    simp [missing]
                | some q =>
                    have both := openSibling_eq_some.2 ⟨isOpen, linked, by rw [there]; rfl⟩
                    rw [siblings] at both
                    cases both
          rw [visit_single known isOpen siblings] at total ⊢
          have value : valueAt exact a = p.2 := by simp [valueAt, here]
          rw [value] at total ⊢
          simp only [visit, known, if_false, found, alone]
          exact congrArg (Prod.mk _) (Double.finite_add_finite total)
      | some b =>
          obtain ⟨-, linked, openB⟩ := openSibling_eq_some.1 siblings
          obtain ⟨q, there⟩ := Option.isSome_iff_exists.1 openB
          have sibling : positions.get b = some (Double.finite q.1, Double.finite q.2) := by
            rw [represents, there]
            rfl
          have net := addsUp.nets a b siblings
          rw [visit_pair known siblings] at total ⊢
          have signedA : signedAt exact a = signedNotional p.1 p.2 := by simp [signedAt, here]
          have signedB : signedAt exact b = signedNotional q.1 q.2 := by simp [signedAt, there]
          rw [signedA, signedB] at net total ⊢
          simp only [visit, known, if_false, found, linked, Option.bind_some, sibling, Option.map_some,
            signedNotional_finite]
          rw [Double.finite_add_finite net]
          exact congrArg (Prod.mk _) (Double.finite_add_finite total)

theorem walk_finite (matching : IsMatching links) (represents : Represents positions exact)
    (addsUp : AddsUp exact links) (order : List PositionKey) : ∀ {done : List PositionKey} {seen : List PositionKey × ℚ},
    Walked exact links done seen → order.foldl (visit positions links) (seen.1, Double.finite seen.2) =
      ((order.foldl (visit exact links) seen).1, Double.finite (order.foldl (visit exact links) seen).2) := by
  induction order with
  | nil => exact fun _ => rfl
  | cons a order ih =>
      intro done seen walked
      rw [List.foldl_cons, List.foldl_cons, visit_finite matching represents addsUp walked]
      exact ih (walked.visit matching a)

/-- Where nothing is rounded, the exposure in doubles is that of the pairs, in whatever order
    the positions are walked. -/
theorem netted_finite (matching : IsMatching links) (represents : Represents positions exact)
    (addsUp : AddsUp exact links) {order : List PositionKey} (walks : order.Perm positions.keys) :
    nettedPortfolioExposure order positions links = Double.finite (pairedExposure exact links) := by
  have all : ∀ k, (exact.get k).isSome → k ∈ order := by
    intro k isOpen
    rw [walks.mem_iff, positions.mem_keys, represents, Option.isSome_map]
    exact isOpen
  rw [← netted_eq matching all, nettedPortfolioExposure_eq, nettedPortfolioExposure_eq]
  have walk := walk_finite matching represents addsUp order (walked_nothing exact links)
  exact congrArg Prod.snd walk

end Doubles

/-! ## Runs -/

/-- The links are a matching, and the netted exposure of any positions whose amounts add up
    without rounding is that of the pairs and the other positions, in whatever order they
    are walked. -/
structure ExposureDefined (links : PairLinkMap) : Prop where
  matching : IsMatching links
  exposure : ∀ (positions : Registry PositionKey (Double × Double)) (exact : PositionMap) (order : List PositionKey),
    Represents positions exact → AddsUp exact links → order.Perm positions.keys →
      nettedPortfolioExposure order positions links = Double.finite (pairedExposure exact links)

theorem exposureDefined_iff {links : PairLinkMap} : ExposureDefined links ↔ IsMatching links :=
  ⟨ExposureDefined.matching, fun matching => ⟨matching, fun _ _ _ represents addsUp walks =>
    netted_finite matching represents addsUp walks⟩⟩

/-- The exposure stays defined exactly while only fresh legs are linked. -/
theorem exposure_defined_iff (calls : List LinkCall) :
    Runs.Visits linkStep ExposureDefined .empty calls ↔
      Runs.Guarded linkStep (fun links call => call.Fresh links) .empty calls := by
  apply Runs.visits_iff_guarded
  · intro links call defined
    rw [exposureDefined_iff]
    exact linkStep_isMatching_iff defined.matching call
  · exact exposureDefined_iff.2 isMatching_empty

section Sample

private def dollars (qty value : ℚ) : Double × Double := (Double.nearest qty, Double.nearest value)

def repaired : List LinkCall :=
  [.registerPairLink ("ETH", "x") ("BTC", "x"), .registerPairLink ("ETH", "x") ("SOL", "x"), .unregisterPairLink ("SOL", "x")]

def hedged : Registry PositionKey (Double × Double) :=
  (Registry.empty.insert ("ETH", "x") (dollars 1 100)).insert ("BTC", "x") (dollars (-2) 100)

def cents : Registry PositionKey (Double × Double) :=
  ((Registry.empty.insert ("ADA", "x") (dollars 1 (1 / 10))).insert ("DOT", "x") (dollars 1 (2 / 10))).insert ("XRP", "x")
    (dollars 1 (3 / 10))

/-- A link is left on one side, and the exposure is nothing or all of a leg as the
    positions are walked. Without any link it still differs in the last digit. -/
theorem repaired_leg_undefined :
    nettedPortfolioExposure [("ETH", "x"), ("BTC", "x")] hedged (Runs.run linkStep .empty repaired) =
        Double.finite 100 ∧
      nettedPortfolioExposure [("BTC", "x"), ("ETH", "x")] hedged (Runs.run linkStep .empty repaired) =
        Double.finite 0 ∧
      nettedPortfolioExposure [("ADA", "x"), ("DOT", "x"), ("XRP", "x")] cents .empty ≠
        nettedPortfolioExposure [("XRP", "x"), ("DOT", "x"), ("ADA", "x")] cents .empty ∧
      ¬ Runs.Visits linkStep ExposureDefined .empty repaired := by
  refine ⟨by decide +kernel, by decide +kernel, by decide +kernel, fun visits => ?_⟩
  have defined : ExposureDefined (Runs.run linkStep .empty repaired) := Runs.visits_iff_take.1 visits 3
  have back := defined.matching.symm ("BTC", "x") ("ETH", "x") (by decide)
  exact absurd back (by decide)

end Sample

end ExecutionHandler
