import SignalEngine.ExecutionHandler.MultiLegFinished

/-! # The indexes of the multi-leg manager

Under fresh ids, exchange orders that are linked once, and a limit that is not yet
in question where the manager does not look at it, the groups, the two indexes and
the admission of new groups fit together. A reused client id replaces a group, a
second link leaves a stale entry, and finished groups count against the limit of
one kind of order only.
-/

namespace ExecutionHandler

variable {F : Type}

/-! ## Leg ids -/

theorem twoDigits_length : ∀ n < 10, (twoDigits n).toList.length = 2 := by decide +kernel

theorem twoDigits_injective : ∀ m < 10, ∀ n < 10, twoDigits m = twoDigits n → m = n := by decide +kernel

theorem generateLegId_injective {id id' : String} {m n : Nat} (smallM : m < 10) (smallN : n < 10)
    (same : generateLegId id m = generateLegId id' n) : id = id' ∧ m = n := by
  have chars := congrArg String.toList same
  simp only [generateLegId, String.toList_append] at chars
  obtain ⟨front, digits⟩ := List.append_inj' chars (by rw [twoDigits_length m smallM, twoDigits_length n smallN])
  obtain ⟨ids, -⟩ := List.append_inj' front rfl
  exact ⟨String.toList_inj.1 ids, twoDigits_injective m smallM n smallN (String.toList_inj.1 digits)⟩

/-! ## Legs that are still the same -/

def OrderLeg.asCreated [FloatOps F] (leg : OrderLeg F) : OrderLeg F :=
  { leg with
    status := .pending
    exchangeOrderId := none
    filledQuantity := FloatOps.zero
    avgFillPrice := FloatOps.zero
    fills := []
    updatedAt := 0
    exchangeTimestampNs := none }

section Legs

variable [FloatOps F]

def SameLink (l l' : OrderLeg F) : Prop :=
  l'.asCreated = l.asCreated ∧ l'.exchangeOrderId = l.exchangeOrderId

theorem legId_of_asCreated {l l' : OrderLeg F} (same : l'.asCreated = l.asCreated) : l'.legId = l.legId := by
  change l'.asCreated.legId = l.asCreated.legId
  rw [same]

theorem SameLink.refl (l : OrderLeg F) : SameLink l l := ⟨rfl, rfl⟩

theorem SameLink.trans {a b c : OrderLeg F} (first : SameLink a b) (second : SameLink b c) : SameLink a c :=
  ⟨second.1.trans first.1, second.2.trans first.2⟩

namespace MultiLegOrderGroup

def SameLinks (g g' : MultiLegOrderGroup F) : Prop :=
  g'.groupId = g.groupId ∧ List.Forall₂ SameLink g.legs g'.legs

theorem SameLinks.refl (g : MultiLegOrderGroup F) : SameLinks g g :=
  ⟨rfl, List.forall₂_same.2 fun l _ => .refl l⟩

theorem cancelRole_sameLinks (g : MultiLegOrderGroup F) (role : LegRole) (now : Nat) :
    SameLinks g (g.cancelRole role now).1 := by
  unfold cancelRole
  split
  · split
    · exact ⟨rfl, forall₂_updateFirst SameLink.refl fun _ _ => ⟨rfl, rfl⟩⟩
    · exact .refl g
  · exact .refl g

theorem react_sameLinks (g : MultiLegOrderGroup F) (leg : OrderLeg F) (now : Nat) :
    SameLinks g (g.react leg now).group := by
  unfold react
  split
  · split
    · exact cancelRole_sameLinks g _ now
    · exact .refl g
  · split
    · refine ⟨rfl, ?_⟩
      simp only [activateWaiting]
      rw [List.forall₂_map_right_iff, List.forall₂_same]
      intro l _
      split
      · exact ⟨rfl, rfl⟩
      · exact .refl l
    · split
      · exact cancelRole_sameLinks g _ now
      · exact .refl g
  · split
    · exact .refl g
    · split
      · exact .refl g
      · exact .refl g
  · exact .refl g

theorem fillLeg_sameLinks {g : MultiLegOrderGroup F} {legId : String} {leg filled : OrderLeg F} (now : Nat)
    (here : g.legs.find? (·.legId == legId) = some leg) (same : SameLink leg filled) :
    SameLinks g (g.fillLeg legId filled now).group := by
  have placed : List.Forall₂ SameLink g.legs
      (updateFirst (·.legId == legId) (fun _ => filled) g.legs) := by
    apply forall₂_updateFirst SameLink.refl
    intro l found
    obtain rfl := Option.some.inj (here.symm.trans found)
    exact same
  have reacted := react_sameLinks
    { g with legs := updateFirst (·.legId == legId) (fun _ => filled) g.legs } filled now
  exact ⟨reacted.1, forall₂_trans (R := SameLink) (fun _ _ _ => SameLink.trans) placed reacted.2⟩

end MultiLegOrderGroup

end Legs

/-! ## The indexes fit the groups -/

namespace MultiLegOrderGroup

/-- The legs of a group carry its id and different places. -/
structure Named (id : String) (g : MultiLegOrderGroup F) : Prop where
  own : g.groupId = id
  places : ∀ l ∈ g.legs, ∃ n < 10, l.legId = generateLegId id n
  nodup : (g.legs.map OrderLeg.legId).Nodup

end MultiLegOrderGroup

namespace MultiLegOrderManager

structure Consistent (m : MultiLegOrderManager F) : Prop where
  named : ∀ id g, m.groups.get id = some g → g.Named id
  index : ∀ legId id, m.legToGroup.get legId = some id ↔
    ∃ g, m.groups.get id = some g ∧ legId ∈ g.legs.map OrderLeg.legId
  orders : ∀ x legId, m.exchangeOrderToLeg.get x = some legId ↔
    ∃ id g, m.groups.get id = some g ∧ ∃ l ∈ g.legs, l.legId = legId ∧ l.exchangeOrderId = some x

variable {m : MultiLegOrderManager F}

theorem find?_leg {g : MultiLegOrderGroup F} {legId : String} {l : OrderLeg F}
    (nodup : (g.legs.map OrderLeg.legId).Nodup) (member : l ∈ g.legs) (id : l.legId = legId) :
    g.legs.find? (·.legId == legId) = some l := by
  subst id
  generalize g.legs = legs at nodup member
  induction legs with
  | nil => simp at member
  | cons head rest ih =>
      simp only [List.map_cons, List.nodup_cons] at nodup
      rcases List.mem_cons.1 member with rfl | later
      · simp
      · have other : ¬ head.legId = l.legId := fun same => nodup.1 (same ▸ List.mem_map_of_mem later)
        simp [other, ih nodup.2 later]

theorem Consistent.unique (consistent : m.Consistent) {id id' : String} {g g' : MultiLegOrderGroup F}
    {l l' : OrderLeg F} (found : m.groups.get id = some g) (found' : m.groups.get id' = some g')
    (member : l ∈ g.legs) (member' : l' ∈ g'.legs) (same : l.legId = l'.legId) : id = id' ∧ g = g' ∧ l = l' := by
  have here := (consistent.index l.legId id).2 ⟨g, found, List.mem_map_of_mem member⟩
  have there := (consistent.index l.legId id').2 ⟨g', found', same ▸ List.mem_map_of_mem member'⟩
  obtain rfl := Option.some.inj (here.symm.trans there)
  obtain rfl := Option.some.inj (found.symm.trans found')
  have nodup := (consistent.named id g found).nodup
  have first := find?_leg nodup member rfl
  have second := find?_leg nodup member' same.symm
  exact ⟨rfl, rfl, Option.some.inj (first.symm.trans second)⟩

theorem Consistent.getLegByExchangeOrder_iff (consistent : m.Consistent) (x id : String) (l : OrderLeg F) :
    m.getLegByExchangeOrder x = some (id, l) ↔
      ∃ g, m.groups.get id = some g ∧ l ∈ g.legs ∧ l.exchangeOrderId = some x := by
  constructor
  · intro h
    simp only [getLegByExchangeOrder, Option.bind_eq_bind, Option.bind_eq_some_iff, Option.pure_def,
      Option.some.injEq, Prod.mk.injEq] at h
    obtain ⟨legId, linked, id', inGroup, g, found, l', here, rfl, rfl⟩ := h
    obtain ⟨id'', g', found', l'', member, legId', order⟩ := (consistent.orders x legId).1 linked
    have inLegs := List.mem_of_find?_eq_some here
    have legId'' : l'.legId = legId := by simpa using List.find?_some here
    obtain ⟨-, -, rfl⟩ := consistent.unique found found' inLegs member (legId''.trans legId'.symm)
    exact ⟨g, found, inLegs, order⟩
  · rintro ⟨g, found, member, order⟩
    have linked := (consistent.orders x l.legId).2 ⟨id, g, found, l, member, rfl, order⟩
    have inGroup := (consistent.index l.legId id).2 ⟨g, found, List.mem_map_of_mem member⟩
    have here := find?_leg (consistent.named id g found).nodup member rfl
    simp [getLegByExchangeOrder, linked, inGroup, found, here]

/-! ## What one operation keeps -/

section Changes

variable [FloatOps F]

theorem sameLinks_legIds {g g' : MultiLegOrderGroup F} (same : g.SameLinks g') :
    g'.legs.map OrderLeg.legId = g.legs.map OrderLeg.legId := by
  obtain ⟨-, legs⟩ := same
  generalize g.legs = old, g'.legs = new at legs
  induction legs with
  | nil => rfl
  | cons head _ ih => simp only [List.map_cons, legId_of_asCreated head.1, ih]

theorem sameLinks_orders {g g' : MultiLegOrderGroup F} (same : g.SameLinks g') (legId x : String) :
    (∃ l ∈ g'.legs, l.legId = legId ∧ l.exchangeOrderId = some x) ↔
      ∃ l ∈ g.legs, l.legId = legId ∧ l.exchangeOrderId = some x := by
  obtain ⟨-, legs⟩ := same
  generalize g.legs = old, g'.legs = new at legs
  induction legs with
  | nil => simp
  | cons head _ ih =>
      simp only [List.mem_cons, exists_eq_or_imp, ih, legId_of_asCreated head.1, head.2]

theorem Consistent.modify (consistent : m.Consistent) {m' : MultiLegOrderManager F} {id : String}
    {g after : MultiLegOrderGroup F} (found : m.groups.get id = some g) (same : g.SameLinks after)
    (changed : m'.groups = m.groups.modify id fun _ => after) (legToGroup : m'.legToGroup = m.legToGroup)
    (orders : m'.exchangeOrderToLeg = m.exchangeOrderToLeg) : m'.Consistent := by
  have lookup (id' : String) : m'.groups.get id' = if id' = id then some after else m.groups.get id' := by
    rw [changed, Registry.get_modify, found]
    rfl
  have legIds := sameLinks_legIds same
  refine ⟨?_, ?_, ?_⟩
  · intro id' g' found'
    rw [lookup] at found'
    split at found'
    next equal =>
      obtain rfl := Option.some.inj found'
      subst equal
      have named := consistent.named id' g found
      refine ⟨same.1.trans named.own, ?_, legIds ▸ named.nodup⟩
      intro l member
      have inOld : l.legId ∈ g.legs.map OrderLeg.legId := legIds ▸ List.mem_map_of_mem member
      obtain ⟨l', old, equal⟩ := List.mem_map.1 inOld
      rw [← equal]
      exact named.places l' old
    next => exact consistent.named id' g' found'
  · intro legId id'
    rw [legToGroup, consistent.index legId id', lookup]
    by_cases equal : id' = id
    · subst equal
      simp only [found, if_true, Option.some.injEq, exists_eq_left', legIds]
    · simp only [if_neg equal]
  · intro x legId
    rw [orders, consistent.orders x legId]
    apply exists_congr
    intro id'
    rw [lookup]
    by_cases equal : id' = id
    · subst equal
      simp only [found, if_true, Option.some.injEq, exists_eq_left']
      exact (sameLinks_orders same legId x).symm
    · simp only [if_neg equal]

theorem foldl_insert_get {K V A : Type} [DecidableEq K] (key : A → K) (v : V) (items : List A) :
    ∀ (r : Registry K V) (k : K), (items.foldl (fun r a => r.insert (key a) v) r).get k =
      if k ∈ items.map key then some v else r.get k := by
  induction items with
  | nil => simp
  | cons a items ih =>
      intro r k
      rw [List.foldl_cons, ih, Registry.get_insert]
      by_cases later : k ∈ items.map key
      · simp [later]
      · by_cases here : k = key a <;> simp [later, here]

omit [FloatOps F] in
theorem Consistent.store (consistent : m.Consistent) {g : MultiLegOrderGroup F}
    (fresh : m.groups.get g.groupId = none) (named : g.Named g.groupId)
    (unlinked : ∀ l ∈ g.legs, l.exchangeOrderId = none) : (m.store g).Consistent := by
  have lookup (id : String) : (m.store g).groups.get id = if id = g.groupId then some g else m.groups.get id :=
    Registry.get_insert _ _ _ _
  have indexed (legId : String) : (m.store g).legToGroup.get legId =
      if legId ∈ g.legs.map OrderLeg.legId then some g.groupId else m.legToGroup.get legId :=
    foldl_insert_get OrderLeg.legId g.groupId g.legs m.legToGroup legId
  -- no older group has a leg with one of the new ids
  have separate : ∀ id' g', m.groups.get id' = some g' → ∀ legId ∈ g'.legs.map OrderLeg.legId,
      legId ∉ g.legs.map OrderLeg.legId := by
    intro id' g' found' legId member member'
    obtain ⟨l', old, rfl⟩ := List.mem_map.1 member
    obtain ⟨l, new, same⟩ := List.mem_map.1 member'
    obtain ⟨n', small', place'⟩ := (consistent.named id' g' found').places l' old
    obtain ⟨n, small, place⟩ := named.places l new
    rw [place, place'] at same
    obtain ⟨rfl, -⟩ := generateLegId_injective small small' same
    rw [fresh] at found'
    cases found'
  refine ⟨?_, ?_, ?_⟩
  · intro id g' found
    rw [lookup] at found
    split at found
    next equal =>
      obtain rfl := Option.some.inj found
      subst equal
      exact named
    next => exact consistent.named id g' found
  · intro legId id
    rw [indexed, lookup]
    by_cases new : legId ∈ g.legs.map OrderLeg.legId
    · rw [if_pos new]
      constructor
      · intro equal
        obtain rfl := Option.some.inj equal
        exact ⟨g, if_pos rfl, new⟩
      · rintro ⟨g', found, member⟩
        split at found
        next equal => rw [equal]
        next => exact absurd new (separate id g' found legId member)
    · rw [if_neg new, consistent.index]
      by_cases equal : id = g.groupId
      · subst equal
        constructor
        · rintro ⟨g', found, -⟩
          rw [fresh] at found
          cases found
        · rintro ⟨g', found, member⟩
          rw [if_pos rfl] at found
          obtain rfl := Option.some.inj found
          exact absurd member new
      · simp only [if_neg equal]
  · intro x legId
    change m.exchangeOrderToLeg.get x = some legId ↔ _
    rw [consistent.orders]
    constructor
    · rintro ⟨id, g', found, holds⟩
      have other : id ≠ g.groupId := by
        rintro rfl
        rw [fresh] at found
        cases found
      exact ⟨id, g', by rw [lookup, if_neg other]; exact found, holds⟩
    · rintro ⟨id, g', found, l, member, legId', order⟩
      rw [lookup] at found
      split at found
      · obtain rfl := Option.some.inj found
        rw [unlinked l member] at order
        cases order
      · exact ⟨id, g', found, l, member, legId', order⟩

omit [FloatOps F] in
theorem mem_updateFirst_leg {legs : List (OrderLeg F)} {legId : String} {l : OrderLeg F}
    {f : OrderLeg F → OrderLeg F} (nodup : (legs.map OrderLeg.legId).Nodup)
    (here : legs.find? (·.legId == legId) = some l) (l' : OrderLeg F) :
    l' ∈ updateFirst (·.legId == legId) f legs ↔ l' = f l ∨ l' ∈ legs ∧ l'.legId ≠ legId := by
  induction legs with
  | nil => simp at here
  | cons head rest ih =>
      simp only [List.map_cons, List.nodup_cons] at nodup
      by_cases first : head.legId = legId
      · have test : (head.legId == legId) = true := by simpa using first
        obtain rfl : head = l := by simpa [test] using here
        rw [updateFirst, if_pos test, List.mem_cons, List.mem_cons]
        have rest' : ∀ l' ∈ rest, l'.legId ≠ legId := fun l' member same =>
          nodup.1 (first.trans same.symm ▸ List.mem_map_of_mem member)
        constructor
        · rintro (equal | later)
          · exact .inl equal
          · exact .inr ⟨.inr later, rest' l' later⟩
        · rintro (equal | ⟨rfl | later, other⟩)
          · exact .inl equal
          · exact absurd first other
          · exact .inr later
      · have test : ¬ (head.legId == legId) = true := by simpa using first
        have there : rest.find? (·.legId == legId) = some l := by simpa [test] using here
        rw [updateFirst, if_neg test, List.mem_cons, ih nodup.2 there, List.mem_cons]
        constructor
        · rintro (rfl | equal | ⟨later, other⟩)
          · exact .inr ⟨.inl rfl, first⟩
          · exact .inl equal
          · exact .inr ⟨.inr later, other⟩
        · rintro (equal | ⟨rfl | later, other⟩)
          · exact .inr (.inl equal)
          · exact .inl rfl
          · exact .inr (.inr ⟨later, other⟩)

omit [FloatOps F] in
theorem Consistent.link (consistent : m.Consistent) {m' : MultiLegOrderManager F} {id legId x : String}
    {g : MultiLegOrderGroup F} {l : OrderLeg F} {now : Nat} (found : m.groups.get id = some g)
    (here : g.legs.find? (·.legId == legId) = some l)
    (newOrder : ∀ other, m.exchangeOrderToLeg.get x = some other → other = legId)
    (newLink : ∀ y, l.exchangeOrderId = some y → y = x)
    (changed : m'.groups = m.groups.modify id fun _ =>
      { g with legs := updateFirst (·.legId == legId) (·.link x now) g.legs })
    (legToGroup : m'.legToGroup = m.legToGroup)
    (orders : m'.exchangeOrderToLeg = m.exchangeOrderToLeg.insert x legId) : m'.Consistent := by
  have lookup (id' : String) : m'.groups.get id' = if id' = id then
      some { g with legs := updateFirst (·.legId == legId) (·.link x now) g.legs }
      else m.groups.get id' := by
    rw [changed, Registry.get_modify, found]
    rfl
  have named := consistent.named id g found
  have member := List.mem_of_find?_eq_some here
  have legId' : l.legId = legId := by simpa using List.find?_some here
  have legIds : (updateFirst (·.legId == legId) (·.link x now) g.legs).map OrderLeg.legId =
      g.legs.map OrderLeg.legId := by
    apply map_updateFirst
    exact fun _ => rfl
  have members := mem_updateFirst_leg (f := (·.link x now)) named.nodup here
  refine ⟨?_, ?_, ?_⟩
  · intro id' g' found'
    rw [lookup] at found'
    split at found'
    next equal =>
      obtain rfl := Option.some.inj found'
      subst equal
      refine ⟨named.own, ?_, legIds ▸ named.nodup⟩
      intro l' inLegs
      rcases (members l').1 inLegs with rfl | ⟨old, -⟩
      · exact named.places l member
      · exact named.places l' old
    next => exact consistent.named id' g' found'
  · intro legId'' id'
    rw [legToGroup, consistent.index, lookup]
    by_cases equal : id' = id
    · subst equal
      simp only [found, if_true, Option.some.injEq, exists_eq_left', legIds]
    · simp only [if_neg equal]
  · intro y other
    rw [orders, Registry.get_insert]
    constructor
    · intro linked
      split at linked
      next equal =>
        obtain rfl := Option.some.inj linked
        subst equal
        exact ⟨id, _, by rw [lookup, if_pos rfl], l.link y now, (members _).2 (.inl rfl), legId', rfl⟩
      next different =>
        obtain ⟨id', g', found', l', inLegs, own, order⟩ := (consistent.orders y other).1 linked
        by_cases equal : id' = id
        · subst equal
          obtain rfl := Option.some.inj (found.symm.trans found')
          have notThis : l'.legId ≠ legId := by
            intro same
            obtain ⟨-, -, rfl⟩ := consistent.unique found found' inLegs member (same.trans legId'.symm)
            exact different (newLink y order)
          exact ⟨id', _, by rw [lookup, if_pos rfl], l', (members l').2 (.inr ⟨inLegs, notThis⟩), own, order⟩
        · exact ⟨id', g', by rw [lookup, if_neg equal]; exact found', l', inLegs, own, order⟩
    · rintro ⟨id', g', found', l', inLegs, own, order⟩
      have old : (∃ id g, m.groups.get id = some g ∧ ∃ l ∈ g.legs, l.legId = other ∧
          l.exchangeOrderId = some y) ∨ (y = x ∧ other = legId) := by
        rw [lookup] at found'
        split at found'
        · obtain rfl := Option.some.inj found'
          rcases (members l').1 inLegs with rfl | ⟨inOld, -⟩
          · exact .inr ⟨(Option.some.inj order).symm, own.symm.trans legId'⟩
          · exact .inl ⟨id, g, found, l', inOld, own, order⟩
        · exact .inl ⟨id', g', found', l', inLegs, own, order⟩
      rcases old with linked | ⟨rfl, rfl⟩
      · rw [← consistent.orders] at linked
        split
        next equal =>
          subst equal
          rw [newOrder other linked]
        next => exact linked
      · exact if_pos rfl

end Changes

/-! ## What a run may do -/

section Conditions

variable [FloatOps F]

def ownId (m : MultiLegOrderManager F) : MultiLegOp F → Bool
  | .createOco p stamp _ =>
      m.groups.size ≥ m.maxActiveGroups || (m.groups.get (m.groupIdFor p.clientGroupId stamp).1).isNone
  | .createBracket p stamp _ =>
      !p.validate.isOk || (m.groups.get (m.groupIdFor p.clientGroupId stamp).1).isNone
  | .createLinkedPair p stamp _ => (m.groups.get (m.groupIdFor p.clientGroupId stamp).1).isNone
  | _ => true

/-- An exchange order is linked to one leg and a leg to one exchange order. -/
def linkedOnce (m : MultiLegOrderManager F) : MultiLegOp F → Bool
  | .linkExchangeOrder legId exchangeOrderId _ => (m.holder legId).all fun (_, leg) =>
      (m.exchangeOrderToLeg.get exchangeOrderId).all (· == legId) && leg.exchangeOrderId.all (· == exchangeOrderId)
  | _ => true

def activeGroups (m : MultiLegOrderManager F) : Nat := m.groups.count fun g => !g.isTerminal

/-- Finished groups do not fill up the limit of an OCO, and a bracket or a pair,
    which is not held to the limit, comes while there is room. -/
def roomCounted (m : MultiLegOrderManager F) : MultiLegOp F → Bool
  | .createOco _ _ _ => m.groups.size < m.maxActiveGroups || m.maxActiveGroups ≤ m.activeGroups
  | .createBracket _ _ _ => m.activeGroups < m.maxActiveGroups
  | .createLinkedPair _ _ _ => m.activeGroups < m.maxActiveGroups
  | _ => true

def createAnswer (m : MultiLegOrderManager F) : MultiLegOp F → Option (Except MultiLegError (MultiLegOrderGroup F))
  | .createOco p stamp now => some (m.createOco p stamp now).2
  | .createBracket p stamp now => some (m.createBracket p stamp now).2
  | .createLinkedPair p stamp now => some (m.createLinkedPair p stamp now).2
  | _ => none

end Conditions

/-! ## One operation -/

section Advances

variable [FloatOps F]

/-- The groups of before are still there, with the legs they were created with. -/
def Retains (m m' : MultiLegOrderManager F) : Prop := ∀ id g, m.groups.get id = some g →
  ∃ g', m'.groups.get id = some g' ∧ List.Forall₂ (fun l l' => l'.asCreated = l.asCreated) g.legs g'.legs

theorem Retains.refl (m : MultiLegOrderManager F) : Retains m m :=
  fun _ g found => ⟨g, found, List.forall₂_same.2 fun _ _ => rfl⟩

theorem Retains.trans {a b c : MultiLegOrderManager F} (first : Retains a b) (second : Retains b c) :
    Retains a c := by
  intro id g found
  obtain ⟨g', found', legs⟩ := first id g found
  obtain ⟨g'', found'', legs'⟩ := second id g' found'
  exact ⟨g'', found'', forall₂_trans (fun _ _ _ same same' => same'.trans same) legs legs'⟩

structure Advances (m m' : MultiLegOrderManager F) : Prop where
  consistent : m'.Consistent
  retains : Retains m m'
  limit : m'.maxActiveGroups = m.maxActiveGroups

theorem Consistent.advances_refl (consistent : m.Consistent) : Advances m m := ⟨consistent, .refl m, rfl⟩

theorem retains_modify {m' : MultiLegOrderManager F} {id : String} {g after : MultiLegOrderGroup F}
    (found : m.groups.get id = some g) (changed : m'.groups = m.groups.modify id fun _ => after)
    (legs : List.Forall₂ (fun l l' => l'.asCreated = l.asCreated) g.legs after.legs) : Retains m m' := by
  intro id' g' found'
  rw [changed, Registry.get_modify]
  split
  next same =>
    subst same
    obtain rfl := Option.some.inj (found.symm.trans found')
    exact ⟨after, by rw [found]; rfl, legs⟩
  next => exact ⟨g', found', List.forall₂_same.2 fun _ _ => rfl⟩

theorem SameLinks.asCreated {g g' : MultiLegOrderGroup F} (same : g.SameLinks g') :
    List.Forall₂ (fun l l' => l'.asCreated = l.asCreated) g.legs g'.legs :=
  same.2.imp fun _ _ link => link.1

omit [FloatOps F] in
theorem named_of_numbered {g : MultiLegOrderGroup F} {n : Nat} (small : n ≤ 10)
    (numbered : g.legs.map OrderLeg.legId = (List.range n).map (generateLegId g.groupId)) :
    g.Named g.groupId := by
  refine ⟨rfl, ?_, ?_⟩
  · intro l member
    have listed : l.legId ∈ g.legs.map OrderLeg.legId := List.mem_map_of_mem member
    rw [numbered] at listed
    obtain ⟨k, inRange, same⟩ := List.mem_map.1 listed
    exact ⟨k, Nat.lt_of_lt_of_le (List.mem_range.1 inRange) small, same.symm⟩
  · rw [numbered]
    apply List.Nodup.map_on
    · intro j inRange k inRange' same
      have smallJ := Nat.lt_of_lt_of_le (List.mem_range.1 inRange) small
      have smallK := Nat.lt_of_lt_of_le (List.mem_range.1 inRange') small
      exact (generateLegId_injective smallJ smallK same).2
    · exact List.nodup_range

theorem Consistent.create (consistent : m.Consistent) (client : Option String) (stamp : Nat)
    {g : MultiLegOrderGroup F} {n : Nat} (small : n ≤ 10) (id : g.groupId = (m.groupIdFor client stamp).1)
    (fresh : m.groups.get (m.groupIdFor client stamp).1 = none)
    (numbered : g.legs.map OrderLeg.legId = (List.range n).map (generateLegId g.groupId))
    (unlinked : ∀ l ∈ g.legs, l.exchangeOrderId = none) :
    Advances m ((m.groupIdFor client stamp).2.store g) ∧
      ((m.groupIdFor client stamp).2.store g).groups.get g.groupId = some g := by
  have groups := (groupIdFor_groups m client stamp).1
  have limit : (m.groupIdFor client stamp).2.maxActiveGroups = m.maxActiveGroups := by
    cases client with
    | none => rfl
    | some id => rfl
  have consistent' : (m.groupIdFor client stamp).2.Consistent := by
    cases client with
    | none => exact ⟨consistent.named, consistent.index, consistent.orders⟩
    | some id => exact consistent
  rw [← id, ← groups] at fresh
  have lookup (id' : String) : ((m.groupIdFor client stamp).2.store g).groups.get id' =
      if id' = g.groupId then some g else (m.groupIdFor client stamp).2.groups.get id' :=
    Registry.get_insert _ _ _ _
  refine ⟨⟨consistent'.store fresh (named_of_numbered small numbered) unlinked, ?_, limit⟩, ?_⟩
  · intro id' g' found
    have other : id' ≠ g.groupId := by
      rintro rfl
      rw [← groups, fresh] at found
      cases found
    rw [lookup, if_neg other, groups]
    exact ⟨g', found, List.forall₂_same.2 fun _ _ => rfl⟩
  · rw [lookup, if_pos rfl]

/-! ### Creating -/

/-- A call that creates a group: what it keeps, and where the group is found. -/
def Creates (m m' : MultiLegOrderManager F) (answer : Except MultiLegError (MultiLegOrderGroup F)) : Prop :=
  Advances m m' ∧ ∀ g, answer = .ok g → m'.groups.get g.groupId = some g

section

variable (consistent : m.Consistent)

include consistent

theorem Consistent.refused (e : MultiLegError) : Creates m m (.error e) :=
  ⟨consistent.advances_refl, fun _ ok => nomatch ok⟩

theorem Consistent.creates (client : Option String) (stamp : Nat) {g : MultiLegOrderGroup F} {n : Nat}
    (small : n ≤ 10) (id : g.groupId = (m.groupIdFor client stamp).1)
    (fresh : (m.groups.get (m.groupIdFor client stamp).1).isNone = true)
    (numbered : g.legs.map OrderLeg.legId = (List.range n).map (generateLegId g.groupId))
    (unlinked : ∀ l ∈ g.legs, l.exchangeOrderId = none) :
    Creates m ((m.groupIdFor client stamp).2.store g) (.ok g) := by
  obtain ⟨advances, found⟩ :=
    consistent.create client stamp small id (Option.isNone_iff_eq_none.1 fresh) numbered unlinked
  refine ⟨advances, ?_⟩
  rintro g' ⟨⟩
  exact found

theorem createOco_creates (p : OcoParams F) (stamp now : Nat) (own : m.ownId (.createOco p stamp now) = true) :
    Creates m (m.createOco p stamp now).1 (m.createOco p stamp now).2 := by
  unfold createOco
  split
  · exact consistent.refused _
  next room =>
    have fresh : (m.groups.get (m.groupIdFor p.clientGroupId stamp).1).isNone = true := by
      simpa only [ownId, Bool.or_eq_true, decide_eq_true_eq, room, false_or] using own
    refine consistent.creates (n := 2) p.clientGroupId stamp (by decide) rfl fresh rfl ?_
    intro l member
    rcases List.mem_pair.1 member with rfl | rfl <;> rfl

theorem createBracket_creates (p : BracketParams F) (stamp now : Nat)
    (own : m.ownId (.createBracket p stamp now) = true) :
    Creates m (m.createBracket p stamp now).1 (m.createBracket p stamp now).2 := by
  unfold createBracket
  split
  · exact consistent.refused _
  next valid =>
    have fresh : (m.groups.get (m.groupIdFor p.clientGroupId stamp).1).isNone = true := by
      simpa [ownId, valid, Except.isOk, Except.toBool] using own
    refine consistent.creates (n := 3) p.clientGroupId stamp (by decide) rfl fresh rfl ?_
    intro l member
    simp only [BracketParams.group, MultiLegOrderGroup.fresh, List.mem_cons, List.not_mem_nil, or_false] at member
    rcases member with rfl | rfl | rfl <;> rfl

theorem createLinkedPair_creates (p : LinkedPairParams F) (stamp now : Nat)
    (own : m.ownId (.createLinkedPair p stamp now) = true) :
    Creates m (m.createLinkedPair p stamp now).1 (m.createLinkedPair p stamp now).2 := by
  refine consistent.creates (n := 2) p.clientGroupId stamp (by decide) rfl own rfl ?_
  intro l member
  rcases List.mem_pair.1 member with rfl | rfl <;> rfl

/-! ### Fills, cancels and links -/

theorem processLegFill_advances (legId : String) (fill : ExecutionFill F) (exchangeTimestampNs : Option Nat)
    (now : Nat) :
    Advances m (m.processLegFill legId fill exchangeTimestampNs now).1 := by
  unfold processLegFill
  split
  · exact consistent.advances_refl
  · split
    · exact consistent.advances_refl
    next g found =>
      split
      · exact consistent.advances_refl
      next leg here =>
        have same : g.SameLinks (g.fillLeg legId (leg.fill fill exchangeTimestampNs now) now).group :=
          MultiLegOrderGroup.fillLeg_sameLinks now here ⟨rfl, rfl⟩
        exact ⟨consistent.modify found same rfl rfl rfl, retains_modify found rfl (SameLinks.asCreated same), rfl⟩

theorem cancelGroup_advances (id : String) (now : Nat) : Advances m (m.cancelGroup id now).1 := by
  unfold cancelGroup
  split
  · exact consistent.advances_refl
  next g found =>
    split
    · exact consistent.advances_refl
    · have legs : List.Forall₂ SameLink g.legs (g.legs.map (cancelLeg · now)) := by
        rw [List.forall₂_map_right_iff, List.forall₂_same]
        intro l _
        simp only [cancelLeg]
        split
        · exact ⟨rfl, rfl⟩
        · exact .refl l
      have same : g.SameLinks { g with
          legs := g.legs.map (cancelLeg · now), state := .cancelled, updatedAt := now, completedAt := some now } :=
        ⟨rfl, legs⟩
      exact ⟨consistent.modify found same rfl rfl rfl, retains_modify found rfl (SameLinks.asCreated same), rfl⟩

theorem linkExchangeOrder_advances (legId exchangeOrderId : String) (now : Nat)
    (once : m.linkedOnce (.linkExchangeOrder legId exchangeOrderId now) = true) :
    Advances m (m.linkExchangeOrder legId exchangeOrderId now).1 := by
  unfold linkExchangeOrder
  split
  · exact consistent.advances_refl
  next id inGroup =>
    split
    · exact consistent.advances_refl
    next g found =>
      -- the index names a group that has the leg
      obtain ⟨g', found', listed⟩ := (consistent.index legId id).1 inGroup
      obtain rfl := Option.some.inj (found.symm.trans found')
      obtain ⟨l, member, own⟩ := List.mem_map.1 listed
      have here := find?_leg (consistent.named id g found).nodup member own
      simp only [linkedOnce, holder_eq inGroup found here, Option.all_some, Bool.and_eq_true,
        Option.all_eq_true, beq_iff_eq] at once
      refine ⟨consistent.link found here once.1 once.2 rfl rfl rfl, retains_modify found rfl ?_, rfl⟩
      apply forall₂_updateFirst (R := fun (l l' : OrderLeg F) => l'.asCreated = l.asCreated)
        (fun _ => rfl)
      exact fun _ _ => rfl

end

/-! ## Runs -/

theorem apply_advances (m : MultiLegOrderManager F) (op : MultiLegOp F) (consistent : m.Consistent)
    (own : m.ownId op = true) (once : m.linkedOnce op = true) : Advances m (m.apply op) := by
  cases op with
  | createOco p stamp now => exact (createOco_creates consistent p stamp now own).1
  | createBracket p stamp now => exact (createBracket_creates consistent p stamp now own).1
  | createLinkedPair p stamp now => exact (createLinkedPair_creates consistent p stamp now own).1
  | linkExchangeOrder legId exchangeOrderId now =>
      exact linkExchangeOrder_advances consistent legId exchangeOrderId now once
  | processLegFill legId fill exchangeTimestampNs now =>
      exact processLegFill_advances consistent legId fill exchangeTimestampNs now
  | cancelGroup groupId now => exact cancelGroup_advances consistent groupId now

theorem created_found {op : MultiLegOp F} (consistent : m.Consistent) (own : m.ownId op = true)
    {g : MultiLegOrderGroup F} (created : m.createAnswer op = some (.ok g)) :
    (m.apply op).groups.get g.groupId = some g := by
  cases op with
  | createOco p stamp now => exact (createOco_creates consistent p stamp now own).2 g (Option.some.inj created)
  | createBracket p stamp now =>
      exact (createBracket_creates consistent p stamp now own).2 g (Option.some.inj created)
  | createLinkedPair p stamp now =>
      exact (createLinkedPair_creates consistent p stamp now own).2 g (Option.some.inj created)
  | linkExchangeOrder legId exchangeOrderId now => cases created
  | processLegFill legId fill exchangeTimestampNs now => cases created
  | cancelGroup groupId now => cases created

theorem validate_ne_maxGroups (p : BracketParams F) : p.validate ≠ .error .maxGroupsExceeded := by
  unfold BracketParams.validate
  repeat' split
  all_goals rintro ⟨⟩

/-- While the limit is in question only where it is looked at, a call is refused
    for it exactly when so many groups are active. -/
theorem createAnswer_limit {op : MultiLegOp F} {answer : Except MultiLegError (MultiLegOrderGroup F)}
    (room : m.roomCounted op = true) (answered : m.createAnswer op = some answer) :
    answer = .error .maxGroupsExceeded ↔ m.maxActiveGroups ≤ m.activeGroups := by
  cases op with
  | createOco p stamp now =>
      obtain rfl := Option.some.inj answered
      simp only [roomCounted, Bool.or_eq_true, decide_eq_true_eq] at room
      have active : m.activeGroups ≤ m.groups.size := m.groups.count_le_size _
      unfold createOco
      split
      next full => exact ⟨fun _ => room.resolve_left (Nat.not_lt.2 full), fun _ => rfl⟩
      next free => exact ⟨(fun refused => nomatch refused), fun full => absurd (full.trans active) free⟩
  | createBracket p stamp now =>
      obtain rfl := Option.some.inj answered
      simp only [roomCounted, decide_eq_true_eq] at room
      refine ⟨fun refused => ?_, fun full => absurd room (Nat.not_lt.2 full)⟩
      unfold createBracket at refused
      split at refused
      next e invalid =>
        obtain rfl := Except.error.inj refused
        exact absurd invalid (validate_ne_maxGroups p)
      · cases refused
  | createLinkedPair p stamp now =>
      obtain rfl := Option.some.inj answered
      simp only [roomCounted, decide_eq_true_eq] at room
      exact ⟨(fun refused => nomatch refused), fun full => absurd room (Nat.not_lt.2 full)⟩
  | linkExchangeOrder legId exchangeOrderId now => cases answered
  | processLegFill legId fill exchangeTimestampNs now => cases answered
  | cancelGroup groupId now => cases answered

omit [FloatOps F] in
theorem withConfig_consistent (maxActiveGroups : Nat) :
    (withConfig maxActiveGroups : MultiLegOrderManager F).Consistent := by
  refine ⟨(fun _ _ found => nomatch found), ?_, ?_⟩
  · intro legId id
    exact ⟨(fun found => nomatch found), fun ⟨_, found, _⟩ => nomatch found⟩
  · intro x legId
    exact ⟨(fun found => nomatch found), fun ⟨_, _, found, _⟩ => nomatch found⟩

/-- The steps of a run that take ids, links and room that are free. -/
def Orderly (m : MultiLegOrderManager F) (op : MultiLegOp F) : Prop :=
  m.ownId op = true ∧ m.linkedOnce op = true ∧ m.roomCounted op = true

theorem run_advances {ops : List (MultiLegOp F)} (consistent : m.Consistent)
    (orderly : Runs.Guarded apply Orderly m ops) : Advances m (m.run ops) := by
  have one : ∀ (s : MultiLegOrderManager F) op, s.Consistent → Orderly s op →
      (s.apply op).Consistent ∧ (Retains s (s.apply op) ∧ (s.apply op).maxActiveGroups = s.maxActiveGroups) := by
    rintro s op consistent ⟨own, once, -⟩
    obtain ⟨consistent', retains, limit⟩ := apply_advances s op consistent own once
    exact ⟨consistent', retains, limit⟩
  obtain ⟨consistent', retains, limit⟩ := Runs.guarded_related
    (R := fun a b => Retains a b ∧ b.maxActiveGroups = a.maxActiveGroups) (fun s _ => ⟨.refl s, rfl⟩)
    (fun first second => ⟨first.1.trans second.1, second.2.trans first.2⟩) one consistent orderly
  exact ⟨consistent', retains, limit⟩

/-- In an orderly run the indexes fit the groups at every point, a call is refused
    for the limit exactly when so many groups are active, and a group that was
    created is found at every later point with the legs it was created with. -/
theorem orderly_run_indexes (maxActiveGroups : Nat) (before after : List (MultiLegOp F))
    (orderly : Runs.Guarded apply Orderly (withConfig maxActiveGroups) (before ++ after)) :
    (∀ legId id, ((withConfig maxActiveGroups).run before).legToGroup.get legId = some id ↔
      ∃ g, ((withConfig maxActiveGroups).run before).getGroup id = some g ∧ legId ∈ g.legs.map OrderLeg.legId) ∧
    (∀ x id leg, ((withConfig maxActiveGroups).run before).getLegByExchangeOrder x = some (id, leg) ↔
      ∃ g, ((withConfig maxActiveGroups).run before).getGroup id = some g ∧ leg ∈ g.legs ∧
        leg.exchangeOrderId = some x) ∧
    (∀ op rest, after = op :: rest → ∀ answer,
      ((withConfig maxActiveGroups).run before).createAnswer op = some answer →
      (answer = .error .maxGroupsExceeded ↔
        maxActiveGroups ≤ ((withConfig maxActiveGroups).run before).activeGroups) ∧
      ∀ g, answer = .ok g →
        ∃ g', (((withConfig maxActiveGroups).run before).run after).getGroup g.groupId = some g' ∧
          List.Forall₂ (fun l l' => l'.asCreated = l.asCreated) g.legs g'.legs) := by
  obtain ⟨first, second⟩ := Runs.guarded_append.1 orderly
  obtain ⟨consistent, -, limit⟩ := run_advances (withConfig_consistent maxActiveGroups) first
  refine ⟨consistent.index, consistent.getLegByExchangeOrder_iff, ?_⟩
  rintro op rest rfl answer answered
  obtain ⟨⟨own, once, room⟩, later⟩ := second
  constructor
  · have counted : answer = .error .maxGroupsExceeded ↔
        ((withConfig maxActiveGroups).run before).maxActiveGroups ≤
          ((withConfig maxActiveGroups).run before).activeGroups := createAnswer_limit room answered
    rw [counted, limit]
    rfl
  · rintro g rfl
    have found := created_found consistent own answered
    have next := (apply_advances _ op consistent own once).consistent
    exact (run_advances next later).retains g.groupId g found

end Advances

end MultiLegOrderManager

/-! ## A link, an id and a limit that go wrong -/

namespace StaleIndex

open MultiLegOrderManager

@[reducible] private def wholeLots : FloatOps Int where
  zero := 0
  add := (· + ·)
  mul := (· * ·)
  div := (· / ·)
  le a b := a ≤ b
  eq a b := a = b
  display a := toString a

attribute [local instance] wholeLots

private def spread (id long : String) : LinkedPairParams Int :=
  ⟨long, "kraken", 1, none, "ETH-USD", "kraken", 1, none, .market, .goodTillCancelled, some id⟩

private def exits : OcoParams Int :=
  ⟨"BTC-USD", "kraken", .sell, .limit, 1, 55000, .sell, .stop, 1, 48000, some 48000, .goodTillCancelled, none⟩

private def relinked : List (MultiLegOp Int) :=
  [.createLinkedPair (spread "p" "BTC-USD") 1 1, .linkExchangeOrder "p-L00" "x1" 2,
    .linkExchangeOrder "p-L00" "x2" 3]

private def refusedForLimit (answer : Option (Except MultiLegError (MultiLegOrderGroup Int))) : Bool :=
  match answer with
  | some (.error .maxGroupsExceeded) => true
  | _ => false

private def symbols (m : MultiLegOrderManager Int) (id : String) : Option (List String) :=
  (m.getGroup id).map fun g => g.legs.map OrderLeg.symbol

/-- A leg that was linked twice is still found under its first exchange order; a
    group under a reused id replaces the older one; a pair is created beyond the
    limit; and an OCO is refused because of a group that is cancelled. -/
theorem indexes_go_stale :
    (((withConfig 10).run relinked).getLegByExchangeOrder "x1").map (·.2.exchangeOrderId) = some (some "x2") ∧
      symbols ((withConfig 10).run [.createLinkedPair (spread "p" "BTC-USD") 1 1]) "p" =
        some ["BTC-USD", "ETH-USD"] ∧
      symbols ((withConfig 10).run
        [.createLinkedPair (spread "p" "BTC-USD") 1 1, .createLinkedPair (spread "p" "SOL-USD") 2 2]) "p" =
        some ["SOL-USD", "ETH-USD"] ∧
      ((withConfig 1).run [.createLinkedPair (spread "p" "BTC-USD") 1 1]).activeGroups = 1 ∧
      refusedForLimit (((withConfig 1).run [.createLinkedPair (spread "p" "BTC-USD") 1 1]).createAnswer
        (.createLinkedPair (spread "q" "BTC-USD") 2 2)) = false ∧
      ((withConfig 1).run [.createLinkedPair (spread "p" "BTC-USD") 1 1, .cancelGroup "p" 2]).activeGroups = 0 ∧
      refusedForLimit (((withConfig 1).run
        [.createLinkedPair (spread "p" "BTC-USD") 1 1, .cancelGroup "p" 2]).createAnswer
        (.createOco exits 3 3)) = true := by
  decide +kernel

/-- Two groups, each leg linked once: the leg of an exchange order is found. -/
theorem linked_once_found :
    ∃ g, ((withConfig 2).run [.createLinkedPair (spread "p" "BTC-USD") 1 1, .createOco exits 2 2,
        .linkExchangeOrder "p-L01" "x1" 3]).getGroup "p" = some g ∧
      ∃ leg ∈ g.legs, leg.legId = "p-L01" ∧ leg.exchangeOrderId = some "x1" := by
  have orderly : Runs.Guarded apply Orderly (withConfig 2 : MultiLegOrderManager Int)
      ([.createLinkedPair (spread "p" "BTC-USD") 1 1, .createOco exits 2 2,
        .linkExchangeOrder "p-L01" "x1" 3] ++ []) := by
    simp only [Runs.Guarded, Orderly, List.append_nil, and_true]
    decide +kernel
  obtain ⟨-, byOrder, -⟩ := orderly_run_indexes 2 _ _ orderly
  have looked : (((withConfig 2 : MultiLegOrderManager Int).run
      [.createLinkedPair (spread "p" "BTC-USD") 1 1, .createOco exits 2 2,
        .linkExchangeOrder "p-L01" "x1" 3]).getLegByExchangeOrder "x1").map (fun found => (found.1, found.2.legId)) =
      some ("p", "p-L01") := by
    decide +kernel
  obtain ⟨⟨id, leg⟩, found, same⟩ := Option.map_eq_some_iff.1 looked
  obtain ⟨ofGroup, legId⟩ := Prod.mk.inj same
  change id = "p" at ofGroup
  subst ofGroup
  obtain ⟨g, group, member, order⟩ := (byOrder "x1" "p" leg).1 found
  exact ⟨g, group, leg, member, legId, order⟩

end StaleIndex

end ExecutionHandler
