import SignalEngine.ExecutionHandler.MultiLeg

/-! # Finished groups stay finished

A run in which no fill comes to a finished group and no exchange order is linked
to a finished leg leaves finished groups and legs as they are and counts every
finished group once. A fill that comes later is not refused: it can complete a
cancelled group and count it a second time.
-/

namespace ExecutionHandler

open FloatOps

variable {F : Type}

/-! ## Groups -/

def LegKeeps (l l' : OrderLeg F) : Prop := l'.legId = l.legId ∧ (l.status.isFinal = true → l'.status = l.status)

theorem LegKeeps.refl (l : OrderLeg F) : LegKeeps l l := ⟨rfl, fun _ => rfl⟩

theorem LegKeeps.trans {a b c : OrderLeg F} (first : LegKeeps a b) (second : LegKeeps b c) :
    LegKeeps a c := by
  refine ⟨second.1.trans first.1, fun final => ?_⟩
  have middle := first.2 final
  rw [second.2 (middle ▸ final), middle]

theorem LegKeeps.of_open {l l' : OrderLeg F} (id : l'.legId = l.legId) (isOpen : l.status.isFinal = false) :
    LegKeeps l l' :=
  ⟨id, fun final => absurd (isOpen.symm.trans final) Bool.false_ne_true⟩

def GroupKeeps (g g' : MultiLegOrderGroup F) : Prop :=
  (g.isTerminal = true → g'.state = g.state) ∧ List.Forall₂ LegKeeps g.legs g'.legs

theorem GroupKeeps.refl (g : MultiLegOrderGroup F) : GroupKeeps g g :=
  ⟨fun _ => rfl, List.forall₂_same.2 fun l _ => .refl l⟩

theorem forall₂_trans {α : Type} {R : α → α → Prop} (trans : ∀ a b c, R a b → R b c → R a c)
    {as bs cs : List α} (first : List.Forall₂ R as bs) (second : List.Forall₂ R bs cs) :
    List.Forall₂ R as cs := by
  induction first generalizing cs with
  | nil => exact second
  | cons head _ ih =>
      cases second with
      | cons head' tail' => exact .cons (trans _ _ _ head head') (ih tail')

theorem GroupKeeps.trans {a b c : MultiLegOrderGroup F} (first : GroupKeeps a b) (second : GroupKeeps b c) :
    GroupKeeps a c := by
  refine ⟨fun terminal => ?_, forall₂_trans (R := LegKeeps) (fun _ _ _ => LegKeeps.trans) first.2 second.2⟩
  have middle := first.1 terminal
  have still : b.isTerminal = true := by
    rw [MultiLegOrderGroup.isTerminal, middle]
    exact terminal
  rw [second.1 still, middle]

namespace MultiLegOrderGroup

/-- No operation rejects a leg. -/
def Unrejected (g : MultiLegOrderGroup F) : Prop := ∀ l ∈ g.legs, l.status ≠ .rejected

def Live (g : MultiLegOrderGroup F) : Prop := g.isTerminal = false → ∀ l ∈ g.legs, l.status ≠ .cancelled

variable {g : MultiLegOrderGroup F}

theorem live_of_terminal (terminal : g.isTerminal = true) : g.Live :=
  fun no => absurd (no.symm.trans terminal) Bool.false_ne_true

theorem cancelRole_keeps (unrejected : g.Unrejected) (role : LegRole) (now : Nat) :
    List.Forall₂ LegKeeps g.legs (g.cancelRole role now).1.legs ∧ (g.cancelRole role now).1.Unrejected := by
  have same : List.Forall₂ LegKeeps g.legs g.legs := List.forall₂_same.2 fun l _ => .refl l
  unfold cancelRole
  split
  next leg found =>
    split
    next live =>
      constructor
      · apply forall₂_updateFirst LegKeeps.refl
        intro l here
        obtain rfl := Option.some.inj (found.symm.trans here)
        refine LegKeeps.of_open (show (leg.cancel now).legId = leg.legId from rfl) ?_
        have notRejected := unrejected leg (List.mem_of_find?_eq_some found)
        cases status : leg.status <;> simp_all [LegStatus.isFinal]
      · intro l member
        rcases mem_updateFirst member with old | ⟨l', -, rfl⟩
        · exact unrejected l old
        · simp [OrderLeg.cancel]
    · exact ⟨same, unrejected⟩
  · exact ⟨same, unrejected⟩

/-- What the group does after a fill: finished legs stay, and the group ends up
    complete or is not finished. -/
structure Reacts (g : MultiLegOrderGroup F) (r : MultiLegOrderGroup F) : Prop where
  legs : List.Forall₂ LegKeeps g.legs r.legs
  unrejected : r.Unrejected
  state : g.isTerminal = false → r.isTerminal = true → r.state = .completed
  live : g.isTerminal = false → g.Live → r.Live

theorem finishWith_reacts (unrejected : g.Unrejected) (other : LegRole) (details : String) (now : Nat) :
    g.Reacts (g.finishWith other details now).1 := by
  obtain ⟨legs, still⟩ := cancelRole_keeps unrejected other now
  exact ⟨legs, still, fun _ _ => rfl, fun _ _ => live_of_terminal rfl⟩

theorem reacts_refl (unrejected : g.Unrejected) : g.Reacts g :=
  ⟨List.forall₂_same.2 fun l _ => .refl l, unrejected,
    fun no yes => absurd (no.symm.trans yes) Bool.false_ne_true, fun _ live => live⟩

theorem activateWaiting_reacts (unrejected : g.Unrejected) (now : Nat) :
    g.Reacts { g.activateWaiting now with state := .entryFilled } := by
  refine ⟨?_, ?_, (fun _ terminal => nomatch terminal), ?_⟩
  · simp only [activateWaiting]
    rw [List.forall₂_map_right_iff, List.forall₂_same]
    intro l _
    split
    next waiting => exact .of_open rfl (by rw [waiting]; rfl)
    · exact .refl l
  · intro l member
    obtain ⟨l', old, rfl⟩ := List.mem_map.1 member
    split
    · rintro ⟨⟩
    · exact unrejected l' old
  · intro going live _ l member
    obtain ⟨l', old, rfl⟩ := List.mem_map.1 member
    split
    · rintro ⟨⟩
    · exact live going l' old

theorem react_reacts (unrejected : g.Unrejected) (leg : OrderLeg F) (now : Nat) :
    g.Reacts (g.react leg now).group := by
  unfold react
  split
  · split
    · exact finishWith_reacts unrejected _ "OCO: Other leg cancelled" now
    · exact reacts_refl unrejected
  · split
    · exact activateWaiting_reacts unrejected now
    · split
      · exact finishWith_reacts unrejected _ "Bracket: Other contingent cancelled" now
      · exact reacts_refl unrejected
  · split
    · exact ⟨List.forall₂_same.2 fun l _ => .refl l, unrejected, fun _ _ => rfl,
        fun _ _ => live_of_terminal rfl⟩
    · split
      · exact ⟨List.forall₂_same.2 fun l _ => .refl l, unrejected, (fun _ terminal => nomatch terminal),
          fun going live _ => live going⟩
      · exact reacts_refl unrejected
  · exact reacts_refl unrejected

end MultiLegOrderGroup

namespace MultiLegOrderManager

/-! ## One operation -/

def Keeps (m m' : MultiLegOrderManager F) : Prop :=
  ∀ id g, m.groups.get id = some g → ∃ g', m'.groups.get id = some g' ∧ GroupKeeps g g'

theorem Keeps.refl (m : MultiLegOrderManager F) : Keeps m m := fun _ g found => ⟨g, found, .refl g⟩

theorem Keeps.trans {a b c : MultiLegOrderManager F} (first : Keeps a b) (second : Keeps b c) : Keeps a c := by
  intro id g found
  obtain ⟨g', found', kept⟩ := first id g found
  obtain ⟨g'', found'', kept'⟩ := second id g' found'
  exact ⟨g'', found'', kept.trans kept'⟩

structure Counted (m : MultiLegOrderManager F) : Prop where
  tidy : ∀ id g, m.groups.get id = some g → g.Unrejected ∧ g.Live
  total : m.stats.groupsCompleted + m.stats.groupsCancelled =
    UInt64.ofNat (m.groups.count MultiLegOrderGroup.isTerminal)

variable {m : MultiLegOrderManager F}

theorem modify_keeps {m' : MultiLegOrderManager F} {id : String} {g after : MultiLegOrderGroup F}
    (found : m.groups.get id = some g) (changed : m'.groups = m.groups.modify id fun _ => after)
    (kept : GroupKeeps g after) : Keeps m m' := by
  intro id' g' found'
  rw [changed, Registry.get_modify]
  by_cases same : id' = id
  · subst same
    obtain rfl := Option.some.inj (found.symm.trans found')
    exact ⟨after, by rw [if_pos rfl, found]; rfl, kept⟩
  · exact ⟨g', by rw [if_neg same]; exact found', .refl g'⟩

theorem modify_tidy {m' : MultiLegOrderManager F} {id : String} {after : MultiLegOrderGroup F} (counted : m.Counted)
    (changed : m'.groups = m.groups.modify id fun _ => after) (tidy : after.Unrejected ∧ after.Live) :
    ∀ id' g, m'.groups.get id' = some g → g.Unrejected ∧ g.Live := by
  intro id' g found
  rw [changed, Registry.get_modify] at found
  split at found
  · obtain ⟨-, -, rfl⟩ := Option.map_eq_some_iff.1 found
    exact tidy
  · exact counted.tidy id' g found

theorem count_finished {id : String} {g : MultiLegOrderGroup F} (found : m.groups.get id = some g)
    (going : g.isTerminal = false) (after : MultiLegOrderGroup F) :
    UInt64.ofNat ((m.groups.modify id fun _ => after).count MultiLegOrderGroup.isTerminal) =
      UInt64.ofNat (m.groups.count MultiLegOrderGroup.isTerminal) + if after.isTerminal then 1 else 0 := by
  have count := Registry.count_modify (p := MultiLegOrderGroup.isTerminal) found (fun _ => after)
  rw [going] at count
  cases terminal : after.isTerminal with
  | true =>
      rw [terminal] at count
      rw [← Nat.add_zero (Registry.count _ _), ← Bool.toNat_false, count, UInt64.ofNat_add]
      rfl
  | false =>
      rw [terminal] at count
      rw [← Nat.add_zero (Registry.count _ _), ← Bool.toNat_false, count]
      simp

/-- The group of a leg, and the leg in it. -/
def holder (m : MultiLegOrderManager F) (legId : String) : Option (MultiLegOrderGroup F × OrderLeg F) := do
  let id ← m.legToGroup.get legId
  let g ← m.groups.get id
  let leg ← g.legs.find? (·.legId == legId)
  return (g, leg)

theorem holder_eq {legId id : String} {g : MultiLegOrderGroup F} {leg : OrderLeg F}
    (inGroup : m.legToGroup.get legId = some id) (found : m.groups.get id = some g)
    (here : g.legs.find? (·.legId == legId) = some leg) : m.holder legId = some (g, leg) := by
  simp [holder, inGroup, found, here]

theorem store_counted (counted : m.Counted) {g : MultiLegOrderGroup F} (fresh : m.groups.get g.groupId = none)
    (pending : g.state = .pending) (tidy : g.Unrejected ∧ g.Live) :
    (m.store g).Counted ∧ Keeps m (m.store g) := by
  refine ⟨⟨?_, ?_⟩, ?_⟩
  · intro id g' found
    simp only [store, Registry.get_insert] at found
    split at found
    · obtain rfl := Option.some.inj found
      exact tidy
    · exact counted.tidy id g' found
  · have notFinished : g.isTerminal = false := by rw [MultiLegOrderGroup.isTerminal, pending]; rfl
    simp only [store]
    rw [Registry.count_insert fresh, notFinished]
    exact counted.total
  · intro id g' found
    have other : id ≠ g.groupId := by
      rintro rfl
      rw [fresh] at found
      cases found
    exact ⟨g', by simp only [store, Registry.get_insert, if_neg other]; exact found, .refl g'⟩

theorem groupIdFor_groups (m : MultiLegOrderManager F) (client : Option String) (stamp : Nat) :
    (m.groupIdFor client stamp).2.groups = m.groups ∧ (m.groupIdFor client stamp).2.stats = m.stats := by
  cases client <;> exact ⟨rfl, rfl⟩

theorem groupIdFor_counted (counted : m.Counted) (client : Option String) (stamp : Nat) :
    (m.groupIdFor client stamp).2.Counted ∧ Keeps m (m.groupIdFor client stamp).2 := by
  obtain ⟨groups, stats⟩ := groupIdFor_groups m client stamp
  refine ⟨⟨?_, ?_⟩, ?_⟩
  · rw [groups]
    exact counted.tidy
  · rw [groups, stats]
    exact counted.total
  · intro id g found
    exact ⟨g, by rw [groups]; exact found, .refl g⟩

theorem create_counted (counted : m.Counted) (client : Option String) (stamp : Nat) {g : MultiLegOrderGroup F}
    (own : g.groupId = (m.groupIdFor client stamp).1) (fresh : m.groups.get (m.groupIdFor client stamp).1 = none)
    (pending : g.state = .pending) (tidy : g.Unrejected ∧ g.Live) :
    ((m.groupIdFor client stamp).2.store g).Counted ∧ Keeps m ((m.groupIdFor client stamp).2.store g) := by
  obtain ⟨first, kept⟩ := groupIdFor_counted counted client stamp
  have free : (m.groupIdFor client stamp).2.groups.get g.groupId = none := by
    rw [(groupIdFor_groups m client stamp).1, own]
    exact fresh
  obtain ⟨second, kept'⟩ := store_counted first free pending tidy
  exact ⟨second, kept.trans kept'⟩

theorem tidy_of_waiting {g : MultiLegOrderGroup F}
    (waiting : ∀ l ∈ g.legs, l.status = .pending ∨ l.status = .waiting) : g.Unrejected ∧ g.Live := by
  constructor
  · intro l member
    rcases waiting l member with status | status <;> rw [status] <;> rintro ⟨⟩
  · intro _ l member
    rcases waiting l member with status | status <;> rw [status] <;> rintro ⟨⟩

theorem fillLeg_keeps {g : MultiLegOrderGroup F} {legId : String} {leg filled : OrderLeg F} (now : Nat)
    (unrejected : g.Unrejected) (live : g.Live) (going : g.isTerminal = false)
    (here : g.legs.find? (·.legId == legId) = some leg) (kept : LegKeeps leg filled)
    (status : filled.status = .filled ∨ filled.status = .partiallyFilled) :
    List.Forall₂ LegKeeps g.legs (g.fillLeg legId filled now).group.legs ∧
      (g.fillLeg legId filled now).group.Unrejected ∧ (g.fillLeg legId filled now).group.Live ∧
      ((g.fillLeg legId filled now).group.isTerminal = true →
        (g.fillLeg legId filled now).group.state = .completed) := by
  -- the group with the filled leg in place, before its own logic
  generalize placed : updateFirst (·.legId == legId) (fun _ => filled) g.legs = legs
  have legsKept : List.Forall₂ LegKeeps g.legs legs := by
    rw [← placed]
    apply forall₂_updateFirst LegKeeps.refl
    intro l found
    obtain rfl := Option.some.inj (here.symm.trans found)
    exact kept
  have statuses : ∀ l ∈ legs, l ∈ g.legs ∨ l.status = .filled ∨ l.status = .partiallyFilled := by
    intro l member
    rw [← placed] at member
    rcases mem_updateFirst member with old | ⟨-, -, rfl⟩
    · exact .inl old
    · exact .inr status
  have unrejected' : ({ g with legs } : MultiLegOrderGroup F).Unrejected := by
    intro l member
    rcases statuses l member with old | full | partly
    · exact unrejected l old
    · rw [full]
      rintro ⟨⟩
    · rw [partly]
      rintro ⟨⟩
  have live' : ({ g with legs } : MultiLegOrderGroup F).Live := by
    intro _ l member
    rcases statuses l member with old | full | partly
    · exact live going l old
    · rw [full]
      rintro ⟨⟩
    · rw [partly]
      rintro ⟨⟩
  have reacts := MultiLegOrderGroup.react_reacts unrejected' filled now
  simp only [MultiLegOrderGroup.fillLeg, placed]
  refine ⟨?_, reacts.unrejected, reacts.live going live', reacts.state going⟩
  exact forall₂_trans (R := LegKeeps) (fun _ _ _ => LegKeeps.trans) legsKept reacts.legs

theorem cancelGroup_counted (counted : m.Counted) (id : String) (now : Nat) :
    (m.cancelGroup id now).1.Counted ∧ Keeps m (m.cancelGroup id now).1 := by
  unfold cancelGroup
  split
  · exact ⟨counted, .refl m⟩
  next g found =>
    split
    · exact ⟨counted, .refl m⟩
    next notTerminal =>
      have going : g.isTerminal = false := by simpa using notTerminal
      obtain ⟨unrejected, -⟩ := counted.tidy id g found
      have legs : List.Forall₂ LegKeeps g.legs (g.legs.map (cancelLeg · now)) := by
        rw [List.forall₂_map_right_iff, List.forall₂_same]
        intro l _
        unfold cancelLeg
        split
        next atExchange =>
          refine LegKeeps.of_open (show (l.cancel now).legId = l.legId from rfl) ?_
          rcases atExchange with status | status <;> rw [status] <;> rfl
        · exact .refl l
      have unrejected' : ∀ l ∈ g.legs.map (cancelLeg · now), l.status ≠ .rejected := by
        intro l member
        obtain ⟨l', old, rfl⟩ := List.mem_map.1 member
        simp only [cancelLeg]
        split
        · rintro ⟨⟩
        · exact unrejected l' old
      refine ⟨⟨modify_tidy counted rfl ⟨unrejected', MultiLegOrderGroup.live_of_terminal rfl⟩, ?_⟩,
        modify_keeps found rfl ⟨fun terminal => absurd (going.symm.trans terminal) Bool.false_ne_true, legs⟩⟩
      simp only
      rw [count_finished found going, ← counted.total]
      simp only [MultiLegOrderGroup.isTerminal, GroupState.isTerminal, if_true]
      exact (UInt64.add_assoc _ _ _).symm

variable [FloatOps F]

/-- A new group does not take an id that is in use. -/
def freshIds (m : MultiLegOrderManager F) : MultiLegOp F → Bool
  | .createOco p stamp _ => (m.groups.get (m.groupIdFor p.clientGroupId stamp).1).isNone
  | .createBracket p stamp _ => (m.groups.get (m.groupIdFor p.clientGroupId stamp).1).isNone
  | .createLinkedPair p stamp _ => (m.groups.get (m.groupIdFor p.clientGroupId stamp).1).isNone
  | _ => true

/-- No fill comes to a finished group or takes a filled leg back below its
    quantity, and no exchange order is linked to a finished leg. -/
def timely (m : MultiLegOrderManager F) : MultiLegOp F → Bool
  | .processLegFill legId fill _ _ => (m.holder legId).all fun (g, leg) =>
      !g.isTerminal && (leg.status != .filled || le leg.quantity (add leg.filledQuantity fill.quantity))
  | .linkExchangeOrder legId _ _ => (m.holder legId).all fun (_, leg) => !leg.status.isFinal
  | _ => true

theorem createOco_counted (counted : m.Counted) (p : OcoParams F) (stamp now : Nat)
    (fresh : m.freshIds (.createOco p stamp now) = true) :
    (m.createOco p stamp now).1.Counted ∧ Keeps m (m.createOco p stamp now).1 := by
  unfold createOco
  split
  · exact ⟨counted, .refl m⟩
  · refine create_counted counted p.clientGroupId stamp rfl (Option.isNone_iff_eq_none.1 fresh) rfl (tidy_of_waiting ?_)
    intro l member
    rcases List.mem_pair.1 member with rfl | rfl
    · exact .inl rfl
    · exact .inl rfl

theorem createBracket_counted (counted : m.Counted) (p : BracketParams F) (stamp now : Nat)
    (fresh : m.freshIds (.createBracket p stamp now) = true) :
    (m.createBracket p stamp now).1.Counted ∧ Keeps m (m.createBracket p stamp now).1 := by
  unfold createBracket
  split
  · exact ⟨counted, .refl m⟩
  · refine create_counted counted p.clientGroupId stamp rfl (Option.isNone_iff_eq_none.1 fresh) rfl (tidy_of_waiting ?_)
    have contingent : ∀ now : Bool, (if now then LegStatus.pending else .waiting) = .pending ∨
        (if now then LegStatus.pending else .waiting) = .waiting := by
      decide
    intro l member
    simp only [BracketParams.group, MultiLegOrderGroup.fresh, List.mem_cons, List.not_mem_nil, or_false] at member
    rcases member with rfl | rfl | rfl
    · exact .inl rfl
    · exact contingent p.submitContingentImmediately
    · exact contingent p.submitContingentImmediately

theorem createLinkedPair_counted (counted : m.Counted) (p : LinkedPairParams F) (stamp now : Nat)
    (fresh : m.freshIds (.createLinkedPair p stamp now) = true) :
    (m.createLinkedPair p stamp now).1.Counted ∧ Keeps m (m.createLinkedPair p stamp now).1 := by
  refine create_counted counted p.clientGroupId stamp rfl (Option.isNone_iff_eq_none.1 fresh) rfl (tidy_of_waiting ?_)
  intro l member
  rcases List.mem_pair.1 member with rfl | rfl
  · exact .inl rfl
  · exact .inl rfl

theorem fill_keeps {leg : OrderLeg F} {fill : ExecutionFill F} {exchangeTimestampNs : Option Nat} {now : Nat}
    (notCancelled : leg.status ≠ .cancelled) (notRejected : leg.status ≠ .rejected)
    (full : leg.status = .filled → le leg.quantity (add leg.filledQuantity fill.quantity) = true) :
    LegKeeps leg (leg.fill fill exchangeTimestampNs now) := by
  refine ⟨rfl, fun final => ?_⟩
  have filled : leg.status = .filled := by
    cases status : leg.status <;> simp_all [LegStatus.isFinal]
  simp only [OrderLeg.fill]
  rw [if_pos (full filled), filled]

theorem processLegFill_counted (counted : m.Counted) (legId : String) (fill : ExecutionFill F)
    (exchangeTimestampNs : Option Nat) (now : Nat)
    (inTime : m.timely (.processLegFill legId fill exchangeTimestampNs now) = true) :
    (m.processLegFill legId fill exchangeTimestampNs now).1.Counted ∧
      Keeps m (m.processLegFill legId fill exchangeTimestampNs now).1 := by
  unfold processLegFill
  split
  · exact ⟨counted, .refl m⟩
  next id inGroup =>
    split
    · exact ⟨counted, .refl m⟩
    next g found =>
      split
      · exact ⟨counted, .refl m⟩
      next leg here =>
        simp only [timely, holder_eq inGroup found here, Option.all_some, Bool.and_eq_true,
          Bool.not_eq_true', Bool.or_eq_true, bne_iff_ne] at inTime
        obtain ⟨going, full⟩ := inTime
        obtain ⟨unrejected, live⟩ := counted.tidy id g found
        have member := List.mem_of_find?_eq_some here
        have kept : LegKeeps leg (leg.fill fill exchangeTimestampNs now) :=
          fill_keeps (live going leg member) (unrejected leg member) (full.resolve_left ∘ not_not.2)
        have status : (leg.fill fill exchangeTimestampNs now).status = .filled ∨
            (leg.fill fill exchangeTimestampNs now).status = .partiallyFilled := by
          simp only [OrderLeg.fill]
          split
          · exact .inl rfl
          · exact .inr rfl
        obtain ⟨legs, unrejected', live', completed⟩ :=
          fillLeg_keeps now unrejected live going here kept status
        refine ⟨⟨modify_tidy counted rfl ⟨unrejected', live'⟩, ?_⟩,
          modify_keeps found rfl ⟨fun terminal => absurd (going.symm.trans terminal) Bool.false_ne_true, legs⟩⟩
        have counts := count_finished found going
          (g.fillLeg legId (leg.fill fill exchangeTimestampNs now) now).group
        dsimp only
        generalize (g.fillLeg legId (leg.fill fill exchangeTimestampNs now) now).group = after
          at completed counts ⊢
        have sameTest : (after.state == .completed) = after.isTerminal := by
          cases terminal : after.isTerminal with
          | true =>
              rw [completed terminal]
              rfl
          | false =>
              rw [beq_eq_false_iff_ne]
              intro done
              rw [MultiLegOrderGroup.isTerminal, done] at terminal
              cases terminal
        simp only [sameTest, counts, bump, ← counted.total]
        cases after.isTerminal with
        | true =>
            simp only [if_true]
            rw [UInt64.add_assoc, UInt64.add_comm 1, ← UInt64.add_assoc]
        | false => simp

theorem linkExchangeOrder_counted (counted : m.Counted) (legId exchangeOrderId : String) (now : Nat)
    (inTime : m.timely (.linkExchangeOrder legId exchangeOrderId now) = true) :
    (m.linkExchangeOrder legId exchangeOrderId now).1.Counted ∧
      Keeps m (m.linkExchangeOrder legId exchangeOrderId now).1 := by
  unfold linkExchangeOrder
  split
  · exact ⟨counted, .refl m⟩
  next id inGroup =>
    split
    · exact ⟨counted, .refl m⟩
    next g found =>
      obtain ⟨unrejected, live⟩ := counted.tidy id g found
      have linked : ∀ l ∈ updateFirst (·.legId == legId) (·.link exchangeOrderId now) g.legs,
          l ∈ g.legs ∨ l.status = .submitted := by
        intro l member
        rcases mem_updateFirst member with old | ⟨-, -, rfl⟩
        · exact .inl old
        · exact .inr rfl
      refine ⟨⟨modify_tidy counted rfl ⟨?_, ?_⟩, ?_⟩, modify_keeps found rfl ⟨fun _ => rfl, ?_⟩⟩
      · intro l member
        rcases linked l member with old | status
        · exact unrejected l old
        · rw [status]
          rintro ⟨⟩
      · intro going l member
        rcases linked l member with old | status
        · exact live going l old
        · rw [status]
          rintro ⟨⟩
      · have count := Registry.count_modify (p := MultiLegOrderGroup.isTerminal) found fun _ =>
          { g with legs := updateFirst (·.legId == legId) (·.link exchangeOrderId now) g.legs }
        have same := Nat.add_right_cancel count
        simp only [same]
        exact counted.total
      · apply forall₂_updateFirst LegKeeps.refl
        intro l here
        refine .of_open (show (l.link exchangeOrderId now).legId = l.legId from rfl) ?_
        simpa [timely, holder_eq inGroup found here] using inTime

/-! ## Runs -/

theorem apply_counted (m : MultiLegOrderManager F) (op : MultiLegOp F) (counted : m.Counted)
    (allowed : m.freshIds op = true ∧ m.timely op = true) :
    (m.apply op).Counted ∧ Keeps m (m.apply op) := by
  obtain ⟨fresh, inTime⟩ := allowed
  cases op with
  | createOco p stamp now => exact createOco_counted counted p stamp now fresh
  | createBracket p stamp now => exact createBracket_counted counted p stamp now fresh
  | createLinkedPair p stamp now => exact createLinkedPair_counted counted p stamp now fresh
  | linkExchangeOrder legId exchangeOrderId now =>
      exact linkExchangeOrder_counted counted legId exchangeOrderId now inTime
  | processLegFill legId fill exchangeTimestampNs now =>
      exact processLegFill_counted counted legId fill exchangeTimestampNs now inTime
  | cancelGroup groupId now => exact cancelGroup_counted counted groupId now

omit [FloatOps F] in
theorem withConfig_counted (maxActiveGroups : Nat) :
    (withConfig maxActiveGroups : MultiLegOrderManager F).Counted :=
  ⟨(fun _ _ found => nomatch found), rfl⟩

/-- In a run whose fills and links come in time, what is finished at some point is
    finished the same way at every later one, and the two counters add up to the
    number of finished groups. -/
theorem timely_run_keeps_finished (maxActiveGroups : Nat) (before after : List (MultiLegOp F))
    (guarded : Runs.Guarded apply (fun m op => freshIds m op = true ∧ timely m op = true) (withConfig maxActiveGroups)
      (before ++ after)) :
    (∀ id g, ((withConfig maxActiveGroups).run before).groups.get id = some g →
      ∃ g', (((withConfig maxActiveGroups).run before).run after).groups.get id = some g' ∧
        (g.isTerminal = true → g'.state = g.state) ∧
        List.Forall₂ (fun l l' => l'.legId = l.legId ∧ (l.status.isFinal = true → l'.status = l.status))
          g.legs g'.legs) ∧
    ((withConfig maxActiveGroups).run before).stats.groupsCompleted +
        ((withConfig maxActiveGroups).run before).stats.groupsCancelled =
      UInt64.ofNat (((withConfig maxActiveGroups).run before).groups.count MultiLegOrderGroup.isTerminal) := by
  obtain ⟨first, second⟩ := Runs.guarded_append.1 guarded
  obtain ⟨counted, -⟩ := Runs.guarded_related (R := Keeps) (fun m _ => .refl m) Keeps.trans
    apply_counted (withConfig_counted maxActiveGroups) first
  obtain ⟨-, kept⟩ := Runs.guarded_related (R := Keeps) (fun m _ => .refl m) Keeps.trans
    apply_counted counted second
  exact ⟨kept, counted.total⟩

end MultiLegOrderManager

/-! ## A late fill -/

namespace LateFill

open MultiLegOrderManager

/-- Whole amounts, which floats hold exactly. -/
@[reducible] private def wholeAmounts : FloatOps Int where
  zero := 0
  add := (· + ·)
  mul := (· * ·)
  div := (· / ·)
  le a b := a ≤ b
  eq a b := a = b
  display a := toString a

attribute [local instance] wholeAmounts

private def exit : OcoParams Int :=
  ⟨"BTC-USD", "kraken", .sell, .limit, 1, 55000, .sell, .stop, 1, 48000, some 48000, .goodTillCancelled,
    some "exit"⟩

private def sold (price : Int) : ExecutionFill Int := ⟨"f1", 1, price, 0⟩

private def opening : List (MultiLegOp Int) :=
  [.createOco exit 1 1, .linkExchangeOrder "exit-L00" "x1" 2, .linkExchangeOrder "exit-L01" "x2" 3]

private def stateOf (m : MultiLegOrderManager Int) : Option GroupState :=
  (m.groups.get "exit").map MultiLegOrderGroup.state

private def legStatus (m : MultiLegOrderManager Int) : Option (List LegStatus) :=
  (m.groups.get "exit").map fun g => g.legs.map OrderLeg.status

/-- A cancelled group whose order was filled in the meantime: the late fill
    completes the group, revives its leg and counts the group a second time. -/
theorem late_fill_completes_cancelled :
    Runs.Guarded apply (fun m op => freshIds m op = true) (withConfig 10)
        (opening ++ [.cancelGroup "exit" 4] ++ [.processLegFill "exit-L00" (sold 55000) none 5]) ∧
      stateOf ((withConfig 10).run (opening ++ [.cancelGroup "exit" 4])) = some .cancelled ∧
      legStatus ((withConfig 10).run (opening ++ [.cancelGroup "exit" 4])) = some [.cancelled, .cancelled] ∧
      stateOf (((withConfig 10).run (opening ++ [.cancelGroup "exit" 4])).run
        [.processLegFill "exit-L00" (sold 55000) none 5]) = some .completed ∧
      legStatus (((withConfig 10).run (opening ++ [.cancelGroup "exit" 4])).run
        [.processLegFill "exit-L00" (sold 55000) none 5]) = some [.filled, .cancelled] ∧
      ((((withConfig 10).run (opening ++ [.cancelGroup "exit" 4])).run
        [.processLegFill "exit-L00" (sold 55000) none 5]).stats.groupsCompleted = 1) ∧
      ((((withConfig 10).run (opening ++ [.cancelGroup "exit" 4])).run
        [.processLegFill "exit-L00" (sold 55000) none 5]).stats.groupsCancelled = 1) := by
  decide +kernel

/-- The fill in time: the group completes, and a cancel that comes later is refused. -/
theorem filled_in_time :
    ∃ g', (((withConfig 10).run (opening ++ [.processLegFill "exit-L00" (sold 55000) none 4])).run
        [.cancelGroup "exit" 5]).groups.get "exit" = some g' ∧ g'.state = .completed := by
  have guarded : Runs.Guarded apply (fun m op => freshIds m op = true ∧ timely m op = true) (withConfig 10)
      ((opening ++ [.processLegFill "exit-L00" (sold 55000) none 4]) ++ [.cancelGroup "exit" 5]) := by
    decide +kernel
  obtain ⟨kept, -⟩ := timely_run_keeps_finished 10 _ _ guarded
  have done : stateOf ((withConfig 10).run (opening ++ [.processLegFill "exit-L00" (sold 55000) none 4])) =
      some .completed := by
    decide +kernel
  obtain ⟨g, found, completed⟩ := Option.map_eq_some_iff.1 done
  obtain ⟨g', found', state, -⟩ := kept "exit" g found
  have terminal : g.isTerminal = true := by
    rw [MultiLegOrderGroup.isTerminal, completed]
    rfl
  exact ⟨g', found', (state terminal).trans completed⟩

end LateFill

end ExecutionHandler
