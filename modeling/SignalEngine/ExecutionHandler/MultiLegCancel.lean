import SignalEngine.ExecutionHandler.MultiLegFinished
import Mathlib.Algebra.Order.Field.Rat

/-! # Cancelling a group

A cancel asks for exactly the exchange orders that are at work, and it reaches the
legs that are at the exchange. A leg that was not sent yet, or that waits for its
entry, is left as it is and can still be sent.
-/

namespace ExecutionHandler

variable {F : Type}

/-! ## Legs that were sent -/

namespace OrderLeg

/-- A leg with an exchange order is not still to be sent, and no leg is rejected. -/
def Sent (l : OrderLeg F) : Prop :=
  l.status ≠ .rejected ∧ (l.exchangeOrderId.isSome → l.status ≠ .pending ∧ l.status ≠ .waiting)

/-- Not sent yet, or waiting for the entry. -/
def Unsent (l : OrderLeg F) : Prop := l.status = .pending ∨ l.status = .waiting

theorem sent_of_unlinked {l : OrderLeg F} (unlinked : l.exchangeOrderId = none) (status : l.Unsent) : l.Sent := by
  refine ⟨?_, ?_⟩
  · rcases status with pending | waiting
    · simp [pending]
    · simp [waiting]
  · simp [unlinked]

end OrderLeg

namespace MultiLegOrderGroup

variable {g : MultiLegOrderGroup F}

theorem sent_cancelRole (all : ∀ l ∈ g.legs, l.Sent) (role : LegRole) (now : Nat) :
    ∀ l ∈ (g.cancelRole role now).1.legs, l.Sent := by
  unfold cancelRole
  split
  · split
    · intro l member
      rcases mem_updateFirst member with old | ⟨l', -, rfl⟩
      · exact all l old
      · simp [OrderLeg.Sent, OrderLeg.cancel]
    · exact all
  · exact all

theorem sent_react (all : ∀ l ∈ g.legs, l.Sent) (leg : OrderLeg F) (now : Nat) :
    ∀ l ∈ (g.react leg now).group.legs, l.Sent := by
  unfold react
  split
  · split
    · exact sent_cancelRole all _ now
    · exact all
  · split
    · intro l member
      obtain ⟨l', old, rfl⟩ := List.mem_map.1 member
      split
      next waiting =>
        -- a waiting leg is not linked
        obtain ⟨-, linked⟩ := all l' old
        refine ⟨by simp, fun some => ?_⟩
        exact absurd waiting (linked some).2
      next => exact all l' old
    · split
      · exact sent_cancelRole all _ now
      · exact all
  · split
    · exact all
    · split
      · exact all
      · exact all
  · exact all

end MultiLegOrderGroup

namespace MultiLegOrderManager

theorem get_store (m : MultiLegOrderManager F) (g : MultiLegOrderGroup F) (id : String) :
    (m.store g).groups.get id = if id = g.groupId then some g else m.groups.get id := Registry.get_insert _ _ _ _

theorem cancelLeg_isFinal (l : OrderLeg F) (now : Nat) : (cancelLeg l now).status.isFinal = true ↔ ¬ l.Unsent := by
  unfold cancelLeg OrderLeg.Unsent
  cases status : l.status <;> simp [OrderLeg.cancel, LegStatus.isFinal, status]

theorem cancelled_orders {g : MultiLegOrderGroup F} (sent : ∀ l ∈ g.legs, l.Sent) (x : String) :
    x ∈ (g.legs.filter fun l => l.status == .submitted || l.status == .partiallyFilled).filterMap
        OrderLeg.exchangeOrderId ↔
      ∃ l ∈ g.legs, l.exchangeOrderId = some x ∧ l.status.isFinal = false := by
  simp only [List.mem_filterMap, List.mem_filter, Bool.or_eq_true, beq_iff_eq]
  constructor
  · rintro ⟨l, ⟨member, working⟩, order⟩
    refine ⟨l, member, order, ?_⟩
    rcases working with submitted | partly
    · rw [submitted]
      rfl
    · rw [partly]
      rfl
  · rintro ⟨l, member, order, live⟩
    obtain ⟨unrejected, linked⟩ := sent l member
    obtain ⟨notPending, notWaiting⟩ := linked (by rw [order]; rfl)
    refine ⟨l, ⟨member, ?_⟩, order⟩
    cases status : l.status <;> simp_all [LegStatus.isFinal]

end MultiLegOrderManager

/-! ## What an operation does to the groups -/

section Groups

variable [FloatOps F]

namespace MultiLegOrderGroup

inductive Created : MultiLegOp F → MultiLegOrderGroup F → Prop where
  | oco (p : OcoParams F) (stamp now : Nat) (groupId : String) : Created (.createOco p stamp now) (p.group groupId now)
  | bracket (p : BracketParams F) (stamp now : Nat) (groupId : String) (valid : p.validate = .ok ()) :
      Created (.createBracket p stamp now) (p.group groupId now)
  | linkedPair (p : LinkedPairParams F) (stamp now : Nat) (groupId : String) :
      Created (.createLinkedPair p stamp now) (p.group groupId now)

def cancel (g : MultiLegOrderGroup F) (now : Nat) : MultiLegOrderGroup F :=
  { g with
    legs := g.legs.map (MultiLegOrderManager.cancelLeg · now)
    state := .cancelled
    updatedAt := now
    completedAt := some now }

def linkLeg (g : MultiLegOrderGroup F) (legId exchangeOrderId : String) (now : Nat) : MultiLegOrderGroup F :=
  { g with legs := updateFirst (·.legId == legId) (·.link exchangeOrderId now) g.legs }

inductive Changes (g : MultiLegOrderGroup F) : MultiLegOp F → MultiLegOrderGroup F → Prop where
  | link (legId exchangeOrderId : String) (now : Nat) :
      Changes g (.linkExchangeOrder legId exchangeOrderId now) (g.linkLeg legId exchangeOrderId now)
  | fill (legId : String) (fill : ExecutionFill F) (exchangeTimestampNs : Option Nat) (now : Nat) (leg : OrderLeg F)
      (here : g.legs.find? (·.legId == legId) = some leg) :
      Changes g (.processLegFill legId fill exchangeTimestampNs now)
        (g.fillLeg legId (leg.fill fill exchangeTimestampNs now) now).group
  | cancel (groupId : String) (now : Nat) (live : g.isTerminal = false) :
      Changes g (.cancelGroup groupId now) (g.cancel now)

end MultiLegOrderGroup

namespace MultiLegOrderManager

open MultiLegOrderGroup

variable {m : MultiLegOrderManager F}

def target (m : MultiLegOrderManager F) : MultiLegOp F → Option String
  | .linkExchangeOrder legId _ _ | .processLegFill legId _ _ _ => m.legToGroup.get legId
  | .cancelGroup groupId _ => some groupId
  | _ => none

theorem get_create {op : MultiLegOp F} {client : Option String} {stamp : Nat} {g g' : MultiLegOrderGroup F} {id : String}
    (new : g.Created op) (found : ((m.groupIdFor client stamp).2.store g).groups.get id = some g') :
    m.groups.get id = some g' ∨ g'.Created op := by
  rw [get_store, (groupIdFor_groups m client stamp).1] at found
  split at found
  · obtain rfl := Option.some.inj found
    exact .inr new
  · exact .inl found

theorem apply_get {op : MultiLegOp F} {id : String} {g' : MultiLegOrderGroup F}
    (found : (m.apply op).groups.get id = some g') :
    m.groups.get id = some g' ∨ g'.Created op ∨
      ∃ g, m.groups.get id = some g ∧ m.target op = some id ∧ g.Changes op g' := by
  -- the group with a given id was replaced
  have modified {id' : String} {g after : MultiLegOrderGroup F} (old : m.groups.get id' = some g)
      (its : m.target op = some id') (changes : g.Changes op after)
      (found : (m.groups.modify id' fun _ => after).get id = some g') :
      m.groups.get id = some g' ∨ g'.Created op ∨
        ∃ g, m.groups.get id = some g ∧ m.target op = some id ∧ g.Changes op g' := by
    rw [Registry.get_modify] at found
    split at found
    next same =>
      subst same
      rw [old, Option.map_some, Option.some.injEq] at found
      subst found
      exact .inr (.inr ⟨g, old, its, changes⟩)
    next => exact .inl found
  cases op with
  | createOco p stamp now =>
      simp only [apply, createOco] at found
      split at found
      · exact .inl found
      · exact (get_create (.oco p stamp now _) found).imp_right .inl
  | createBracket p stamp now =>
      simp only [apply, createBracket] at found
      split at found
      · exact .inl found
      next valid => exact (get_create (.bracket p stamp now _ valid) found).imp_right .inl
  | createLinkedPair p stamp now => exact (get_create (.linkedPair p stamp now _) found).imp_right .inl
  | linkExchangeOrder legId exchangeOrderId now =>
      simp only [apply, linkExchangeOrder] at found
      split at found
      · exact .inl found
      next inGroup =>
        split at found
        · exact .inl found
        next old => exact modified old inGroup (.link legId exchangeOrderId now) found
  | processLegFill legId fill exchangeTimestampNs now =>
      simp only [apply, processLegFill] at found
      split at found
      · exact .inl found
      next inGroup =>
        split at found
        · exact .inl found
        next old =>
          split at found
          · exact .inl found
          next leg here => exact modified old inGroup (.fill legId fill exchangeTimestampNs now leg here) found
  | cancelGroup groupId now =>
      simp only [apply, cancelGroup] at found
      split at found
      · exact .inl found
      next g old =>
        split at found
        · exact .inl found
        next live => exact modified old rfl (.cancel groupId now (by simpa using live)) found

theorem run_groups {P : MultiLegOrderGroup F → Prop} (new : ∀ op g, g.Created op → P g)
    (kept : ∀ g op g', g.Changes op g' → P g → P g') (maxActiveGroups : Nat) (ops : List (MultiLegOp F)) :
    ∀ id g, ((withConfig maxActiveGroups).run ops).groups.get id = some g → P g := by
  have start : ∀ id g, (withConfig maxActiveGroups : MultiLegOrderManager F).groups.get id = some g → P g := by
    intro id g found
    cases found
  have unguarded : ∀ m : MultiLegOrderManager F, Runs.Guarded apply (fun _ _ => True) m ops := by
    induction ops with
    | nil => exact fun _ => trivial
    | cons op ops ih => exact fun m => ⟨trivial, ih (m.apply op)⟩
  refine @Runs.run_of_guarded _ _ apply (fun m => ∀ id g, m.groups.get id = some g → P g) (fun _ _ => True) ?_ ops _
    start (unguarded _)
  intro m op all _ id g' found
  rcases apply_get found with old | created | ⟨g, old, -, changes⟩
  · exact all id g' old
  · exact new op g' created
  · exact kept g op g' changes (all id g old)

end MultiLegOrderManager

/-! ## What a run keeps -/

theorem OrderLeg.sent_fill (l : OrderLeg F) (fill : ExecutionFill F) (exchangeTimestampNs : Option Nat) (now : Nat) :
    (l.fill fill exchangeTimestampNs now).Sent := by
  simp only [Sent, OrderLeg.fill]
  split <;> simp

namespace MultiLegOrderGroup

theorem created_unsent {op : MultiLegOp F} {g : MultiLegOrderGroup F} (created : g.Created op) :
    ∀ l ∈ g.legs, l.exchangeOrderId = none ∧ l.Unsent := by
  have contingent (immediately : Bool) : (if immediately then LegStatus.pending else .waiting) = .pending ∨
      (if immediately then LegStatus.pending else .waiting) = .waiting := by
    cases immediately
    · exact .inr rfl
    · exact .inl rfl
  cases created with
  | oco p stamp now groupId =>
      intro l member
      rcases List.mem_pair.1 member with rfl | rfl
      · exact ⟨rfl, .inl rfl⟩
      · exact ⟨rfl, .inl rfl⟩
  | bracket p stamp now groupId valid =>
      intro l member
      rcases List.mem_cons.1 member with rfl | exits
      · exact ⟨rfl, .inl rfl⟩
      rcases List.mem_pair.1 exits with rfl | rfl
      · exact ⟨rfl, contingent p.submitContingentImmediately⟩
      · exact ⟨rfl, contingent p.submitContingentImmediately⟩
  | linkedPair p stamp now groupId =>
      intro l member
      rcases List.mem_pair.1 member with rfl | rfl
      · exact ⟨rfl, .inl rfl⟩
      · exact ⟨rfl, .inl rfl⟩

variable {g : MultiLegOrderGroup F}

theorem sent_changes {op : MultiLegOp F} {g' : MultiLegOrderGroup F} (changes : g.Changes op g')
    (all : ∀ l ∈ g.legs, l.Sent) : ∀ l ∈ g'.legs, l.Sent := by
  cases changes with
  | link legId exchangeOrderId now =>
      intro l member
      rcases mem_updateFirst member with old | ⟨l', -, rfl⟩
      · exact all l old
      · simp [OrderLeg.Sent, OrderLeg.link]
  | fill legId fill exchangeTimestampNs now leg here =>
      apply sent_react
      intro l member
      rcases mem_updateFirst member with old | ⟨l', -, rfl⟩
      · exact all l old
      · exact leg.sent_fill fill exchangeTimestampNs now
  | cancel groupId now live =>
      intro l member
      obtain ⟨l', old, rfl⟩ := List.mem_map.1 member
      simp only [MultiLegOrderManager.cancelLeg]
      split
      · simp [OrderLeg.Sent, OrderLeg.cancel]
      · exact all l' old

end MultiLegOrderGroup

/-! ## Complete cancels -/

namespace MultiLegOrderManager

/-- A cancel that succeeds names the exchange orders of the legs that were at work and
    leaves no leg to be sent, activated or filled; one that fails changes nothing. -/
def CancelComplete (m : MultiLegOrderManager F) (groupId : String) (now : Nat) : Prop :=
  match m.cancelGroup groupId now with
  | (m', .ok ids) => ∃ g g', m.groups.get groupId = some g ∧ m'.groups.get groupId = some g' ∧
      (∀ x, x ∈ ids ↔ ∃ l ∈ g.legs, l.exchangeOrderId = some x ∧ l.status.isFinal = false) ∧
      ∀ l ∈ g'.legs, l.status.isFinal = true
  | (m', .error _) => m' = m

/-- In every state of a run a cancel is complete exactly when the group is finished or
    has no leg that is still to be sent. -/
theorem cancel_complete_iff (maxActiveGroups : Nat) (ops : List (MultiLegOp F)) (groupId : String) (now : Nat) :
    ((withConfig maxActiveGroups).run ops).CancelComplete groupId now ↔
      ∀ g, ((withConfig maxActiveGroups).run ops).groups.get groupId = some g → g.isTerminal = false →
        ∀ l ∈ g.legs, ¬ l.Unsent := by
  have sent := run_groups (P := fun g => ∀ l ∈ g.legs, l.Sent)
    (fun _ g created l member =>
      OrderLeg.sent_of_unlinked (MultiLegOrderGroup.created_unsent created l member).1
        (MultiLegOrderGroup.created_unsent created l member).2)
    (fun g op g' changes all => MultiLegOrderGroup.sent_changes changes all) maxActiveGroups ops
  generalize (withConfig maxActiveGroups : MultiLegOrderManager F).run ops = m at sent ⊢
  unfold CancelComplete cancelGroup
  cases found : m.groups.get groupId with
  | none => simp
  | some g =>
      by_cases terminal : g.isTerminal = true
      · simp [terminal]
      · have live : g.isTerminal = false := by simpa using terminal
        simp only [live, Bool.false_eq_true, if_false, Registry.get_modify, if_true, found, Option.map_some,
          Option.some.injEq]
        constructor
        · rintro ⟨_, _, rfl, rfl, -, final⟩ _ rfl - l member
          exact (cancelLeg_isFinal l now).1 (final _ (List.mem_map_of_mem member))
        · intro all
          refine ⟨g, _, rfl, rfl, cancelled_orders (sent groupId g found), ?_⟩
          intro l member
          obtain ⟨l', old, rfl⟩ := List.mem_map.1 member
          exact (cancelLeg_isFinal l' now).2 (all g rfl live l' old)

end MultiLegOrderManager

end Groups

/-! ## A bracket that is cancelled -/

@[reducible] def exactFloats : FloatOps ℚ where
  zero := 0
  add := (· + ·)
  mul := (· * ·)
  div := (· / ·)
  le a b := a ≤ b
  eq a b := a = b
  display a := toString a

namespace Cancelled

open MultiLegOrderManager

attribute [local instance] exactFloats

private def entryOf (groupId : String) : BracketParams ℚ :=
  ⟨"BTC-USD", "kraken", .buy, .limit, 1, some 50000, 48000, none, 55000, none, .goodTillCancelled, false, some groupId⟩

private def sentEntry : List (MultiLegOp ℚ) := [.createBracket (entryOf "b") 1 1, .linkExchangeOrder "b-L00" "x1" 2]

/-- The entry is cancelled; the exits still wait for it. -/
theorem waiting_exits_survive :
    ¬ ∀ (ops : List (MultiLegOp ℚ)) (groupId : String) (now : Nat),
      ((withConfig 10).run ops).CancelComplete groupId now := by
  intro all
  have complete := all sentEntry "b" 3
  unfold CancelComplete at complete
  have answered : (((withConfig 10).run sentEntry).cancelGroup "b" 3).2 = .ok ["x1"] := by decide +kernel
  have left : ((((withConfig 10).run sentEntry).cancelGroup "b" 3).1.groups.get "b").map
      (fun g => g.legs.map (·.status)) = some [.cancelled, .waiting, .waiting] := by decide +kernel
  revert complete answered left
  generalize ((withConfig 10).run sentEntry).cancelGroup "b" 3 = cancelled
  obtain ⟨m', answer⟩ := cancelled
  rintro complete rfl left
  obtain ⟨-, g', -, found, -, final⟩ := complete
  dsimp only at left
  rw [found, Option.map_some, Option.some.injEq] at left
  have waiting : LegStatus.waiting ∈ g'.legs.map (·.status) := by
    rw [left]
    decide
  obtain ⟨l, member, status⟩ := List.mem_map.1 waiting
  have finished := final l member
  rw [status] at finished
  cases finished

end Cancelled

end ExecutionHandler
