import SignalEngine.RebalancerRisk.Lifecycle
import Mathlib.Data.Finset.Max
import Mathlib.Data.Finset.Range
import Mathlib.Data.Finset.Filter
import Mathlib.Order.WithBot
import Mathlib.Order.Lattice.Nat

/-! # What the drawdown ladder asks for

The rung in force is the deeper of the deepest rung the drawdown reaches and the
deepest rung an earlier drawdown left that no recovery has released. The decision
of the overlay is that rung, unless a halt applies.
-/

open BrokerAdapters RebalancerCore RebalancerCore.DecMath Outcome

namespace RebalancerRisk

/-- A loss of at least the fraction of the reference, at 18 decimals rounded down. -/
def LossReaches (reference equity : Int) (fraction : Dec) : Prop :=
  fraction.atto * reference / 10 ^ maxScale ≤ reference - equity

/-- A loss of at most the recovered part of a trigger. -/
def LossWithin (reference equity : Int) (trigger recovery : Dec) : Prop :=
  reference - equity ≤ trigger.atto * recovery.atto / 10 ^ maxScale * reference / 10 ^ maxScale

instance (reference equity : Int) (fraction : Dec) : Decidable (LossReaches reference equity fraction) :=
  inferInstanceAs (Decidable (_ ≤ _))

instance (reference equity : Int) (trigger recovery : Dec) :
    Decidable (LossWithin reference equity trigger recovery) :=
  inferInstanceAs (Decidable (_ ≤ _))

def AccountState.mark (s : AccountState) (equity : Int) : Int :=
  (s.hwm.map Dec.atto).elim equity (max · equity)

namespace RiskPolicy

def reaches (policy : RiskPolicy) (mark equity : Int) (i : Nat) : Bool :=
  (policy.rungs[i]?).any fun r => decide (LossReaches mark equity r.trigger)

def releases (policy : RiskPolicy) (mark equity : Int) (i : Nat) : Bool :=
  (policy.rungs[i]?).any fun r => decide (LossWithin mark equity r.trigger policy.recoveryFraction)

def deepestReached (policy : RiskPolicy) (mark equity : Int) : WithBot ℕ :=
  ((Finset.range policy.rungs.length).filter fun i => policy.reaches mark equity i).max

/-- The deepest rung up to the one held that is not released. -/
def deepestHeld (policy : RiskPolicy) (mark equity : Int) : Option Nat → WithBot ℕ
  | some c => ((Finset.range (c + 1)).filter fun i => policy.releases mark equity i = false).max
  | none => ⊥

def rungInForce (policy : RiskPolicy) (mark equity : Int) (held : Option Nat) : WithBot ℕ :=
  policy.deepestReached mark equity ⊔ policy.deepestHeld mark equity held

end RiskPolicy

/-- The daily loss reaches its limit against a start of the day that is there. -/
def DailyLossReached (policy : RiskPolicy) (dayStart : Option Dec) (equity : Int) : Prop :=
  ∃ d ∈ dayStart, LossReaches d.atto equity policy.dailyLossLimit

def LastRungReached (policy : RiskPolicy) (mark equity : Int) : Prop :=
  policy.reaches mark equity (policy.rungs.length - 1) = true

/-- The decision that the ladder and the daily limit ask for, against a start of the day,
    a mark and the rung held before. -/
structure FollowsLadder (policy : RiskPolicy) (dayStart : Option Dec) (mark : Int) (held : Option Nat) (equity : Int)
    (d : RiskDecision) : Prop where
  halts : d.action = .haltFlatten ↔ DailyLossReached policy dayStart equity ∨ LastRungReached policy mark equity
  stops : d.action = .haltFlatten → d.riskScale = Dec.zero
  inForce : d.action ≠ .haltFlatten → d.nextRung = policy.rungInForce mark equity held
  scale : ∀ i, d.nextRung = some i → ∃ trigger scale,
    policy.rungs[i]? = some ⟨trigger, .shrink scale⟩ ∧ d.action = .shrink scale ∧ d.riskScale = scale
  fullSize : d.action ≠ .haltFlatten → d.nextRung = none → d.action = .none ∧ d.riskScale = one
  held : ∀ c, held = some c → c < policy.rungs.length
  branch : ∀ drawdown dailyLoss, d ≠ .halted .drawdownLadder
    [⟨.drawdownHalt, "internal: halt rung reached the shrink branch"⟩] drawdown dailyLoss

/-! ## A checked ladder -/

/-- What the constructor checks of the rungs behind a scale. -/
structure CheckedRungs (prevScale : Dec) (rungs : List Rung) : Prop where
  triggers : ∀ r ∈ rungs, 0 < r.trigger.atto ∧ r.trigger.atto ≤ 10 ^ maxScale
  scales : ∀ r ∈ rungs, ∀ scale, r.action = .shrink scale → 0 < scale.atto ∧ scale.atto ≤ prevScale.atto
  descending : rungs.Pairwise fun r r' => ∀ scale scale', r.action = .shrink scale → r'.action = .shrink scale' →
    scale'.atto ≤ scale.atto
  last : ∀ i r, rungs[i]? = some r → (r.action = .haltFlatten ↔ i + 1 = rungs.length)

theorem checkRungs_ok {rungs : List Rung} : ∀ {prevAt prevScale : Dec}, 0 ≤ prevAt.atto →
    checkRungs prevAt prevScale rungs = .ok () → CheckedRungs prevScale rungs := by
  induction rungs with
  | nil =>
      intro prevAt prevScale _ _
      exact ⟨by simp, by simp, .nil, by simp⟩
  | cons r rest ih =>
      intro prevAt prevScale nonneg checked
      rw [checkRungs] at checked
      split at checked
      · cases checked
      next ascending =>
      rw [not_or, Dec.le_iff, Dec.lt_iff, not_le, not_lt, one_atto] at ascending
      have positive : 0 < r.trigger.atto := by omega
      split at checked
      next scale shrinks =>
        split at checked
        · cases checked
        next more =>
        split at checked
        · cases checked
        next range =>
        split at checked
        · cases checked
        next down =>
        rw [not_or, Dec.le_iff, Dec.le_iff, Dec.atto_zero, not_le, not_le] at range
        rw [Dec.lt_iff, not_lt] at down
        have later := ih positive.le checked
        constructor
        case triggers =>
          intro r' member
          rcases List.mem_cons.1 member with rfl | old
          · exact ⟨positive, ascending.2⟩
          · exact later.triggers r' old
        case scales =>
          intro r' member scale' shrinks'
          rcases List.mem_cons.1 member with rfl | old
          · rw [shrinks] at shrinks'
            obtain rfl := RungAction.shrink.inj shrinks'
            exact ⟨range.1, down⟩
          · obtain ⟨positive', below⟩ := later.scales r' old scale' shrinks'
            exact ⟨positive', below.trans down⟩
        case descending =>
          refine List.pairwise_cons.2 ⟨fun r' member first second shrinks' shrinks'' => ?_, later.descending⟩
          rw [shrinks] at shrinks'
          obtain rfl := RungAction.shrink.inj shrinks'
          exact (later.scales r' member second shrinks'').2
        case last =>
          intro i r' found
          cases i with
          | zero =>
              obtain rfl := Option.some.inj found
              have some : 0 < rest.length := List.length_pos_iff.2 more
              rw [shrinks, List.length_cons]
              exact iff_of_false (by simp) (by omega)
          | succ i =>
              rw [List.getElem?_cons_succ] at found
              rw [later.last i r' found, List.length_cons]
              omega
      next halts =>
        split at checked
        · cases checked
        next none =>
        rw [ne_eq, not_not] at none
        subst none
        constructor
        case triggers =>
          intro r' member
          rw [List.mem_singleton.1 member]
          exact ⟨positive, ascending.2⟩
        case scales =>
          intro r' member scale shrinks
          rw [List.mem_singleton.1 member, halts] at shrinks
          cases shrinks
        case descending => exact List.pairwise_singleton _ _
        case last =>
          intro i r' found
          cases i with
          | zero =>
              obtain rfl := Option.some.inj found
              exact iff_of_true halts rfl
          | succ i => simp at found

structure RiskPolicy.Checked (policy : RiskPolicy) : Prop where
  daily : 0 < policy.dailyLossLimit.atto ∧ policy.dailyLossLimit.atto ≤ 10 ^ maxScale
  recovery : 0 < policy.recoveryFraction.atto
  some : policy.rungs ≠ []
  rungs : CheckedRungs one policy.rungs

theorem RiskPolicy.checked (policy : RiskPolicy) : policy.Checked := by
  have valid := policy.valid
  unfold checkPolicy at valid
  split at valid
  · cases valid
  next daily =>
  split at valid
  · cases valid
  next recovery =>
  split at valid
  · cases valid
  next some =>
  rw [not_or, Dec.le_iff, Dec.lt_iff, Dec.atto_zero, not_le, not_lt, one_atto] at daily
  rw [not_or, Dec.le_iff, Dec.atto_zero, not_le] at recovery
  exact ⟨daily, recovery.1, some, checkRungs_ok (le_refl _) valid⟩

/-! ## What the arithmetic computes -/

theorem breached_ok {reference equity fraction : Dec} {hit : Bool}
    (h : breached reference equity fraction = .ok hit) :
    hit = true ↔ LossReaches reference.atto equity.atto fraction := by
  obtain ⟨loss, subtracted, h⟩ := bind_eq_ok.1 h
  obtain ⟨threshold, multiplied, h⟩ := bind_eq_ok.1 h
  cases h
  rw [decide_eq_true_iff, Dec.le_iff, mul_ok multiplied, sub_ok subtracted, LossReaches]

theorem recovered_ok {reference equity trigger recovery : Dec} {back : Bool}
    (h : recovered reference equity trigger recovery = .ok back) :
    back = true ↔ LossWithin reference.atto equity.atto trigger recovery := by
  obtain ⟨loss, subtracted, h⟩ := bind_eq_ok.1 h
  obtain ⟨share, shared, h⟩ := bind_eq_ok.1 h
  obtain ⟨threshold, multiplied, h⟩ := bind_eq_ok.1 h
  cases h
  rw [decide_eq_true_iff, Dec.le_iff, mul_ok multiplied, mul_ok shared, sub_ok subtracted, LossWithin]

theorem markFor_atto (s : AccountState) (equity : Dec) : (markFor s equity).atto = s.mark equity.atto := by
  unfold markFor AccountState.mark
  cases s.hwm with
  | none => rfl
  | some h =>
      simp only [Option.map_some, Option.elim_some]
      split
      next below =>
        rw [Dec.le_iff] at below
        rw [max_eq_left below]
      next above =>
        rw [Dec.le_iff] at above
        rw [max_eq_right (not_le.1 above).le]

variable {s : AccountState} {policy : RiskPolicy} {hwm equity : Dec}

theorem highestHit_ok {rungs : List Rung} : ∀ {i : Nat} {raw found : Option Nat},
    highestHit hwm equity rungs i raw = .ok found →
      (found = raw ∧ ∀ r ∈ rungs, ¬ LossReaches hwm.atto equity.atto r.trigger) ∨
        ∃ j, found = some (i + j) ∧
          ((rungs[j]?).any fun r => decide (LossReaches hwm.atto equity.atto r.trigger)) = true ∧
          ∀ k, ((rungs[k]?).any fun r => decide (LossReaches hwm.atto equity.atto r.trigger)) = true → k ≤ j := by
  induction rungs with
  | nil =>
      intro i raw found h
      cases h
      exact .inl ⟨rfl, by simp⟩
  | cons r rest ih =>
      intro i raw found h
      obtain ⟨hit, computed, h⟩ := bind_eq_ok.1 h
      have reached := breached_ok computed
      rcases ih h with ⟨same, unhit⟩ | ⟨j, same, at', last⟩
      · cases hit with
        | false =>
            refine .inl ⟨same, ?_⟩
            intro r' member
            rcases List.mem_cons.1 member with rfl | old
            · exact mt reached.2 (by simp)
            · exact unhit r' old
        | true =>
            refine .inr ⟨0, same, by simpa using reached.1 rfl, ?_⟩
            intro k above
            cases k with
            | zero => exact le_refl _
            | succ k =>
                rw [List.getElem?_cons_succ, Option.any_eq_true] at above
                obtain ⟨r', found', above⟩ := above
                exact absurd (decide_eq_true_iff.1 above) (unhit r' (List.mem_of_getElem? found'))
      · refine .inr ⟨j + 1, by rw [same, Nat.add_right_comm, Nat.add_assoc], by simpa using at', ?_⟩
        intro k above
        cases k with
        | zero => exact Nat.zero_le _
        | succ k => exact Nat.succ_le_succ (last k (by simpa using above))

namespace RiskPolicy

variable {policy : RiskPolicy} {mark equity : Int}

theorem reaches_iff {i : Nat} :
    policy.reaches mark equity i = true ↔ ∃ r, policy.rungs[i]? = some r ∧ LossReaches mark equity r.trigger := by
  simp [reaches, Option.any_eq_true]

theorem lt_of_reaches {i : Nat} (reached : policy.reaches mark equity i = true) : i < policy.rungs.length := by
  obtain ⟨r, found, -⟩ := reaches_iff.1 reached
  exact (List.getElem?_eq_some_iff.1 found).1

theorem deepestReached_eq_some {i : Nat} (reached : policy.reaches mark equity i = true)
    (last : ∀ k, policy.reaches mark equity k = true → k ≤ i) : policy.deepestReached mark equity = i := by
  apply le_antisymm
  · refine Finset.max_le fun k member => ?_
    exact WithBot.coe_le_coe.2 (last k (Finset.mem_filter.1 member).2)
  · exact Finset.le_max (Finset.mem_filter.2 ⟨Finset.mem_range.2 (lt_of_reaches reached), reached⟩)

theorem deepestReached_eq_bot (unreached : ∀ i, policy.reaches mark equity i = false) :
    policy.deepestReached mark equity = ⊥ := by
  rw [deepestReached, Finset.max_eq_bot, Finset.filter_eq_empty_iff]
  intro i _
  simp [unreached i]

theorem deepestHeld_succ {c : Nat} : policy.deepestHeld mark equity (some (c + 1)) =
    if policy.releases mark equity (c + 1) = true then policy.deepestHeld mark equity (some c)
      else ((c + 1 : Nat) : WithBot ℕ) := by
  simp only [deepestHeld]
  rw [Finset.range_add_one, Finset.filter_insert]
  cases policy.releases mark equity (c + 1) with
  | true => simp
  | false =>
      have below : ((Finset.range (c + 1)).filter fun i => policy.releases mark equity i = false).max ≤
          ((c + 1 : Nat) : WithBot ℕ) := by
        refine Finset.max_le fun k member => ?_
        have smaller := Finset.mem_range.1 (Finset.mem_filter.1 member).1
        exact WithBot.coe_le_coe.2 smaller.le
      rw [if_pos rfl, if_neg (by simp), Finset.max_insert]
      exact max_eq_left below

theorem deepestHeld_zero : policy.deepestHeld mark equity (some 0) =
    if policy.releases mark equity 0 = true then ⊥ else ((0 : Nat) : WithBot ℕ) := by
  unfold deepestHeld
  cases released : policy.releases mark equity 0 with
  | true => simp [Finset.filter_singleton, released]
  | false => simp [Finset.filter_singleton, released]

end RiskPolicy

theorem highestHit_deepest {policy : RiskPolicy} {raw : Option Nat}
    (h : highestHit hwm equity policy.rungs 0 none = .ok raw) :
    policy.deepestReached hwm.atto equity.atto = raw := by
  rcases highestHit_ok h with ⟨rfl, unhit⟩ | ⟨i, rfl, reached, last⟩
  · refine RiskPolicy.deepestReached_eq_bot fun i => ?_
    rw [← Bool.not_eq_true, RiskPolicy.reaches_iff]
    rintro ⟨r, found, reached⟩
    exact unhit r (List.mem_of_getElem? found) reached
  · rw [Nat.zero_add]
    exact RiskPolicy.deepestReached_eq_some reached last

theorem recoveredFrom_ok {policy : RiskPolicy} {c : Nat} {back : Bool} (inside : c < policy.rungs.length)
    (h : recoveredFrom hwm equity policy c = .ok back) :
    policy.releases hwm.atto equity.atto c = back := by
  unfold recoveredFrom at h
  unfold RiskPolicy.releases
  rw [List.getElem?_eq_getElem inside] at h ⊢
  rw [Option.any_some, Bool.eq_iff_iff, decide_eq_true_iff]
  exact (recovered_ok h).symm

theorem release_ok {policy : RiskPolicy} {c : Nat} {held : Option Nat} (inside : c < policy.rungs.length)
    (h : release hwm equity policy c = .ok held) :
    policy.deepestHeld hwm.atto equity.atto (some c) = held := by
  induction c with
  | zero =>
      obtain ⟨back, computed, h⟩ := bind_eq_ok.1 h
      rw [RiskPolicy.deepestHeld_zero, recoveredFrom_ok inside computed]
      cases back <;> cases h <;> rfl
  | succ c ih =>
      obtain ⟨back, computed, h⟩ := bind_eq_ok.1 h
      rw [RiskPolicy.deepestHeld_succ, recoveredFrom_ok inside computed]
      cases back with
      | false =>
          cases h
          rfl
      | true => exact ih (by omega) h

theorem heldRung_inside {c : Nat} (held : heldRung s policy = some c) : c + 1 < policy.rungs.length := by
  unfold heldRung at held
  by_cases long : policy.rungs.length ≥ 2
  · simp only [long, if_true] at held
    split at held
    · split at held
      next first second same =>
        cases same
        cases held
        omega
      · cases held
      next first second same =>
        cases same
        cases held
        omega
      · cases held
    · cases held
  · simp only [long, if_false] at held
    split at held
    · split at held <;> simp_all
    · cases held

theorem stillHeld_ok {policy : RiskPolicy} {held : Option Nat} (h : stillHeld s hwm equity policy = .ok held) :
    policy.deepestHeld hwm.atto equity.atto (heldRung s policy) = held := by
  unfold stillHeld at h
  cases clamped : heldRung s policy with
  | none =>
      rw [clamped] at h
      cases h
      rfl
  | some c =>
      rw [clamped] at h
      exact release_ok (Nat.lt_of_succ_lt (heldRung_inside clamped)) h

theorem targetRung_sup (raw held : WithBot ℕ) : @Eq (WithBot ℕ) (targetRung raw held) (raw ⊔ held) := by
  cases raw with
  | bot => exact (bot_sup_eq held).symm
  | coe a =>
      cases held with
      | bot => exact (sup_bot_eq (a : WithBot ℕ)).symm
      | coe b => exact WithBot.coe_max a b

/-! ## The decision follows the ladder -/

theorem not_lossReaches_of_nonpos {reference equity : Int} {fraction : Dec} (atMost : fraction.atto ≤ 10 ^ maxScale)
    (nonpos : reference ≤ 0) (positive : 0 < equity) : ¬ LossReaches reference equity fraction := by
  have below : reference ≤ fraction.atto * reference / 10 ^ maxScale := by
    rw [Int.le_ediv_iff_mul_le (by decide), mul_comm reference]
    exact Int.mul_le_mul_of_nonpos_right atMost nonpos
  unfold LossReaches
  omega

theorem evaluateDailyLoss_ok {policy : RiskPolicy} {dailyLoss : Option Dec} {halt : Option RiskReason}
    (positive : 0 < equity.atto) (h : evaluateDailyLoss s equity policy = .ok (dailyLoss, halt)) :
    halt.isSome = true ↔ DailyLossReached policy s.dayStartEquity equity.atto := by
  unfold evaluateDailyLoss at h
  cases start : s.dayStartEquity with
  | none =>
      rw [start] at h
      cases h
      simp [DailyLossReached]
  | some dayStart =>
      have reached : DailyLossReached policy (some dayStart) equity.atto ↔
          LossReaches dayStart.atto equity.atto policy.dailyLossLimit := by
        simp [DailyLossReached]
      simp only [start] at h
      rw [reached]
      split at h
      next above =>
        obtain ⟨hit, computed, h⟩ := bind_eq_ok.1 h
        rw [← breached_ok computed]
        split at h
        next isHit =>
          obtain ⟨loss, -, h⟩ := bind_eq_ok.1 h
          cases h
          exact iff_of_true rfl isHit
        next missed =>
          cases h
          exact iff_of_false (by simp) missed
      next below =>
        cases h
        rw [Dec.isPositive_iff, not_lt] at below
        exact iff_of_false (by simp) (not_lossReaches_of_nonpos policy.checked.daily.2 below positive)

theorem lastRungReached_iff {mark equity : Int} {raw : Option Nat} (deepest : policy.deepestReached mark equity = raw) :
    LastRungReached policy mark equity ↔ ∃ i r, raw = some i ∧ policy.rungs[i]? = some r ∧ r.action = .haltFlatten := by
  have some : 0 < policy.rungs.length := List.length_pos_iff.2 policy.checked.some
  constructor
  · intro last
    have same := RiskPolicy.deepestReached_eq_some last fun k reached => by
      have inside := RiskPolicy.lt_of_reaches reached
      omega
    obtain ⟨r, found, -⟩ := RiskPolicy.reaches_iff.1 last
    exact ⟨_, r, deepest.symm.trans same, found, (policy.checked.rungs.last _ r found).2 (by omega)⟩
  · rintro ⟨i, r, rfl, found, halts⟩
    have member := Finset.mem_of_max deepest
    have last := (policy.checked.rungs.last i r found).1 halts
    obtain rfl : i = policy.rungs.length - 1 := by omega
    exact (Finset.mem_filter.1 member).2

theorem evaluateLadder_ok {policy : RiskPolicy} {raw : Option Nat} {halt : Option RiskReason}
    (h : evaluateLadder hwm equity policy raw = .ok halt) :
    (halt.isSome = true ↔ ∃ i r, raw = some i ∧ policy.rungs[i]? = some r ∧ r.action = .haltFlatten) ∧
      ∀ reason ∈ halt, reason.message.toList.head? = some 'e' := by
  unfold evaluateLadder at h
  split at h
  next trigger found =>
    obtain ⟨loss, -, h⟩ := bind_eq_ok.1 h
    cases h
    obtain ⟨i, same, found⟩ := Option.bind_eq_some_iff.1 found
    refine ⟨iff_of_true rfl ⟨i, _, same, found, rfl⟩, ?_⟩
    intro reason member
    cases member
    have starts : (toString "equity ").toList.head? = some 'e' := rfl
    simp [String.toList_append, starts]
  next other =>
    cases h
    refine ⟨iff_of_false (by simp) ?_, by simp⟩
    rintro ⟨i, ⟨trigger, action⟩, rfl, found, rfl⟩
    exact other trigger (by simpa using found)

theorem target_shrinks {raw held : Option Nat} {i : Nat} (deepest : policy.deepestReached hwm.atto equity.atto = raw)
    (still : stillHeld s hwm equity policy = .ok held) (runs : ¬ LastRungReached policy hwm.atto equity.atto)
    (target : targetRung raw held = some i) :
    ∃ trigger scale, policy.rungs[i]? = some ⟨trigger, .shrink scale⟩ := by
  have inside : i + 1 < policy.rungs.length := by
    have chosen : raw = some i ∨ held = some i := by
      cases raw with
      | none => exact .inr target
      | some a =>
          cases held with
          | none => exact .inl target
          | some b =>
              obtain rfl := Option.some.inj target
              rcases max_choice a b with same | same
              · exact .inl (congrArg some same.symm)
              · exact .inr (congrArg some same.symm)
    rcases chosen with rfl | rfl
    · have reached := (Finset.mem_filter.1 (Finset.mem_of_max deepest)).2
      have bound := RiskPolicy.lt_of_reaches reached
      rcases Nat.lt_or_ge (i + 1) policy.rungs.length with inside | outside
      · exact inside
      · obtain rfl : i = policy.rungs.length - 1 := by omega
        exact absurd reached runs
    · have deepestHeld := stillHeld_ok still
      cases clamped : heldRung s policy with
      | none =>
          rw [clamped] at deepestHeld
          cases deepestHeld
      | some c =>
          rw [clamped] at deepestHeld
          have member := (Finset.mem_filter.1 (Finset.mem_of_max deepestHeld)).1
          have bound := heldRung_inside clamped
          rw [Finset.mem_range] at member
          omega
  obtain ⟨⟨trigger, action⟩, found⟩ : ∃ r, policy.rungs[i]? = some r :=
    ⟨_, List.getElem?_eq_getElem (Nat.lt_of_succ_lt inside)⟩
  cases action with
  | shrink scale => exact ⟨trigger, scale, found⟩
  | haltFlatten =>
      have last := (policy.checked.rungs.last i _ found).1 rfl
      omega

theorem followsLadder_of_halted {s : AccountState} {equity : Int} {halt : HaltReason} {reasons : List RiskReason}
    {drawdown dailyLoss : Option Dec} {mark : Int}
    (limit : DailyLossReached policy s.dayStartEquity equity ∨ LastRungReached policy mark equity)
    (told : halt = .drawdownLadder → ∀ reason ∈ reasons, reason.message.toList.head? = some 'e') :
    FollowsLadder policy s.dayStartEquity mark (heldRung s policy) equity (.halted halt reasons drawdown dailyLoss) where
  halts := iff_of_true rfl limit
  inForce := fun runs => absurd rfl runs
  scale := by simp [RiskDecision.halted]
  stops := fun _ => rfl
  fullSize := fun runs => absurd rfl runs
  held := fun _ held => Nat.lt_of_succ_lt (heldRung_inside held)
  branch := by
    intro drawdown' dailyLoss' same
    simp only [RiskDecision.halted, RiskDecision.mk.injEq, Option.some.injEq, true_and] at same
    have first := told same.2.1 _ (by rw [same.1]; exact List.mem_singleton_self _)
    cases first

theorem followsLadder_of_posture {s : AccountState} {equity hwm : Dec} {raw held : Option Nat}
    {drawdown dailyLoss : Option Dec} (deepest : policy.deepestReached hwm.atto equity.atto = raw)
    (still : stillHeld s hwm equity policy = .ok held)
    (daily : ¬ DailyLossReached policy s.dayStartEquity equity.atto)
    (runs : ¬ LastRungReached policy hwm.atto equity.atto) :
    FollowsLadder policy s.dayStartEquity hwm.atto (heldRung s policy) equity.atto
      (posture s policy hwm raw (targetRung raw held) drawdown dailyLoss) := by
  have inForce : policy.rungInForce hwm.atto equity.atto (heldRung s policy) = targetRung raw held := by
    rw [RiskPolicy.rungInForce, deepest, stillHeld_ok still]
    exact (targetRung_sup raw held).symm
  have unreached := not_or.2 ⟨daily, runs⟩
  have inside : ∀ c, heldRung s policy = some c → c < policy.rungs.length :=
    fun _ held => Nat.lt_of_succ_lt (heldRung_inside held)
  cases target : targetRung raw held with
  | none =>
      rw [target] at inForce
      exact {
        halts := iff_of_false (fun same => by cases same) unreached
        inForce := fun _ => inForce.symm
        scale := fun _ same => by cases same
        stops := fun same => by cases same
        fullSize := fun _ _ => ⟨rfl, rfl⟩
        held := inside
        branch := by
          intro drawdown' dailyLoss' same
          cases congrArg RiskDecision.action same }
  | some i =>
      obtain ⟨trigger, scale, found⟩ := target_shrinks deepest still runs target
      rw [target] at inForce
      simp only [posture, found]
      exact {
        halts := iff_of_false (fun same => by cases same) unreached
        inForce := fun _ => inForce.symm
        scale := by
          intro j same
          cases same
          exact ⟨trigger, scale, found, rfl, rfl⟩
        stops := fun same => by cases same
        fullSize := fun _ none => by cases none
        held := inside
        branch := by
          intro drawdown' dailyLoss' same
          cases congrArg RiskDecision.action same }

theorem evaluateInner_follows {snapshot : EquitySnapshot} {policy : RiskPolicy} {d : RiskDecision}
    (running : s.status.isHalt = false) (positive : 0 < snapshot.equity.atto)
    (h : evaluateInner s snapshot policy = .ok d) :
    FollowsLadder policy s.dayStartEquity (s.mark snapshot.equity.atto) (heldRung s policy) snapshot.equity.atto d := by
  simp only [evaluateInner, running, Bool.false_eq_true, if_false, Dec.isPositive_iff.2 positive, not_true] at h
  obtain ⟨⟨dailyLoss, dailyHalt⟩, daily, h⟩ := bind_eq_ok.1 h
  obtain ⟨raw, walked, h⟩ := bind_eq_ok.1 h
  obtain ⟨ladderHalt, ladder, h⟩ := bind_eq_ok.1 h
  have dailyIff := evaluateDailyLoss_ok positive daily
  have deepest := highestHit_deepest walked
  obtain ⟨ladderIff, told⟩ := evaluateLadder_ok ladder
  rw [← lastRungReached_iff deepest] at ladderIff
  rw [← markFor_atto]
  cases dailyHalt with
  | some reason =>
      cases h
      exact followsLadder_of_halted (.inl (dailyIff.1 rfl)) (by simp)
  | none =>
      cases ladderHalt with
      | some reason =>
          cases h
          refine followsLadder_of_halted (.inr (ladderIff.1 rfl)) fun _ reason' member => ?_
          rw [List.mem_singleton.1 member]
          exact told reason rfl
      | none =>
          obtain ⟨held, still, h⟩ := bind_eq_ok.1 h
          cases h
          exact followsLadder_of_posture deepest still (mt dailyIff.2 (by simp)) (mt ladderIff.2 (by simp))

/-! ## A step of the account -/

namespace AccountState

theorem ratchet_atto (s : AccountState) (adds : s.status.mayAddRisk = true) (equity : Dec) :
    (s.ratchet equity).map Dec.atto = some (s.mark equity.atto) := by
  have marked := markFor_atto s equity
  unfold markFor at marked
  unfold ratchet
  rw [if_pos adds, ← marked]
  cases s.hwm with
  | none => rfl
  | some h =>
      simp only
      split <;> rfl

theorem observeWith_hwm (s : AccountState) (snapshot : EquitySnapshot) (day : NaiveDate) (rule : DayStartRule) :
    (s.observeWith snapshot day rule).hwm = s.ratchet snapshot.equity := by
  cases rule with
  | firstObservation =>
      simp only [observeWith, observe]
      split <;> rfl
  | utcMidnight lag =>
      simp only [observeWith, observeAnchored]
      split <;> rfl

theorem observeWith_mark {s : AccountState} (adds : s.status.mayAddRisk = true) (snapshot : EquitySnapshot)
    (day : NaiveDate) (rule : DayStartRule) :
    (s.observeWith snapshot day rule).mark snapshot.equity.atto = s.mark snapshot.equity.atto := by
  rw [mark, observeWith_hwm, ratchet_atto s adds, Option.elim_some]
  refine max_eq_left ?_
  unfold mark
  cases s.hwm with
  | none => exact le_refl _
  | some h => exact le_max_right _ _

theorem observeWith_heldRung (s : AccountState) (snapshot : EquitySnapshot) (day : NaiveDate) (rule : DayStartRule)
    (policy : RiskPolicy) : heldRung (s.observeWith snapshot day rule) policy = heldRung s policy := by
  have observed := observeWith_observed s snapshot day rule
  rw [heldRung, heldRung, observed.status, observed.shrinkRung]

theorem mayAddRisk_iff {s : AccountState} : s.status.mayAddRisk = true ↔ s.status.isHalt = false := by
  cases s.status <;> decide

theorem applyDecision_scale {s : AccountState} (adds : s.status.mayAddRisk = true) {policy : RiskPolicy}
    {dayStart : Option Dec} {mark : Int} {held : Option Nat} {equity : Int} {d : RiskDecision}
    (follows : FollowsLadder policy dayStart mark held equity d) (at' : Timestamp) :
    (applyDecision s d at').1.effectiveRiskScale = d.riskScale := by
  have running := mayAddRisk_iff.1 adds
  rw [applyDecision, if_neg (by simp [running])]
  cases action : d.action with
  | none =>
      have full := follows.fullSize (by simp [action])
      cases rung : d.nextRung with
      | none => simp [withFullSize, adds, effectiveRiskScale, (full rung).2]
      | some i =>
          obtain ⟨trigger, scale, -, shrinks, -⟩ := follows.scale i rung
          rw [action] at shrinks
          cases shrinks
  | shrink scale =>
      cases rung : d.nextRung with
      | none =>
          have full := follows.fullSize (by simp [action]) rung
          rw [action] at full
          cases full.1
      | some i =>
          obtain ⟨trigger, scale', -, shrinks, same⟩ := follows.scale i rung
          rw [action] at shrinks
          obtain rfl := RiskAction.shrink.inj shrinks
          simp [withShrink, adds, effectiveRiskScale, same]
  | haltFlatten => simp [beginFlatten, enterHalt, running, effectiveRiskScale, follows.stops action]

/-- A step of an account that may add risk decides what the ladder asks for, and leaves
    the account at the scale decided. -/
theorem stepWith_followsLadder {s : AccountState} {snapshot : EquitySnapshot} {day : NaiveDate}
    {policy : RiskPolicy} {rule : DayStartRule} (adds : s.status.mayAddRisk = true)
    (positive : 0 < snapshot.equity.atto)
    (fits : ∀ e, evaluateInner (s.observeWith snapshot day rule) snapshot policy ≠ .error e) :
    FollowsLadder policy (s.observeWith snapshot day rule).dayStartEquity (s.mark snapshot.equity.atto)
        (heldRung s policy) snapshot.equity.atto (stepWith s snapshot day policy rule).2.1 ∧
      (stepWith s snapshot day policy rule).1.effectiveRiskScale =
        (stepWith s snapshot day policy rule).2.1.riskScale := by
  have status := (observeWith_observed s snapshot day rule).status
  have adds' : (s.observeWith snapshot day rule).status.mayAddRisk = true := status.symm ▸ adds
  cases decided : evaluateInner (s.observeWith snapshot day rule) snapshot policy with
  | error e => exact absurd decided (fits e)
  | ok d =>
      have follows := evaluateInner_follows (mayAddRisk_iff.1 adds') positive decided
      rw [observeWith_mark adds, observeWith_heldRung] at follows
      have step : evaluateRisk (s.observeWith snapshot day rule) snapshot policy = d := by
        rw [evaluateRisk, decided]
      simp only [stepWith, step]
      exact ⟨follows, applyDecision_scale adds' follows snapshot.at'⟩

/-- A loss of a sixth after a mark of 100 leaves the account on the first rung. -/
theorem stepWith_followsLadder_first_rung :
    FollowsLadder twoRungPolicy (some (equityAt 100 (by decide) 0).equity) (100 * 10 ^ maxScale) none
      (84 * 10 ^ maxScale)
      (stepWith ((new "acct").observe (equityAt 100 (by decide) 0) 0) (equityAt 84 (by decide) 1) 0 twoRungPolicy
        .firstObservation).2.1 :=
  (@stepWith_followsLadder ((new "acct").observe (equityAt 100 (by decide) 0) 0) (equityAt 84 (by decide) 1) 0
    twoRungPolicy .firstObservation rfl (by decide) (fun e => by
      have evaluated : (evaluateInner (((new "acct").observe (equityAt 100 (by decide) 0) 0).observeWith
          (equityAt 84 (by decide) 1) 0 .firstObservation) (equityAt 84 (by decide) 1) twoRungPolicy).toOption.isSome =
            true := by decide
      intro failed
      rw [failed] at evaluated
      cases evaluated)).1

end AccountState

end RebalancerRisk
