import SignalEngine.Lib.Runs
import SignalEngine.RebalancerRisk.Overlay

/-! # Runs of the account state machine

Every call that can change an account, as an event; whole runs of them; and the
two facts the rest of the system relies on: a halt is left by a resume only, and
which runs reach states a store can read back.
-/

open BrokerAdapters RebalancerCore Outcome Runs

namespace RebalancerRisk

inductive Event where
  | observe (snapshot : EquitySnapshot) (day : NaiveDate)
  | observeAnchored (snapshot : EquitySnapshot) (maxLagSecs : Int)
  | halt (reason : HaltReason) (detail : String) (at' : Timestamp)
  | beginFlatten (reason : HaltReason) (detail : String) (at' : Timestamp)
  | completeFlatten (verifiedFlat : Bool)
  | resume (approval : HumanApproval) (equity : EquitySnapshot) (day : NaiveDate)
  /-- A decision evaluated on any state, which need not be the one it is applied to. -/
  | applyDecision (evaluated : AccountState) (snapshot : EquitySnapshot) (policy : RiskPolicy)
      (at' : Timestamp)
  | step (snapshot : EquitySnapshot) (day : NaiveDate) (policy : RiskPolicy) (rule : DayStartRule)

namespace AccountState

def next (s : AccountState) : Event → AccountState
  | .observe snapshot day => s.observe snapshot day
  | .observeAnchored snapshot maxLagSecs => s.observeAnchored snapshot maxLagSecs
  | .halt reason detail at' => (s.haltNow reason detail at').1
  | .beginFlatten reason detail at' => (s.beginFlatten reason detail at').1
  | .completeFlatten verifiedFlat => (s.completeFlatten verifiedFlat).1
  | .resume approval equity day =>
      match s.resume approval equity day with
      | .ok (resumed, _) => resumed
      | .error _ => s
  | .applyDecision evaluated snapshot policy at' =>
      (RebalancerRisk.applyDecision s (evaluateRisk evaluated snapshot policy) at').1
  | .step snapshot day policy rule => (stepWith s snapshot day policy rule).1

/-! ## Observation -/

/-- An observation touches only the readings and, outside a halt, the high-water mark. -/
structure Observed (s s' : AccountState) : Prop where
  status : s'.status = s.status
  riskScale : s'.riskScale = s.riskScale
  shrinkRung : s'.shrinkRung = s.shrinkRung
  halt : s'.halt = s.halt
  resumes : s'.resumes = s.resumes
  hwm : s.status.isHalt = true → s'.hwm = s.hwm

variable {s : AccountState}

theorem ratchet_of_halt (halted : s.status.isHalt = true) (equity : Dec) : s.ratchet equity = s.hwm := by
  unfold ratchet
  cases status : s.status with
  | active => simp [status, AccountStatus.isHalt] at halted
  | shrunk => simp [status, AccountStatus.isHalt] at halted
  | flattening => simp [AccountStatus.mayAddRisk]
  | halted => simp [AccountStatus.mayAddRisk]

theorem observe_observed (s : AccountState) (snapshot : EquitySnapshot) (day : NaiveDate) :
    Observed s (s.observe snapshot day) := by
  unfold observe
  split <;> exact ⟨rfl, rfl, rfl, rfl, rfl, fun halted => ratchet_of_halt halted _⟩

theorem observeAnchored_observed (s : AccountState) (snapshot : EquitySnapshot)
    (maxLagSecs : Int) : Observed s (s.observeAnchored snapshot maxLagSecs) := by
  simp only [observeAnchored]
  cases s.isNewDay (dateNaive snapshot.at') <;>
    exact ⟨rfl, rfl, rfl, rfl, rfl, fun halted => ratchet_of_halt halted _⟩

theorem observeWith_observed (s : AccountState) (snapshot : EquitySnapshot) (day : NaiveDate)
    (rule : DayStartRule) : Observed s (s.observeWith snapshot day rule) := by
  cases rule with
  | firstObservation => exact observe_observed ..
  | utcMidnight maxLagSecs => exact observeAnchored_observed ..

/-! ## A halt is sticky -/

/-- When and why the halt in force began. -/
def haltMark (s : AccountState) : Option (HaltReason × Timestamp) :=
  s.halt.map fun h => (h.reason, h.at')

/-- What no event but a resume changes once a halt is in force. -/
structure Frozen (s s' : AccountState) : Prop where
  halts : s'.status.isHalt = true
  stays : s.status = .halted → s'.status = .halted
  scale : s'.effectiveRiskScale = Dec.zero
  hwm : s'.hwm = s.hwm
  mark : s'.haltMark = s.haltMark
  resumes : s'.resumes = s.resumes

theorem effectiveRiskScale_of_halt (halted : s.status.isHalt = true) : s.effectiveRiskScale = Dec.zero := by
  unfold effectiveRiskScale
  cases status : s.status with
  | active => simp [status, AccountStatus.isHalt] at halted
  | shrunk => simp [status, AccountStatus.isHalt] at halted
  | flattening => rfl
  | halted => rfl

theorem Frozen.refl (halted : s.status.isHalt = true) : Frozen s s :=
  ⟨halted, id, effectiveRiskScale_of_halt halted, rfl, rfl, rfl⟩

theorem Frozen.trans {a b c : AccountState} (first : Frozen a b) (second : Frozen b c) :
    Frozen a c where
  halts := second.halts
  stays := second.stays ∘ first.stays
  scale := second.scale
  hwm := second.hwm.trans first.hwm
  mark := second.mark.trans first.mark
  resumes := second.resumes.trans first.resumes

theorem Observed.frozen {s' : AccountState} (h : Observed s s') (halted : s.status.isHalt = true) : Frozen s s' := by
  have halts : s'.status.isHalt = true := h.status ▸ halted
  refine ⟨halts, fun stays => h.status.trans stays, effectiveRiskScale_of_halt halts,
    h.hwm halted, ?_, h.resumes⟩
  rw [haltMark, h.halt, haltMark]

theorem enterHalt_of_halt (halted : s.status.isHalt = true) (target : AccountStatus) (reason : HaltReason)
    (detail : String) (at' : Timestamp) :
    s.enterHalt target reason detail at' = (s, none) := by
  rw [enterHalt, if_pos halted]

theorem applyDecision_of_halt (halted : s.status.isHalt = true) (decision : RiskDecision) (at' : Timestamp) :
    applyDecision s decision at' = (s, none) := by
  rw [applyDecision, if_pos halted]

theorem completeFlatten_frozen (halted : s.status.isHalt = true) (verifiedFlat : Bool) :
    Frozen s (s.completeFlatten verifiedFlat).1 := by
  unfold completeFlatten
  split
  · exact .refl halted
  next flattening =>
      rw [not_not] at flattening
      cases verifiedFlat with
      | true => exact ⟨rfl, fun _ => rfl, rfl, rfl, rfl, rfl⟩
      | false =>
          refine ⟨halted, id, effectiveRiskScale_of_halt halted, rfl, ?_, rfl⟩
          simp only [haltMark]
          cases s.halt <;> rfl

def Event.isResume : Event → Bool
  | .resume .. => true
  | _ => false

theorem next_frozen {e : Event} (halted : s.status.isHalt = true) (automatic : Event.isResume e = false) :
    Frozen s (s.next e) := by
  cases e with
  | observe snapshot day => exact (observe_observed s snapshot day).frozen halted
  | observeAnchored snapshot maxLagSecs =>
      exact (observeAnchored_observed s snapshot maxLagSecs).frozen halted
  | halt reason detail at' =>
      simp only [next, haltNow, enterHalt_of_halt halted]
      exact .refl halted
  | beginFlatten reason detail at' =>
      simp only [next, beginFlatten, enterHalt_of_halt halted]
      exact .refl halted
  | completeFlatten verifiedFlat => exact completeFlatten_frozen halted verifiedFlat
  | resume approval equity day => cases automatic
  | applyDecision evaluated snapshot policy at' =>
      simp only [next, applyDecision_of_halt halted]
      exact .refl halted
  | step snapshot day policy rule =>
      have observed := (observeWith_observed s snapshot day rule).frozen halted
      simp only [next, stepWith, applyDecision_of_halt observed.halts]
      exact observed

theorem run_frozen {events : List Event} (halted : s.status.isHalt = true)
    (automatic : ∀ e ∈ events, Event.isResume e = false) : Frozen s (run next s events) := by
  have related := run_related (R := Frozen) (I := fun s => s.status.isHalt = true)
    (A := fun e => Event.isResume e = false) (fun _ => Frozen.refl) Frozen.trans
    (fun _ _ halted automatic =>
      ⟨(next_frozen halted automatic).halts, next_frozen halted automatic⟩) halted automatic
  exact related.2

theorem resume_ok {s' : AccountState} {approval : HumanApproval} {equity : EquitySnapshot} {day : NaiveDate}
    {t : Transition} (h : s.resume approval equity day = .ok (s', t)) :
    s.status = .halted ∧ equity.equity.isPositive = true ∧
      ∃ record, s'.resumes = s.resumes ++ [record] := by
  unfold resume at h
  split at h
  · cases h
  · cases h
  · cases h
  next status =>
      split at h
      · cases h
      next positive =>
          rw [not_not] at positive
          split at h
          · cases h
          next halt _ =>
              cases h
              exact ⟨status, positive, _, rfl⟩

/-- In every run, from a reachable account in a halt: without a resume, every later
    state is frozen with respect to every earlier one; and a resume needs a finished
    halt and positive equity. -/
theorem halt_is_sticky (accountId : String) (history events : List Event)
    (halted : (run next (new accountId) history).status.isHalt = true)
    (automatic : ∀ e ∈ events, Event.isResume e = false) :
    (∀ earlier later, events = earlier ++ later →
      Frozen (run next (new accountId) (history ++ earlier))
        (run next (new accountId) (history ++ events))) ∧
    ∀ (s s' : AccountState) (approval : HumanApproval) (equity : EquitySnapshot) (day : NaiveDate)
      (t : Transition), s.resume approval equity day = .ok (s', t) →
        s.status = .halted ∧ 0 < equity.equity.atto ∧
          ∃ record, s'.resumes = s.resumes ++ [record] := by
  constructor
  · rintro earlier later rfl
    rw [← List.append_assoc, run_append _ _ (history ++ earlier), run_append]
    have first := run_frozen halted fun e member => automatic e (List.mem_append_left later member)
    exact run_frozen first.halts fun e member => automatic e (List.mem_append_right earlier member)
  · intro s s' approval equity day t h
    obtain ⟨status, positive, appended⟩ := resume_ok h
    exact ⟨status, Dec.isPositive_iff.1 positive, appended⟩

theorem halt_is_sticky_after_manual_halt :
    Frozen (run next (new "acct") [.halt .manual "stop" 0])
      (run next (new "acct") [.halt .manual "stop" 0, .halt .reconciliation "again" 1,
        .beginFlatten .dailyLoss "late" 2, .completeFlatten true]) :=
  (halt_is_sticky "acct" [.halt .manual "stop" 0]
    [.halt .reconciliation "again" 1, .beginFlatten .dailyLoss "late" 2, .completeFlatten true]
    (by decide) (by simp [Event.isResume])).1 [] _ rfl

/-! ## Which states a store can read back -/

/-- The checks of `from_record`, on the state itself. -/
structure Coherent (s : AccountState) : Prop where
  halt : s.status.isHalt = s.halt.isSome
  scale : Dec.zero < s.riskScale ∧ s.riskScale ≤ one
  rung : (s.status == .shrunk) = s.shrinkRung.isSome

theorem fromRecord_toRecord_iff (s : AccountState) : fromRecord s.toRecord = .ok s ↔ Coherent s := by
  have scaleIff : ¬ (s.riskScale ≤ Dec.zero ∨ one < s.riskScale) ↔
      Dec.zero < s.riskScale ∧ s.riskScale ≤ one := by
    rw [Dec.le_iff, Dec.lt_iff, Dec.lt_iff, Dec.le_iff]
    omega
  have agree {a b : Bool} : ¬ (a != b) = true ↔ a = b := by
    cases a <;> cases b <;> decide
  constructor
  · intro h
    unfold fromRecord at h
    split at h
    · cases h
    next halt =>
        split at h
        · cases h
        next scale =>
            split at h
            · cases h
            next rung => exact ⟨agree.1 halt, scaleIff.1 scale, agree.1 rung⟩
  · intro coherent
    unfold fromRecord
    split
    next halt => exact absurd coherent.halt (mt agree.2 (not_not.2 halt))
    next =>
        split
        next scale => exact absurd coherent.scale (mt scaleIff.2 (not_not.2 scale))
        next =>
            split
            next rung => exact absurd coherent.rung (mt agree.2 (not_not.2 rung))
            next => rfl

theorem one_in_range : Dec.zero < one ∧ one ≤ one := by decide

theorem new_coherent (accountId : String) : Coherent (new accountId) :=
  ⟨rfl, one_in_range, rfl⟩

theorem Observed.coherent_iff {s' : AccountState} (h : Observed s s') : Coherent s' ↔ Coherent s := by
  constructor
  · rintro ⟨halt, scale, rung⟩
    rw [h.status, h.halt] at halt
    rw [h.riskScale] at scale
    rw [h.status, h.shrinkRung] at rung
    exact ⟨halt, scale, rung⟩
  · rintro ⟨halt, scale, rung⟩
    refine ⟨?_, ?_, ?_⟩
    · rw [h.status, h.halt, halt]
    · rwa [h.riskScale]
    · rw [h.status, h.shrinkRung, rung]

/-- Halting an account that is not shrunk keeps the record coherent; halting a
    shrunk one leaves its rung behind. -/
theorem enterHalt_coherent_iff (coherent : Coherent s) {target : AccountStatus} (halts : target.isHalt = true)
    (reason : HaltReason) (detail : String) (at' : Timestamp) :
    Coherent (s.enterHalt target reason detail at').1 ↔ s.status ≠ .shrunk := by
  have notShrunk : (target == AccountStatus.shrunk) = false := by
    cases target <;> first | rfl | cases halts
  by_cases halted : s.status.isHalt = true
  · rw [enterHalt_of_halt halted]
    refine iff_of_true coherent ?_
    intro shrunk
    rw [shrunk] at halted
    cases halted
  · rw [enterHalt, if_neg halted]
    constructor
    · rintro ⟨-, -, rung⟩ shrunk
      have kept := coherent.rung
      simp only [shrunk, beq_self_eq_true] at kept
      simp only [notShrunk, ← kept] at rung
      cases rung
    · intro other
      have kept := coherent.rung
      rw [beq_eq_false_iff_ne.2 other] at kept
      exact ⟨by simp [halts], coherent.scale, by simp [notShrunk, ← kept]⟩

theorem completeFlatten_coherent (coherent : Coherent s) (verifiedFlat : Bool) :
    Coherent (s.completeFlatten verifiedFlat).1 := by
  unfold completeFlatten
  split
  · exact coherent
  next flattening =>
      rw [not_not] at flattening
      obtain ⟨halt, scale, rung⟩ := coherent
      rw [flattening] at halt rung
      cases verifiedFlat with
      | true => exact ⟨halt, scale, rung⟩
      | false =>
          refine ⟨?_, scale, ?_⟩
          · simp [flattening, halt]
          · simpa [flattening] using rung

theorem resume_coherent {s' : AccountState} {approval : HumanApproval} {equity : EquitySnapshot} {day : NaiveDate}
    {t : Transition} (h : s.resume approval equity day = .ok (s', t)) :
    Coherent s' := by
  unfold resume at h
  split at h
  · cases h
  · cases h
  · cases h
  · split at h
    · cases h
    · split at h
      · cases h
      · cases h
        exact ⟨rfl, one_in_range, rfl⟩

theorem withFullSize_coherent (coherent : Coherent s) (risky : ¬ s.status.isHalt = true) :
    Coherent s.withFullSize.1 := by
  have halt := coherent.halt
  rw [Bool.not_eq_true] at risky
  rw [risky] at halt
  unfold withFullSize
  split
  · exact coherent
  · exact ⟨halt, one_in_range, rfl⟩

theorem withShrink_coherent (coherent : Coherent s) (risky : ¬ s.status.isHalt = true) {scale : Dec}
    (range : Dec.zero < scale ∧ scale ≤ one) (rung : Nat) :
    Coherent (s.withShrink scale rung).1 := by
  have halt := coherent.halt
  rw [Bool.not_eq_true] at risky
  rw [risky] at halt
  unfold withShrink
  split
  · exact coherent
  · exact ⟨halt, range, rfl⟩

end AccountState

theorem checkRungs_scale {rungs : List Rung} {trigger scale : Dec} : ∀ {prevAt prevScale : Dec},
    checkRungs prevAt prevScale rungs = .ok () → ⟨trigger, .shrink scale⟩ ∈ rungs →
    Dec.zero < scale ∧ scale ≤ one := by
  induction rungs with
  | nil =>
      intro _ _ _ member
      cases member
  | cons r rest ih =>
      intro prevAt prevScale checked member
      simp only [checkRungs] at checked
      split at checked
      · cases checked
      · split at checked
        next scale' action =>
            split at checked
            · cases checked
            · split at checked
              · cases checked
              next range =>
                  split at checked
                  · cases checked
                  · rcases List.mem_cons.1 member with rfl | member
                    · cases action
                      rw [Dec.le_iff, Dec.le_iff] at range
                      rw [Dec.lt_iff, Dec.le_iff]
                      omega
                    · exact ih checked member
        next action =>
            split at checked
            · cases checked
            · rcases List.mem_cons.1 member with rfl | member
              · cases action
              · exact ih checked member

theorem RiskPolicy.scale_in_range (policy : RiskPolicy) {trigger scale : Dec}
    (member : ⟨trigger, .shrink scale⟩ ∈ policy.rungs) : Dec.zero < scale ∧ scale ≤ one := by
  have valid := policy.valid
  unfold checkPolicy at valid
  split at valid
  · cases valid
  · split at valid
    · cases valid
    · split at valid
      · cases valid
      · exact checkRungs_scale valid member

theorem posture_shrink {s : AccountState} {policy : RiskPolicy} {hwm : Dec}
    {raw target : Option Nat} {drawdown dailyLoss : Option Dec} {scale : Dec}
    (h : (posture s policy hwm raw target drawdown dailyLoss).action = .shrink scale) :
    (∃ rung, (posture s policy hwm raw target drawdown dailyLoss).nextRung = some rung) ∧
      Dec.zero < scale ∧ scale ≤ one := by
  cases target with
  | none => cases h
  | some i =>
      simp only [posture] at h ⊢
      split at h
      next trigger scale' rung =>
          cases h
          exact ⟨⟨i, rfl⟩, policy.scale_in_range (List.mem_of_getElem? rung)⟩
      next => cases h

theorem evaluateRisk_shrink {s : AccountState} {snapshot : EquitySnapshot} {policy : RiskPolicy}
    {scale : Dec} (h : (evaluateRisk s snapshot policy).action = .shrink scale) :
    (∃ rung, (evaluateRisk s snapshot policy).nextRung = some rung) ∧
      Dec.zero < scale ∧ scale ≤ one := by
  unfold evaluateRisk at h ⊢
  cases result : evaluateInner s snapshot policy with
  | error e =>
      rw [result] at h
      cases h
  | ok d =>
      rw [result] at h
      simp only at h ⊢
      simp only [evaluateInner] at result
      split at result
      · cases result
        cases h
      · split at result
        · cases result
          cases h
        · simp only [bind_eq_ok] at result
          obtain ⟨⟨dailyLoss, dailyHalt⟩, -, raw, -, ladderHalt, -, result⟩ := result
          simp only at result
          split at result
          · cases result
            cases h
          · cases result
            cases h
          · obtain ⟨held, -, result⟩ := bind_eq_ok.1 result
            cases result
            exact posture_shrink h

/-- A step of an account that may add risk flattens it or leaves it in good standing, as
    its decision says. -/
theorem stepWith_status {s : AccountState} (good : s.status = .active ∨ s.status = .shrunk)
    {snapshot : EquitySnapshot} {day : NaiveDate} {policy : RiskPolicy} {rule : DayStartRule}
    {next : AccountState} {decision : RiskDecision} {transition : Option Transition}
    (stepped : stepWith s snapshot day policy rule = (next, decision, transition)) :
    (decision.action = .haltFlatten → next.status = .flattening) ∧
      (decision.action ≠ .haltFlatten → next.status = .active ∨ next.status = .shrunk) := by
  have kept := (AccountState.observeWith_observed s snapshot day rule).status
  simp only [stepWith] at stepped
  generalize s.observeWith snapshot day rule = observed at kept stepped
  cases stepped
  have running : observed.status.isHalt = false ∧ observed.status.mayAddRisk = true := by
    rw [kept]
    obtain active | shrunk := good
    · simp [active, AccountStatus.isHalt, AccountStatus.mayAddRisk]
    · simp [shrunk, AccountStatus.isHalt, AccountStatus.mayAddRisk]
  unfold applyDecision
  rw [if_neg (by simp [running.1])]
  cases action : (evaluateRisk observed snapshot policy).action with
  | none => simp [AccountState.withFullSize, running.2]
  | shrink scale =>
      obtain ⟨⟨rung, next⟩, -⟩ := evaluateRisk_shrink action
      simp [next, AccountState.withShrink, running.2]
  | haltFlatten => simp [AccountState.beginFlatten, AccountState.enterHalt, running.1]

theorem stepWith_lastEquityAt (s : AccountState) (snapshot : EquitySnapshot) (day : NaiveDate)
    (policy : RiskPolicy) (rule : DayStartRule) :
    (stepWith s snapshot day policy rule).1.lastEquityAt = some snapshot.at' := by
  have read : (s.observeWith snapshot day rule).lastEquityAt = some snapshot.at' := by
    cases rule with
    | firstObservation =>
        simp only [AccountState.observeWith, AccountState.observe]
        split <;> rfl
    | utcMidnight lag =>
        simp only [AccountState.observeWith, AccountState.observeAnchored]
        split <;> rfl
  simp only [stepWith]
  generalize s.observeWith snapshot day rule = observed at read
  rw [← read]
  unfold applyDecision
  split
  · rfl
  · split
    · unfold AccountState.withFullSize
      split <;> rfl
    · split
      · unfold AccountState.withShrink
        split <;> rfl
      · unfold AccountState.beginFlatten AccountState.enterHalt
        split <;> rfl
    · unfold AccountState.beginFlatten AccountState.enterHalt
      split <;> rfl

namespace AccountState

theorem applyDecision_coherent_iff {s : AccountState} (coherent : Coherent s)
    (evaluated : AccountState) (snapshot : EquitySnapshot) (policy : RiskPolicy) (at' : Timestamp) :
    Coherent (applyDecision s (evaluateRisk evaluated snapshot policy) at').1 ↔
      ¬ (s.status = .shrunk ∧ (evaluateRisk evaluated snapshot policy).action = .haltFlatten) := by
  by_cases halted : s.status.isHalt = true
  · rw [applyDecision_of_halt halted]
    refine iff_of_true coherent ?_
    rintro ⟨shrunk, -⟩
    rw [shrunk] at halted
    cases halted
  · unfold applyDecision
    rw [if_neg halted]
    cases action : (evaluateRisk evaluated snapshot policy).action with
    | none => exact iff_of_true (withFullSize_coherent coherent halted) (by simp)
    | shrink scale =>
        obtain ⟨⟨rung, next⟩, range⟩ := evaluateRisk_shrink action
        simp only [next]
        exact iff_of_true (withShrink_coherent coherent halted range rung) (by simp)
    | haltFlatten =>
        simp only [and_true]
        exact enterHalt_coherent_iff coherent rfl _ _ _

def HaltsShrunk (s : AccountState) : Event → Prop
  | .halt .. => s.status = .shrunk
  | .beginFlatten .. => s.status = .shrunk
  | .applyDecision evaluated snapshot policy _ =>
      s.status = .shrunk ∧ (evaluateRisk evaluated snapshot policy).action = .haltFlatten
  | .step snapshot day policy rule =>
      s.status = .shrunk ∧
        (evaluateRisk (s.observeWith snapshot day rule) snapshot policy).action = .haltFlatten
  | _ => False

/-- One event keeps a coherent account coherent exactly when it does not halt a
    shrunk one. -/
theorem next_coherent_iff (s : AccountState) (e : Event) (coherent : Coherent s) :
    Coherent (s.next e) ↔ ¬ s.HaltsShrunk e := by
  cases e with
  | observe snapshot day =>
      exact iff_of_true ((observe_observed s snapshot day).coherent_iff.2 coherent) id
  | observeAnchored snapshot maxLagSecs =>
      exact iff_of_true ((observeAnchored_observed s snapshot maxLagSecs).coherent_iff.2 coherent) id
  | halt reason detail at' => exact enterHalt_coherent_iff coherent rfl reason detail at'
  | beginFlatten reason detail at' => exact enterHalt_coherent_iff coherent rfl reason detail at'
  | completeFlatten verifiedFlat =>
      exact iff_of_true (completeFlatten_coherent coherent verifiedFlat) id
  | resume approval equity day =>
      refine iff_of_true ?_ id
      simp only [next]
      split
      next resumed t result => exact resume_coherent result
      next => exact coherent
  | applyDecision evaluated snapshot policy at' =>
      exact applyDecision_coherent_iff coherent evaluated snapshot policy at'
  | step snapshot day policy rule =>
      have observed := observeWith_observed s snapshot day rule
      have decided := applyDecision_coherent_iff (observed.coherent_iff.2 coherent)
        (s.observeWith snapshot day rule) snapshot policy snapshot.at'
      rw [observed.status] at decided
      exact decided

/-- Every state of a run can be saved and read back exactly when no step of the run
    halts a shrunk account. -/
theorem persistence_iff_no_shrunk_halt (accountId : String) (events : List Event) :
    (∀ n, fromRecord (run next (new accountId) (events.take n)).toRecord =
        .ok (run next (new accountId) (events.take n))) ↔
      Guarded next (fun s e => ¬ s.HaltsShrunk e) (new accountId) events := by
  rw [← visits_iff_guarded next_coherent_iff (new_coherent accountId), visits_iff_take]
  simp only [fromRecord_toRecord_iff]

/-- A ladder with one shrink rung at a tenth and the halt at a fifth. -/
def twoRungPolicy : RiskPolicy where
  dailyLossLimit := one
  rungs := [⟨⟨⟨1, Dec.fits_one⟩, 1, Dec.scale_one⟩, .shrink ⟨⟨5, Dec.fits_five⟩, 1, Dec.scale_one⟩⟩,
    ⟨⟨⟨2, Dec.fits_two⟩, 1, Dec.scale_one⟩, .haltFlatten⟩]
  recoveryFraction := ⟨⟨5, Dec.fits_five⟩, 1, Dec.scale_one⟩
  valid := by decide

def equityAt (units : Int) (fits : MachineInt.Fits 128 units) (at' : Timestamp) : EquitySnapshot :=
  ⟨⟨⟨units, fits⟩, 0, Dec.scale_zero⟩, at'⟩

/-- A shrink, then a manual halt: the saved record keeps the rung and is refused. -/
theorem shrunk_then_halted_is_refused :
    fromRecord (run next (new "acct") [
        .step (equityAt 100 (by decide) 0) 0 twoRungPolicy .firstObservation,
        .step (equityAt 85 (by decide) 1) 0 twoRungPolicy .firstObservation,
        .halt .manual "stop" 2]).toRecord =
      .error "shrink_rung must be present exactly when the status is shrunk" := by
  decide

end AccountState

end RebalancerRisk
