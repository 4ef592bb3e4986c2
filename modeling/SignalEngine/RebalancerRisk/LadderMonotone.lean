import SignalEngine.RebalancerRisk.Ladder

/-! # A higher equity never gives a smaller scale

Two steps from one account that differ in the equity read only. The reading may move
the mark and start the day; either way a limit that the higher equity hits is hit
by the lower one, and the lower one holds at least as deep a rung.
-/

open BrokerAdapters RebalancerCore RebalancerCore.DecMath Outcome

namespace RebalancerRisk

/-- The reference of the higher reading is that of the lower one, or is the higher reading. -/
def Raised (reference low reference' high : Int) : Prop :=
  reference' = reference ∨ reference ≤ reference' ∧ reference' = high ∧ low ≤ reference

theorem Raised.lossReaches {reference low reference' high : Int} {fraction : Dec}
    (raised : Raised reference low reference' high) (le : low ≤ high) (positive : 0 ≤ fraction.atto)
    (reached : LossReaches reference' high fraction) : LossReaches reference low fraction := by
  unfold LossReaches at *
  rcases raised with rfl | ⟨below, rfl, inside⟩
  · omega
  · have threshold : fraction.atto * reference / 10 ^ maxScale ≤ fraction.atto * reference' / 10 ^ maxScale :=
      Int.ediv_le_ediv (by decide) (Int.mul_le_mul_of_nonneg_left below positive)
    omega

theorem Raised.lossWithin {reference low reference' high : Int} {trigger recovery : Dec}
    (raised : Raised reference low reference' high) (le : low ≤ high) (positive : 0 ≤ trigger.atto)
    (recovers : 0 ≤ recovery.atto) (above : 0 ≤ reference') (within : LossWithin reference low trigger recovery) :
    LossWithin reference' high trigger recovery := by
  unfold LossWithin at *
  rcases raised with rfl | ⟨below, rfl, inside⟩
  · omega
  · have share : 0 ≤ trigger.atto * recovery.atto / 10 ^ maxScale :=
      Int.ediv_nonneg (mul_nonneg positive recovers) (by decide)
    have threshold : 0 ≤ trigger.atto * recovery.atto / 10 ^ maxScale * reference' / 10 ^ maxScale :=
      Int.ediv_nonneg (mul_nonneg share above) (by decide)
    omega

theorem AccountState.mark_raised (s : AccountState) {low high : Int} (le : low ≤ high) :
    Raised (s.mark low) low (s.mark high) high := by
  unfold AccountState.mark Raised
  cases s.hwm with
  | none => exact .inr ⟨le, rfl, le_refl _⟩
  | some h =>
      simp only [Option.map_some, Option.elim_some]
      rcases le_total high h.atto with inside | outside
      · left
        rw [max_eq_left inside, max_eq_left (le.trans inside)]
      · exact .inr ⟨max_le_max_left _ le, max_eq_right outside, le_max_right _ _⟩

namespace RiskPolicy

variable {policy : RiskPolicy} {mark low mark' high : Int}

section

variable (raised : Raised mark low mark' high)

include raised

theorem reaches_antitone (le : low ≤ high) {i : Nat} (reached : policy.reaches mark' high i = true) :
    policy.reaches mark low i = true := by
  obtain ⟨r, found, loss⟩ := reaches_iff.1 reached
  have positive := (policy.checked.rungs.triggers r (List.mem_of_getElem? found)).1
  exact reaches_iff.2 ⟨r, found, raised.lossReaches le positive.le loss⟩

theorem releases_mono (le : low ≤ high) (above : 0 ≤ mark') {i : Nat} (released : policy.releases mark low i = true) :
    policy.releases mark' high i = true := by
  rw [releases, Option.any_eq_true] at released ⊢
  obtain ⟨r, found, within⟩ := released
  have positive := (policy.checked.rungs.triggers r (List.mem_of_getElem? found)).1
  have back := raised.lossWithin le positive.le policy.checked.recovery.le above (decide_eq_true_iff.1 within)
  exact ⟨r, found, decide_eq_true back⟩

theorem deepestReached_antitone (le : low ≤ high) :
    policy.deepestReached mark' high ≤ policy.deepestReached mark low := by
  refine Finset.max_mono fun i member => ?_
  obtain ⟨inside, reached⟩ := Finset.mem_filter.1 member
  exact Finset.mem_filter.2 ⟨inside, reaches_antitone raised le reached⟩

theorem deepestHeld_antitone (le : low ≤ high) (above : 0 ≤ mark') (held : Option Nat) :
    policy.deepestHeld mark' high held ≤ policy.deepestHeld mark low held := by
  cases held with
  | none => exact le_refl _
  | some c =>
      refine Finset.max_mono fun i member => ?_
      obtain ⟨inside, kept⟩ := Finset.mem_filter.1 member
      refine Finset.mem_filter.2 ⟨inside, ?_⟩
      rw [← Bool.not_eq_true] at kept ⊢
      exact mt (releases_mono raised le above) kept

theorem rungInForce_antitone (le : low ≤ high) (above : 0 ≤ mark') (held : Option Nat) :
    policy.rungInForce mark' high held ≤ policy.rungInForce mark low held :=
  sup_le_sup (deepestReached_antitone raised le) (deepestHeld_antitone raised le above held)

end

end RiskPolicy

/-! ## Two decisions -/

theorem FollowsLadder.scale_range {policy : RiskPolicy} {dayStart : Option Dec} {mark : Int} {held : Option Nat}
    {equity : Int} {d : RiskDecision} (follows : FollowsLadder policy dayStart mark held equity d) :
    Dec.zero ≤ d.riskScale ∧ d.riskScale ≤ one := by
  by_cases halts : d.action = .haltFlatten
  · rw [follows.stops halts]
    decide
  · cases rung : d.nextRung with
    | none =>
        rw [(follows.fullSize halts rung).2]
        decide
    | some i =>
        obtain ⟨trigger, scale, found, -, rfl⟩ := follows.scale i rung
        obtain ⟨positive, below⟩ := policy.checked.rungs.scales _ (List.mem_of_getElem? found) _ rfl
        rw [Dec.le_iff, Dec.le_iff]
        exact ⟨positive.le, below⟩

theorem CheckedRungs.scale_le {prevScale : Dec} {rungs : List Rung} (checked : CheckedRungs prevScale rungs)
    {i j : Nat} {at₁ at₂ scale scale' : Dec} (le : i ≤ j) (found : rungs[i]? = some ⟨at₁, .shrink scale⟩)
    (found' : rungs[j]? = some ⟨at₂, .shrink scale'⟩) : scale' ≤ scale := by
  rw [Dec.le_iff]
  rcases le.lt_or_eq with less | rfl
  · obtain ⟨inside, first⟩ := List.getElem?_eq_some_iff.1 found
    obtain ⟨inside', second⟩ := List.getElem?_eq_some_iff.1 found'
    have ordered := List.pairwise_iff_getElem.1 checked.descending i j inside inside' less
    exact ordered scale scale' (by rw [first]) (by rw [second])
  · rw [found] at found'
    cases found'
    exact le_refl _

theorem FollowsLadder.scale_mono {policy : RiskPolicy} {dayStart dayStart' : Option Dec} {mark low mark' high : Int}
    {held : Option Nat} {d d' : RiskDecision} (lower : FollowsLadder policy dayStart mark held low d)
    (higher : FollowsLadder policy dayStart' mark' held high d') (raised : Raised mark low mark' high)
    (le : low ≤ high) (above : 0 ≤ mark')
    (daily : DailyLossReached policy dayStart' high → DailyLossReached policy dayStart low) :
    d.riskScale ≤ d'.riskScale := by
  by_cases halts : d.action = .haltFlatten
  · rw [lower.stops halts]
    exact higher.scale_range.1
  · have runs : d'.action ≠ .haltFlatten := by
      intro halts'
      refine halts (lower.halts.2 ?_)
      exact (higher.halts.1 halts').imp daily (RiskPolicy.reaches_antitone raised le)
    have deeper : @LE.le (WithBot ℕ) _ d'.nextRung d.nextRung := by
      rw [lower.inForce halts, higher.inForce runs]
      exact RiskPolicy.rungInForce_antitone raised le above held
    cases rung' : d'.nextRung with
    | none =>
        rw [(higher.fullSize runs rung').2]
        exact lower.scale_range.2
    | some i =>
        obtain ⟨trigger', scale', found', -, same'⟩ := higher.scale i rung'
        cases rung : d.nextRung with
        | none =>
            rw [rung, rung'] at deeper
            exact absurd deeper (WithBot.not_coe_le_bot i)
        | some j =>
            obtain ⟨trigger, scale, found, -, same⟩ := lower.scale j rung
            rw [rung, rung'] at deeper
            rw [same, same']
            exact policy.checked.rungs.scale_le (WithBot.coe_le_coe.1 deeper) found' found

/-! ## Two steps -/

namespace AccountState

theorem observeWith_dayStart (s : AccountState) (at' : Timestamp) (day : NaiveDate) (rule : DayStartRule) :
    (∀ equity, (s.observeWith ⟨equity, at'⟩ day rule).dayStartEquity = some equity) ∨
      ∃ start, ∀ equity, (s.observeWith ⟨equity, at'⟩ day rule).dayStartEquity = start := by
  cases rule with
  | firstObservation =>
      cases new : s.isNewDay day with
      | true => exact .inl fun equity => by simp [observeWith, observe, new]
      | false => exact .inr ⟨s.dayStartEquity, fun equity => by simp [observeWith, observe, new]⟩
  | utcMidnight lag =>
      cases new : s.isNewDay (dateNaive at') with
      | true =>
          cases inside : withinAnchorWindow at' lag with
          | true => exact .inl fun equity => by simp [observeWith, observeAnchored, new, inside]
          | false => exact .inr ⟨none, fun equity => by simp [observeWith, observeAnchored, new, inside]⟩
      | false => exact .inr ⟨s.dayStartEquity, fun equity => by simp [observeWith, observeAnchored, new]⟩

theorem dailyLossReached_antitone (s : AccountState) {low high : Dec} (le : low ≤ high) (at' : Timestamp)
    (day : NaiveDate) (rule : DayStartRule) (policy : RiskPolicy)
    (reached : DailyLossReached policy (s.observeWith ⟨high, at'⟩ day rule).dayStartEquity high.atto) :
    DailyLossReached policy (s.observeWith ⟨low, at'⟩ day rule).dayStartEquity low.atto := by
  rw [Dec.le_iff] at le
  obtain ⟨start, found, loss⟩ := reached
  have positive := policy.checked.daily.1.le
  rcases s.observeWith_dayStart at' day rule with itself | ⟨start', kept⟩
  · rw [itself high] at found
    obtain rfl := Option.some.inj found
    exact ⟨low, itself low, Raised.lossReaches (.inr ⟨le, rfl, le_refl _⟩) le positive loss⟩
  · rw [kept high] at found
    exact ⟨start, (kept low).trans found, Raised.lossReaches (.inl rfl) le positive loss⟩

variable {s : AccountState} {snapshot : EquitySnapshot} {day : NaiveDate} {policy : RiskPolicy}

theorem stepWith_nonpos {rule : DayStartRule} (adds : s.status.mayAddRisk = true) (nonpos : snapshot.equity.atto ≤ 0) :
    (stepWith s snapshot day policy rule).1.effectiveRiskScale = Dec.zero := by
  have running : (s.observeWith snapshot day rule).status.isHalt = false := by
    rw [(observeWith_observed s snapshot day rule).status]
    exact mayAddRisk_iff.1 adds
  have refused : ¬ snapshot.equity.isPositive = true := by
    rw [Dec.isPositive_iff]
    omega
  have decided : (evaluateRisk (s.observeWith snapshot day rule) snapshot policy).action = .haltFlatten := by
    simp [evaluateRisk, evaluateInner, running, refused, RiskDecision.halted]
  simp [stepWith, applyDecision, running, decided, beginFlatten, enterHalt, effectiveRiskScale]

theorem stepWith_of_halt {rule : DayStartRule} (halted : s.status.isHalt = true) :
    (stepWith s snapshot day policy rule).1.effectiveRiskScale = Dec.zero := by
  have frozen := next_frozen (e := .step snapshot day policy rule) halted rfl
  exact frozen.scale

/-- Of two steps that differ in the equity read, the one on the higher equity leaves at
    least as large a scale. -/
theorem stepWith_scale_mono {day : NaiveDate} {rule : DayStartRule} {at' : Timestamp} {low high : Dec}
    (le : low ≤ high) (fits : ∀ e, evaluateInner (s.observeWith ⟨low, at'⟩ day rule) ⟨low, at'⟩ policy ≠ .error e)
    (fits' : ∀ e, evaluateInner (s.observeWith ⟨high, at'⟩ day rule) ⟨high, at'⟩ policy ≠ .error e) :
    (stepWith s ⟨low, at'⟩ day policy rule).1.effectiveRiskScale ≤
      (stepWith s ⟨high, at'⟩ day policy rule).1.effectiveRiskScale := by
  have le' := Dec.le_iff.1 le
  by_cases halted : s.status.isHalt = true
  · rw [stepWith_of_halt halted, stepWith_of_halt halted]
    exact Dec.le_iff.2 (le_refl _)
  · have adds := mayAddRisk_iff.2 (Bool.not_eq_true _ ▸ halted)
    rcases le_or_gt high.atto 0 with nonpos | positive'
    · have stopped : (stepWith s ⟨high, at'⟩ day policy rule).1.effectiveRiskScale = Dec.zero :=
        stepWith_nonpos adds nonpos
      have stopped' : (stepWith s ⟨low, at'⟩ day policy rule).1.effectiveRiskScale = Dec.zero :=
        stepWith_nonpos adds (le'.trans nonpos)
      rw [stopped, stopped']
      exact Dec.le_iff.2 (le_refl _)
    · obtain ⟨higher, scale'⟩ := stepWith_followsLadder adds positive' fits'
      rw [scale']
      rcases le_or_gt low.atto 0 with nonpos | positive
      · have stopped : (stepWith s ⟨low, at'⟩ day policy rule).1.effectiveRiskScale = Dec.zero :=
          stepWith_nonpos adds nonpos
        rw [stopped]
        exact higher.scale_range.1
      · obtain ⟨lower, scale⟩ := stepWith_followsLadder adds positive fits
        rw [scale]
        have above : 0 ≤ s.mark high.atto := by
          refine positive'.le.trans ?_
          unfold mark
          cases s.hwm with
          | none => exact le_refl _
          | some h => exact le_max_right _ _
        exact lower.scale_mono higher (s.mark_raised le') le' above
          (s.dailyLossReached_antitone le at' day rule policy)

/-- Readings of 84 and of 95 after a mark of 100. -/
theorem stepWith_scale_mono_below_mark :
    (stepWith ((new "acct").observe (equityAt 100 (by decide) 0) 0) (equityAt 84 (by decide) 1) 0 twoRungPolicy
        .firstObservation).1.effectiveRiskScale ≤
      (stepWith ((new "acct").observe (equityAt 100 (by decide) 0) 0) (equityAt 95 (by decide) 1) 0 twoRungPolicy
        .firstObservation).1.effectiveRiskScale := by
  have evaluates {equity : EquitySnapshot} (evaluated : (evaluateInner (((new "acct").observe
      (equityAt 100 (by decide) 0) 0).observeWith equity 0 .firstObservation) equity twoRungPolicy).toOption.isSome =
        true) : ∀ e, evaluateInner (((new "acct").observe (equityAt 100 (by decide) 0) 0).observeWith equity 0
          .firstObservation) equity twoRungPolicy ≠ .error e := by
    intro e failed
    rw [failed] at evaluated
    cases evaluated
  exact stepWith_scale_mono (by decide) (evaluates (by decide)) (evaluates (by decide))

end AccountState

end RebalancerRisk
