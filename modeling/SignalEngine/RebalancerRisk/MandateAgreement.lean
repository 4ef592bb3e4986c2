import SignalEngine.RebalancerCore.Compiled
import SignalEngine.RebalancerRisk.Mandated

/-! # Validation and compilation

When a valid mandate compiles, to limits and to a risk policy, and no limit comes
out looser than the mandate wrote it.
-/

open MachineInt BrokerAdapters Outcome Text MandateCore RebalancerCore RebalancerCore.DecMath

namespace RebalancerRisk

/-! ## The ladder -/

/-- The rungs stay apart, and no scale vanishes, when they are cut. -/
def LadderKept (prev : Int) : List LadderRung → Prop
  | [] => True
  | rung :: rest => prev < rung.trigger.cut ∧ (∀ s, rung.scale = some s → 1 ≤ s.cut) ∧ LadderKept rung.trigger.cut rest

theorem conv_ok {v : F64} {d : Dec} (h : conv v = .ok d) : ratioToDec v .down = .ok d := by
  unfold conv at h
  split at h
  next read => cases h; exact read
  next => cases h

theorem conv_cut {v : F64} {d : Dec} (h : conv v = .ok d) : d.atto = v.cut := (ratioToDec_ok (conv_ok h)).2.2

theorem conv_of_le_one {v : F64} (usable : Usable v) (small : v.value ≤ 1) : ∃ d, conv v = .ok d := by
  obtain ⟨d, read⟩ := (ratioToDec_down usable.finite usable.positive.le).2
    (readable_of_le_one usable.finite usable.positive.le small)
  exact ⟨d, by rw [conv, read]⟩

theorem rungOf_ok {r : LadderRung} {rung : Rung} (h : rungOf r = .ok rung) :
    rungAction r = .ok rung.action ∧ conv r.trigger = .ok rung.trigger := by
  simp only [rungOf, bind_eq_ok] at h
  obtain ⟨action, read, trigger, read', same⟩ := h
  cases same
  exact ⟨read, read'⟩

theorem rungAction_shrink {r : LadderRung} {s : F64} {action : RungAction} (shrink : r.action = .shrink)
    (scale : r.scale = some s) (h : rungAction r = .ok action) : ∃ d, conv s = .ok d ∧ action = .shrink d := by
  rw [rungAction, shrink, scale] at h
  dsimp only at h
  cases read : conv s with
  | error e =>
      rw [read] at h
      cases h
  | ok d =>
      rw [read] at h
      cases h
      exact ⟨d, rfl, rfl⟩

theorem scale_of_shrink {r : LadderRung} {d : Dec} (h : rungAction r = .ok (.shrink d)) :
    ∃ s, r.scale = some s ∧ conv s = .ok d := by
  unfold rungAction at h
  cases action : r.action with
  | haltFlatten => simp [action] at h
  | shrink =>
      cases scale : r.scale with
      | none => simp [action, scale] at h
      | some s =>
          obtain ⟨d', read, same⟩ := rungAction_shrink action scale h
          cases same
          exact ⟨s, rfl, read⟩

theorem rungAction_halt {r : LadderRung} {action : RungAction} (halt : r.action = .haltFlatten)
    (h : rungAction r = .ok action) : action = .haltFlatten := by
  rw [rungAction, halt] at h
  cases h
  rfl

theorem ladder_converts {prevAt prevScale : ℚ} {ladder : List LadderRung} (valid : Ladder prevAt prevScale ladder)
    (nonneg : 0 ≤ prevAt) : ∃ rungs, ladder.mapM rungOf = .ok rungs := by
  simp only [mapM_eq_ok]
  induction valid with
  | @halt prevAt prevScale rung action scale finite above fraction =>
      obtain ⟨trigger, read⟩ := conv_of_le_one ⟨finite, by linarith⟩ fraction
      refine ⟨[⟨trigger, .haltFlatten⟩], .cons ?_ .nil⟩
      rw [rungOf, rungAction, action, read]
      rfl
  | @shrink prevAt prevScale rung s rest action scale finite above fraction usable below notUp later ih =>
      obtain ⟨rungs, converted⟩ := ih (by linarith)
      obtain ⟨trigger, read⟩ := conv_of_le_one ⟨finite, by linarith⟩ fraction
      obtain ⟨d, read'⟩ := conv_of_le_one usable below.le
      refine ⟨⟨trigger, .shrink d⟩ :: rungs, .cons ?_ converted⟩
      rw [rungOf, rungAction, action, scale, read]
      dsimp only
      rw [read']
      rfl

theorem checkRungs_halt {prevAt prevScale : Dec} {r : Rung} (action : r.action = .haltFlatten) :
    checkRungs prevAt prevScale [r] = .ok () ↔ prevAt.atto < r.trigger.atto ∧ r.trigger.atto ≤ one.atto := by
  rw [checkRungs, action]
  split
  next outside =>
    rw [Dec.le_iff, Dec.lt_iff] at outside
    exact iff_of_false (by simp) (by omega)
  next inside =>
    rw [Dec.le_iff, Dec.lt_iff] at inside
    exact iff_of_true (by simp [checkRungs]) (by omega)

theorem checkRungs_shrink {prevAt prevScale d : Dec} {r : Rung} {rest : List Rung} (action : r.action = .shrink d)
    (more : rest ≠ []) :
    checkRungs prevAt prevScale (r :: rest) = .ok () ↔
      (prevAt.atto < r.trigger.atto ∧ r.trigger.atto ≤ one.atto) ∧
      (0 < d.atto ∧ d.atto < one.atto ∧ d.atto ≤ prevScale.atto) ∧ checkRungs r.trigger d rest = .ok () := by
  rw [checkRungs, action]
  dsimp only
  rw [if_neg more]
  split
  next outside =>
    rw [Dec.le_iff, Dec.lt_iff] at outside
    exact iff_of_false (by simp) (by omega)
  next inside =>
    rw [Dec.le_iff, Dec.lt_iff] at inside
    split
    next outside =>
      rw [Dec.le_iff, Dec.le_iff, Dec.atto_zero] at outside
      exact iff_of_false (by simp) (by omega)
    next between =>
      rw [Dec.le_iff, Dec.le_iff, Dec.atto_zero] at between
      split
      next up =>
        rw [Dec.lt_iff] at up
        exact iff_of_false (by simp) (by omega)
      next notUp =>
        rw [Dec.lt_iff] at notUp
        exact ⟨fun later => ⟨by omega, by omega, later⟩, fun ⟨_, _, later⟩ => later⟩

theorem cut_le_one {v : F64} (small : v.value ≤ 1) : v.cut ≤ one.atto := by
  have within := cut_le_of_le (v := v) (n := 1) (by exact_mod_cast small)
  rw [one_atto]
  linarith

theorem checkRungs_iff {ladder : List LadderRung} {prevAt prevScale : ℚ} (valid : Ladder prevAt prevScale ladder) :
    ∀ {rungs : List Rung} {at' scale : Dec}, List.Forall₂ (fun r rung => rungOf r = .ok rung) ladder rungs →
      (∀ v : F64, v.value ≤ prevScale → v.cut ≤ scale.atto) →
        (checkRungs at' scale rungs = .ok () ↔ LadderKept at'.atto ladder) := by
  induction valid with
  | @halt prevAt prevScale rung action noScale finite above fraction =>
      intro rungs at' scale converted _
      cases converted with
      | @cons _ r _ rungs head tail =>
          cases tail
          obtain ⟨acted, read⟩ := rungOf_ok head
          rw [checkRungs_halt (rungAction_halt action acted), conv_cut read]
          simp only [LadderKept, noScale, reduceCtorEq, false_implies, implies_true, and_true]
          exact ⟨fun ⟨apart, _⟩ => apart, fun apart => ⟨apart, cut_le_one fraction⟩⟩
  | @shrink prevAt prevScale rung s rest action hasScale finite above fraction usable below notUp later ih =>
      intro rungs at' scale converted covers
      cases converted with
      | @cons _ r _ rungs head tail =>
          obtain ⟨acted, read⟩ := rungOf_ok head
          obtain ⟨d, readScale, shrinks⟩ := rungAction_shrink action hasScale acted
          have cutScale := conv_cut readScale
          have more : rungs ≠ [] := by
            rintro rfl
            cases tail
            cases later
          have scaleBelow : d.atto < one.atto := by
            have lt := cut_lt_of_lt (v := s) (n := 1) (by exact_mod_cast below)
            rw [cutScale, one_atto]
            linarith
          have scaleDown : d.atto ≤ scale.atto := by
            rw [cutScale]
            exact covers s notUp
          have kept := @ih rungs r.trigger d tail fun v le => by
            rw [cutScale]
            exact cut_mono le
          rw [checkRungs_shrink shrinks more, kept, conv_cut read, cutScale]
          rw [cutScale] at scaleBelow scaleDown
          simp only [LadderKept, hasScale, Option.some.injEq, forall_eq']
          constructor
          · rintro ⟨⟨apart, -⟩, ⟨positive, -⟩, rest⟩
            exact ⟨apart, positive, rest⟩
          · rintro ⟨apart, positive, rest⟩
            exact ⟨⟨apart, cut_le_one fraction⟩, ⟨positive, scaleBelow, scaleDown⟩, rest⟩

/-! ## The risk policy -/

theorem recovery_fraction : ¬ ((Dec.parse defaultRecoveryFractionText).toOption.getD one ≤ Dec.zero ∨
    one < (Dec.parse defaultRecoveryFractionText).toOption.getD one) := by
  decide +kernel

theorem new_ok {dailyLossLimit recovery : Dec} {rungs : List Rung} {risk : RiskPolicy}
    (h : RiskPolicy.new dailyLossLimit rungs recovery = .ok risk) :
    risk.dailyLossLimit = dailyLossLimit ∧ risk.rungs = rungs ∧ checkPolicy dailyLossLimit rungs recovery = .ok () := by
  unfold RiskPolicy.new at h
  split at h
  next checked =>
    cases h
    exact ⟨rfl, rfl, checked⟩
  next => cases h

theorem new_of_checked {dailyLossLimit recovery : Dec} {rungs : List Rung}
    (checked : checkPolicy dailyLossLimit rungs recovery = .ok ()) :
    ∃ risk, RiskPolicy.new dailyLossLimit rungs recovery = .ok risk := by
  unfold RiskPolicy.new
  split
  next => exact ⟨_, rfl⟩
  next failed =>
    rw [checked] at failed
    cases failed

section Policy

variable [UnicodeCase] [DebugText] [ExternalDecimal] {m : MandateBody}

theorem fromMandate_ok (valid : validate m = []) {risk : RiskPolicy} (h : RiskPolicy.fromMandate m = .ok risk) :
    List.Forall₂ (fun r rung => rungOf r = .ok rung) m.loss.drawdownLadder risk.rungs ∧
      conv m.loss.dailyLossLimit = .ok risk.dailyLossLimit := by
  rw [RiskPolicy.fromMandate, RiskPolicy.fromMandateWithRecovery, valid] at h
  simp only [bind_eq_ok] at h
  obtain ⟨rungs, converted, daily, read, new⟩ := h
  obtain ⟨same, same', -⟩ := new_ok new
  rw [same, same']
  exact ⟨mapM_eq_ok.1 converted, read⟩

theorem fromMandate_iff (valid : validate m = []) :
    (∃ risk, RiskPolicy.fromMandate m = .ok risk) ↔
      1 ≤ m.loss.dailyLossLimit.cut ∧ LadderKept 0 m.loss.drawdownLadder := by
  have numbers := validated valid
  obtain ⟨rungs, converted⟩ := ladder_converts numbers.ladder le_rfl
  obtain ⟨daily, read⟩ := conv_of_le_one numbers.daily numbers.dailyOne
  have computed : RiskPolicy.fromMandate m =
      RiskPolicy.new daily rungs ((Dec.parse defaultRecoveryFractionText).toOption.getD one) := by
    rw [RiskPolicy.fromMandate, RiskPolicy.fromMandateWithRecovery, valid]
    simp only [converted, read, ok_bind]
  have some : rungs ≠ [] := by
    rintro rfl
    have lengths := (mapM_eq_ok.1 converted).length_eq
    rw [List.length_nil, List.length_eq_zero_iff] at lengths
    have ladder := numbers.ladder
    rw [lengths] at ladder
    cases ladder
  have start : ∀ v : F64, v.value ≤ 1 → v.cut ≤ one.atto := fun _ small => cut_le_one small
  have kept := @checkRungs_iff _ _ _ numbers.ladder _ Dec.zero _ (mapM_eq_ok.1 converted) start
  rw [Dec.atto_zero] at kept
  have small := cut_le_one numbers.dailyOne
  have checks : checkPolicy daily rungs ((Dec.parse defaultRecoveryFractionText).toOption.getD one) = .ok () ↔
      1 ≤ m.loss.dailyLossLimit.cut ∧ LadderKept 0 m.loss.drawdownLadder := by
    rw [checkPolicy, if_neg recovery_fraction, if_neg some]
    split
    next outside =>
      rw [Dec.le_iff, Dec.lt_iff, conv_cut read, Dec.atto_zero] at outside
      exact iff_of_false (by simp) fun ⟨positive, _⟩ => by omega
    next inside =>
      rw [Dec.le_iff, Dec.lt_iff, conv_cut read, Dec.atto_zero] at inside
      rw [kept]
      exact ⟨fun apart => ⟨by omega, apart⟩, fun ⟨_, apart⟩ => apart⟩
  rw [← checks, computed]
  constructor
  · rintro ⟨risk, new⟩
    exact (new_ok new).2.2
  · exact new_of_checked

/-! ## No limit is looser -/

/-- What the compiled numbers are worth beside the authored ones. -/
structure Stricter (m : MandateBody) (limits : Limits) (risk : RiskPolicy) : Prop where
  leverage : 0 < limits.leverageMaxGross.toDec.toRat ∧
    limits.leverageMaxGross.toDec.toRat ≤ m.«universe».leverageMaxGross.value
  gross : 0 < limits.maxGross.toDec.toRat ∧ limits.maxGross.toDec.toRat ≤ m.exposure.maxGross.value
  net : 0 < limits.maxNet.toDec.toRat ∧ limits.maxNet.toDec.toRat ≤ m.exposure.maxNet.value
  position : 0 < limits.maxPosition.toDec.toRat ∧ limits.maxPosition.toDec.toRat ≤ m.exposure.maxPosition.value
  turnover : 0 < limits.maxTurnoverPerDay.toDec.toRat ∧
    limits.maxTurnoverPerDay.toDec.toRat ≤ m.exposure.maxTurnoverPerDay.value
  netGross : limits.maxNet.toDec.toRat ≤ limits.maxGross.toDec.toRat
  positionGross : limits.maxPosition.toDec.toRat ≤ limits.maxGross.toDec.toRat
  classGross : ∀ (key : String) (cap : Amount), limits.maxAssetClass[key]? = some cap →
    0 < cap.toDec.toRat ∧ cap.toDec.toRat ≤ limits.maxGross.toDec.toRat
  classes : ∀ entry ∈ m.exposure.maxAssetClass.toList,
    ∃ cap : Amount, limits.maxAssetClass[lowerName entry.1]? = some cap ∧ cap.toDec.toRat ≤ entry.2.value
  reserve : m.capital.minCashReserve.value ≤ limits.minCashReserve.toDec.toRat ∧
    limits.minCashReserve.toDec.toRat < 1
  notional : 0 < limits.maxOrderNotional.toDec.toRat ∧
    limits.maxOrderNotional.toDec.toRat ≤ limits.allocated.toDec.toRat
  allocatedExact : Dec.Denotes (trimmed m.capital.allocated.amount) limits.allocated.toDec.toRat
  notionalExact : Dec.Denotes (trimmed m.exposure.maxOrderNotional.amount) limits.maxOrderNotional.toDec.toRat
  daily : 0 < risk.dailyLossLimit.toRat ∧ risk.dailyLossLimit.toRat ≤ m.loss.dailyLossLimit.value
  rungs : List.Forall₂ (fun r rung => rung.trigger.toRat ≤ r.trigger.value ∧
    ∀ scale, rung.action = .shrink scale → ∃ s, r.scale = some s ∧ scale.toRat ≤ s.value)
    m.loss.drawdownLadder risk.rungs

/-- The mandate compiles, to limits and to a risk policy, neither looser than it. -/
def CompilesStricter [MandateHash] (m : MandateBody) : Prop :=
  ∃ limits risk, (Policy.compile m).body = .valid limits ∧ RiskPolicy.fromMandate m = .ok risk ∧
    Stricter m limits risk

/-- The amounts are in range; where the other decimal type may have rounded one, they are
    in order as written. -/
def AmountsInRange (m : MandateBody) : Prop :=
  ∃ alloc notional : Dec.Literal, InRange (trimmed m.capital.allocated.amount) alloc ∧
    InRange (trimmed m.exposure.maxOrderNotional.amount) notional ∧
    (((alloc.int ++ alloc.frac).length ≤ 28 ∧ (notional.int ++ notional.frac).length ≤ 28) ∨
      (0 < notional.value ∧ notional.value ≤ alloc.value))

/-- The numbers survive their conversion: each cap has digits that fit and is at least
    `10^-18`, the rungs stay apart, and of classes that fall together the last has the
    smallest cap. -/
structure Convertible (m : MandateBody) : Prop where
  digits : ∀ v ∈ capRatios m, v.Readable
  least : ∀ v ∈ capRatios m, 1 ≤ v.cut
  merged : ∀ entry ∈ m.exposure.maxAssetClass.toList, ∀ last,
    lastOf m.exposure.maxAssetClass.toList (lowerName entry.1) = some last → last.2.cut ≤ entry.2.cut
  reserve : ⌈m.capital.minCashReserve.value * 10 ^ maxScale⌉ < 10 ^ maxScale
  amounts : AmountsInRange m
  daily : 1 ≤ m.loss.dailyLossLimit.cut
  ladder : LadderKept 0 m.loss.drawdownLadder

theorem compileBody_of_valid (valid : validate m = []) {limits : Limits} :
    compileBody m = .valid limits ↔ convert m = .ok limits := by
  unfold compileBody
  rw [valid]
  cases convert m with
  | ok limits' => simp
  | error e => simp

theorem amounts_in_order (valid : validate m = []) (amounts : AmountsInRange m) :
    ∃ alloc notional : Dec.Literal, InRange (trimmed m.capital.allocated.amount) alloc ∧
      InRange (trimmed m.exposure.maxOrderNotional.amount) notional ∧ 0 < notional.value ∧
        notional.value ≤ alloc.value := by
  obtain ⟨alloc, notional, allocRange, notionalRange, few | order⟩ := amounts
  · obtain ⟨a, n, allocated, given, le⟩ := (validated valid).amounts
    obtain ⟨readA, -⟩ := amountOf_fromStr allocated
    obtain ⟨readN, positive⟩ := amountOf_fromStr given
    have sameA := ExternalDecimal.exact _ _ _ allocRange.1 few.1 readA
    have sameN := ExternalDecimal.exact _ _ _ notionalRange.1 few.2 readN
    rw [sameN] at positive
    rw [sameA, sameN] at le
    exact ⟨alloc, notional, allocRange, notionalRange, positive, le⟩
  · exact ⟨alloc, notional, allocRange, notionalRange, order⟩

theorem Convertible.compiles [MandateHash] (valid : validate m = []) (convertible : Convertible m) :
    CompilesStricter m := by
  have numbers := validated valid
  obtain ⟨alloc, notional, allocRange, notionalRange, positive, order⟩ := amounts_in_order valid convertible.amounts
  obtain ⟨dA, parsedA, exactA⟩ := (parse_exact_iff allocRange.1 (positive.trans_le order)).2 allocRange
  obtain ⟨dN, parsedN, exactN⟩ := (parse_exact_iff notionalRange.1 positive).2 notionalRange
  have attoA := toRat_pos.1 (exactA ▸ positive.trans_le order)
  have attoN := toRat_pos.1 (exactN ▸ positive)
  have usable : ∀ v ∈ capRatios m, Usable v := by
    intro v member
    simp only [capRatios, List.mem_append, List.mem_cons, List.not_mem_nil, or_false, List.mem_map] at member
    rcases member with (rfl | rfl | rfl | rfl | rfl) | ⟨entry, among, rfl⟩
    · exact numbers.leverage
    · exact numbers.gross
    · exact numbers.position
    · exact numbers.net
    · exact numbers.turnover
    · exact (numbers.classes entry among).1
  obtain ⟨d, readReserve⟩ := ratioToDec_up numbers.reserveFinite numbers.reserveNonneg numbers.reserveBelow
  obtain ⟨limits, compiled⟩ := convert_of_readable (b := m)
    (fun v member => (ratioAmount_iff (usable v member)).2 (convertible.digits v member))
    (ratioAmount_of_ok readReserve) ⟨_, moneyAmount_of_parse parsedA (by omega)⟩
    ⟨_, moneyAmount_of_parse parsedN (by omega)⟩
  obtain ⟨risk, policy⟩ := (fromMandate_iff valid).2 ⟨convertible.daily, convertible.ladder⟩
  have converted := convert_ok compiled
  have least := fun v (member : v ∈ capRatios m) => convertible.least v member
  have grossCut := converted.gross_cut numbers.grossLeverage
  have allocated : limits.allocated.toDec = dA := by
    have parsed := moneyAmount_ok converted.allocated
    rw [parsedA] at parsed
    exact (Except.ok.inj parsed).symm
  have notionalDec : limits.maxOrderNotional.toDec = dN := by
    have parsed := moneyAmount_ok converted.notional
    rw [parsedN] at parsed
    exact (Except.ok.inj parsed).symm
  obtain ⟨classes, readClasses, caps⟩ := converted.classes
  obtain ⟨-, capOf⟩ := addClasses_ok readClasses
  have reserve := (ratioToDec_ok (ratioAmount_ok converted.reserve)).2.2
  obtain ⟨rungs, daily⟩ := fromMandate_ok valid policy
  refine ⟨limits, risk, (compileBody_of_valid valid).2 compiled, policy, ?_⟩
  constructor
  case leverage => exact cap_stricter converted.leverage (least _ (by simp [capRatios]))
  case gross =>
    rw [toRat_pos, toRat_le_value, grossCut]
    exact ⟨least _ (by simp [capRatios]), le_rfl⟩
  case net => exact cap_stricter converted.net (least _ (by simp [capRatios]))
  case position => exact cap_stricter converted.position (least _ (by simp [capRatios]))
  case turnover => exact cap_stricter converted.turnover (least _ (by simp [capRatios]))
  case netGross =>
    rw [toRat_le, grossCut, ratioAmount_cut converted.net]
    exact cut_mono numbers.netGross
  case positionGross =>
    rw [toRat_le, grossCut, ratioAmount_cut converted.position]
    exact cut_mono numbers.positionGross
  case classGross =>
    intro key cap found
    rw [caps] at found
    obtain ⟨last, isLast, read⟩ := (capOf key cap).1 found
    obtain ⟨member, -⟩ := lastOf_mem isLast
    rw [toRat_pos, toRat_le, grossCut, ratioAmount_cut read]
    exact ⟨least _ (List.mem_append_right _ (List.mem_map_of_mem member)),
      cut_mono (numbers.classes last member).2⟩
  case classes =>
    intro entry member
    obtain ⟨last, isLast⟩ := lastOf_isSome member
    obtain ⟨among, -⟩ := lastOf_mem isLast
    obtain ⟨cap, read⟩ := (ratioAmount_iff (numbers.classes last among).1).2
      (convertible.digits _ (List.mem_append_right _ (List.mem_map_of_mem among)))
    refine ⟨cap, ?_, ?_⟩
    · rw [caps]
      exact (capOf _ cap).2 ⟨last, isLast, read⟩
    · rw [toRat_le_value, ratioAmount_cut read]
      exact convertible.merged entry member last isLast
  case reserve =>
    rw [Dec.toRat_eq_atto, reserve]
    simp only [RatioRound.toInt]
    constructor
    · rw [le_div_iff₀ (by positivity)]
      exact Int.le_ceil _
    · rw [div_lt_one (by positivity)]
      exact_mod_cast convertible.reserve
  case notional =>
    rw [notionalDec, allocated, exactN, exactA]
    exact ⟨positive, order⟩
  case allocatedExact =>
    rw [allocated]
    exact ⟨alloc, allocRange.1, exactA.symm⟩
  case notionalExact =>
    rw [notionalDec]
    exact ⟨notional, notionalRange.1, exactN.symm⟩
  case daily =>
    rw [toRat_pos, toRat_le_value, conv_cut daily]
    exact ⟨convertible.daily, le_rfl⟩
  case rungs =>
    refine rungs.imp fun r rung read => ?_
    obtain ⟨acted, trigger⟩ := rungOf_ok read
    refine ⟨by rw [toRat_le_value, conv_cut trigger], fun scale shrinks => ?_⟩
    rw [shrinks] at acted
    obtain ⟨s, given, read'⟩ := scale_of_shrink acted
    exact ⟨s, given, by rw [toRat_le_value, conv_cut read']⟩

theorem Stricter.convertible (valid : validate m = []) {limits : Limits} {risk : RiskPolicy}
    (compiled : convert m = .ok limits) (policy : RiskPolicy.fromMandate m = .ok risk)
    (stricter : Stricter m limits risk) : Convertible m := by
  have numbers := validated valid
  have converted := convert_ok compiled
  obtain ⟨gross, readGross, -⟩ := converted.gross
  have grossCut := converted.gross_cut numbers.grossLeverage
  obtain ⟨classes, readClasses, caps⟩ := converted.classes
  obtain ⟨readEach, capOf⟩ := addClasses_ok readClasses
  -- a cap that was read, by its class
  have ofClass : ∀ entry ∈ m.exposure.maxAssetClass.toList,
      ∃ last cap, lastOf m.exposure.maxAssetClass.toList (lowerName entry.1) = some last ∧
        ratioAmount last.2 .down = .ok cap ∧ 0 < cap.toDec.toRat ∧ cap.toDec.toRat ≤ entry.2.value := by
    intro entry member
    obtain ⟨cap, found, le⟩ := stricter.classes entry member
    have positive := (stricter.classGross _ cap found).1
    rw [caps] at found
    obtain ⟨last, isLast, read⟩ := (capOf _ cap).1 found
    exact ⟨last, cap, isLast, read, positive, le⟩
  have least : ∀ {v : F64} {a : Amount}, ratioAmount v .down = .ok a → 0 < a.toDec.toRat → 1 ≤ v.cut := by
    intro v a read positive
    rwa [toRat_pos, ratioAmount_cut read] at positive
  constructor
  case digits =>
    intro v member
    simp only [capRatios, List.mem_append, List.mem_cons, List.not_mem_nil, or_false, List.mem_map] at member
    rcases member with (rfl | rfl | rfl | rfl | rfl) | ⟨entry, among, rfl⟩
    · exact (ratioAmount_iff numbers.leverage).1 ⟨_, converted.leverage⟩
    · exact (ratioAmount_iff numbers.gross).1 ⟨_, readGross⟩
    · exact (ratioAmount_iff numbers.position).1 ⟨_, converted.position⟩
    · exact (ratioAmount_iff numbers.net).1 ⟨_, converted.net⟩
    · exact (ratioAmount_iff numbers.turnover).1 ⟨_, converted.turnover⟩
    · exact (ratioAmount_iff (numbers.classes entry among).1).1 (readEach entry among)
  case least =>
    intro v member
    simp only [capRatios, List.mem_append, List.mem_cons, List.not_mem_nil, or_false, List.mem_map] at member
    rcases member with (rfl | rfl | rfl | rfl | rfl) | ⟨entry, among, rfl⟩
    · exact least converted.leverage stricter.leverage.1
    · have positive := stricter.gross.1
      rwa [toRat_pos, grossCut] at positive
    · exact least converted.position stricter.position.1
    · exact least converted.net stricter.net.1
    · exact least converted.turnover stricter.turnover.1
    · obtain ⟨last, cap, -, read, positive, le⟩ := ofClass entry among
      rw [toRat_pos] at positive
      rw [toRat_le_value] at le
      exact positive.trans le
  case merged =>
    intro entry member last isLast
    obtain ⟨last', cap, isLast', read, -, le⟩ := ofClass entry member
    rw [isLast] at isLast'
    cases isLast'
    rwa [toRat_le_value, ratioAmount_cut read] at le
  case reserve =>
    have below := stricter.reserve.2
    rw [Dec.toRat_eq_atto, div_lt_one (by positivity),
      (ratioToDec_ok (ratioAmount_ok converted.reserve)).2.2] at below
    exact_mod_cast below
  case amounts =>
    obtain ⟨alloc, readA, exactA⟩ := stricter.allocatedExact
    obtain ⟨notional, readN, exactN⟩ := stricter.notionalExact
    have positive := stricter.notional.1
    have order := stricter.notional.2
    rw [← exactN] at positive order
    rw [← exactA] at order
    exact ⟨alloc, notional,
      (parse_exact_iff readA (positive.trans_le order)).1 ⟨_, moneyAmount_ok converted.allocated, exactA.symm⟩,
      (parse_exact_iff readN positive).1 ⟨_, moneyAmount_ok converted.notional, exactN.symm⟩, .inr ⟨positive, order⟩⟩
  case daily => exact ((fromMandate_iff valid).1 ⟨risk, policy⟩).1
  case ladder => exact ((fromMandate_iff valid).1 ⟨risk, policy⟩).2

/-- A valid mandate compiles to limits and a risk policy that are nowhere looser than it
    exactly when its numbers survive their conversion. -/
theorem compilesStricter_iff [MandateHash] (m : MandateBody) (valid : validate m = []) :
    CompilesStricter m ↔ Convertible m := by
  constructor
  · rintro ⟨limits, risk, compiled, policy, stricter⟩
    exact stricter.convertible valid ((compileBody_of_valid valid).1 compiled) policy
  · exact Convertible.compiles valid

end Policy

namespace ClassMandate

attribute [local instance] asciiCase

@[reducible] def quotedText : DebugText := ⟨fun s => "\"" ++ s ++ "\""⟩

/-- Reads every text exactly. -/
@[reducible] def exactDecimal : ExternalDecimal where
  fromStr s := (Dec.readLiteral s.toList).map Dec.Literal.value
  exact s l q read _ given := by
    rw [read] at given
    exact (Option.some.inj given).symm

@[reducible] def unhashed : MandateHash := ⟨fun _ => ""⟩

attribute [local instance] quotedText exactDecimal unhashed

def tenths (n : Fin 10) : F64 := ⟨.finite false [0] [n] RebalancerCore.DecMath.zeroDigit_ne, s!"0.{n}"⟩

def withClasses (classes : List (String × F64)) : MandateBody where
  basis := ⟨.own, "US-GA",
    [⟨"own_capital_attestation", "2026-10", "user_1"⟩, ⟨"risk_disclosure", "2026-10", "user_1"⟩]⟩
  capital := ⟨⟨"5000.00", "USD"⟩, tenths 1⟩
  «universe» := ⟨["alpaca", "kraken"], classes.map Prod.fst, ["SPY", "BTC/USD"], [], false, false, .one⟩
  exposure := ⟨tenths 2, .ofList classes, .one, .one, ⟨"1500.00", "USD"⟩, 20, tenths 5⟩
  loss := ⟨tenths 1, [⟨tenths 1, .shrink, some (tenths 5)⟩, ⟨tenths 2, .haltFlatten, none⟩]⟩
  autonomy := ⟨.l3, [.placeOrders, .halt], [.addStrategy],
    [.changeLimits, .resumeAfterHalt, .changeCredentials, .withdraw]⟩
  reporting := ⟨["email"]⟩

theorem one_class_compiles : CompilesStricter (withClasses [("etf", tenths 6)]) := by
  refine (compilesStricter_iff (withClasses [("etf", tenths 6)]) (by decide +kernel)).2 ?_
  constructor
  case digits => decide +kernel
  case least => decide +kernel
  case merged =>
    intro entry member last isLast
    have each : ∀ entry ∈ (withClasses [("etf", tenths 6)]).exposure.maxAssetClass.toList,
        (lastOf (withClasses [("etf", tenths 6)]).exposure.maxAssetClass.toList (lowerName entry.1)).all
          (fun last => decide (last.2.cut ≤ entry.2.cut)) = true := by decide +kernel
    have here := each entry member
    rw [isLast] at here
    simpa using here
  case reserve => decide +kernel
  case amounts =>
    refine ⟨⟨false, "5000".toList, "00".toList, 0⟩, ⟨false, "1500".toList, "00".toList, 0⟩, ⟨by decide, by decide, ?_⟩,
      ⟨by decide, by decide, ?_⟩, .inl ⟨by decide, by decide⟩⟩
    all_goals
      unfold Dec.Literal.AcceptedAt
      decide
  case daily => decide +kernel
  case ladder => exact ⟨by decide +kernel, by simp; decide +kernel, by decide +kernel, by simp, trivial⟩

/-- `ETF` may hold a tenth and `etf` six tenths; both compile to the one class `etf`, capped
    at six tenths. -/
theorem merged_class_is_wider : validate (withClasses [("ETF", tenths 1), ("etf", tenths 6)]) = [] ∧
    ¬ CompilesStricter (withClasses [("ETF", tenths 1), ("etf", tenths 6)]) := by
  have valid : validate (withClasses [("ETF", tenths 1), ("etf", tenths 6)]) = [] := by decide +kernel
  refine ⟨valid, ?_⟩
  rintro ⟨limits, risk, compiled, policy, stricter⟩
  have convertible := stricter.convertible valid ((compileBody_of_valid valid).1 compiled) policy
  have wider := convertible.merged ("ETF", tenths 1) (by decide +kernel) ("etf", tenths 6) (by decide +kernel)
  exact absurd wider (by decide +kernel)

end ClassMandate

end RebalancerRisk
