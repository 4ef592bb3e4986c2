import SignalEngine.RebalancerStore.AccountEvaluation

/-! # The sleeves that are served

Whatever a plan says, the sleeves that come out of it have names of their own, positive
shares of which there is no more than the whole, and a timing the runtime honours.
-/

open BrokerAdapters Text MandateCore Outcome

namespace RebalancerStore.AccountSource

open RebalancerRun (SleeveKind SleeveSpec)

/-! ## Checks -/

theorem refuseIf_eq_ok {bad : Prop} [Decidable bad] {reason : ExclusionReason} {u : Unit} :
    refuseIf bad reason = .ok u ↔ ¬ bad := by
  unfold refuseIf
  split
  next holds => simp [holds]
  next fails => simp [fails]

theorem orReason_eq_ok {ε α : Type} {reason : ε → ExclusionReason} {x : Except ε α} {a : α} :
    orReason reason x = .ok a ↔ x = .ok a := by
  cases x <;> simp [orReason]

theorem orRefuse_eq_ok {α : Type} {reason : ExclusionReason} {o : Option α} {a : α} :
    orRefuse reason o = .ok a ↔ o = some a := by
  cases o <;> simp [orRefuse]

theorem forM_eq_ok {α : Type} {f : α → Checked Unit} {xs : List α} {u : PUnit} :
    xs.forM f = .ok u ↔ ∀ x ∈ xs, f x = .ok () := by
  induction xs with
  | nil => simp [pure, Except.pure]
  | cons x xs ih =>
      rw [List.forM_eq_forM] at ih ⊢
      rw [List.forM_cons, bind_eq_ok, List.forall_mem_cons]
      constructor
      · rintro ⟨_, head, tail⟩
        exact ⟨head, ih.1 tail⟩
      · rintro ⟨head, tail⟩
        exact ⟨(), head, ih.2 tail⟩

@[simp] theorem atto_one : one.atto = 10 ^ maxScale := by decide

theorem unit_interval {d : Dec} (inside : ¬ (d ≤ Dec.zero ∨ one < d)) : 0 < d.atto ∧ d.atto ≤ 10 ^ maxScale := by
  rw [not_or, Dec.le_iff, Dec.lt_iff, Dec.atto_zero, atto_one, not_le, not_lt] at inside
  exact inside

theorem scaled_le {weight scale share : Dec} (down : 0 < scale.atto ∧ scale.atto ≤ 10 ^ maxScale) (positive : 0 < share.atto)
    (scaled : weight.checkedMul scale = some share) : share.atto ≤ weight.atto := by
  have product := Dec.atto_checkedMul scaled
  have unit : (0 : Int) < 10 ^ maxScale := by decide
  have weightPos : 0 ≤ weight.atto := by
    by_contra negative
    have below : weight.atto * scale.atto < 0 := mul_neg_of_neg_of_pos (not_le.1 negative) down.1
    have floored := Int.ediv_neg_of_neg_of_pos below unit
    omega
  rw [product]
  refine Int.ediv_le_of_le_mul unit ?_
  exact mul_le_mul_of_nonneg_left down.2 weightPos

/-! ## One sleeve -/

/-- A name a run key and an order tag can carry, and a share of the whole. -/
structure NamedShare (s : SleeveSpec) : Prop where
  named : trimmed s.id ≠ "" ∧ '+' ∉ s.id.toList
  share : 0 < s.share.atto ∧ s.share.atto ≤ 10 ^ maxScale
  venue : eqIgnoreAsciiCase s.venue planVenue = true

/-- What is tuned in a sleeve is within what the runtime honours. -/
structure Honoured (s : SleeveSpec) : Prop where
  tranche : s.trancheSessions ≤ maxTrancheSessions
  lookback : ∀ n ∈ s.lookback, 1 ≤ n ∧ n ≤ 500
  tickers : s.kind ≠ .cryptoTrend → ∀ inst ∈ s.instruments, plainTicker inst = true

structure Published (s : SleeveSpec) : Prop where
  instruments : s.instruments = []
  tranche : s.trancheSessions = 0
  lookback : s.lookback = none

theorem Published.honoured {s : SleeveSpec} (published : Published s) : Honoured s where
  tranche := by
    rw [published.tranche]
    exact Nat.zero_le _
  lookback n set := by
    rw [published.lookback] at set
    cases set
  tickers _ inst member := by
    rw [published.instruments] at member
    cases member

/-- What a tuned sleeve rests on: an envelope that covers its point, or the cell the platform
    registered. -/
inductive Covered (platform : Platform) (e : PinnedEntry) (s : SleeveSpec) : Prop where
  | untuned (published : Published s)
  | point (point : PlanPoint) (entry : point.entryId = e.entryId ∧ point.entryVersion = e.entryVersion)
      (covers : platform.envelopes point = .ok ()) (tranche : s.trancheSessions = point.trancheSessions)
      (instruments : s.instruments = [] ∨ s.instruments = point.instruments)
  | cell (cell : PlanCell) (verified : VerifiedCell) (registered : platform.cells (cellClaim e cell) = .ok verified)
      (instruments : s.instruments = verified.instruments) (timing : s.trancheSessions = 0 ∧ s.lookback = none)

/-- Names are distinct and the shares sum to no more than the total. -/
structure Shared (sleeves : List SleeveSpec) (total : Int) : Prop where
  each : ∀ s ∈ sleeves, NamedShare s
  distinct : (sleeves.map SleeveSpec.id).Nodup
  sum_le : (sleeves.map fun s => s.share.atto).sum ≤ total

theorem Shared.nil : Shared [] 0 := ⟨by simp, by simp, by simp⟩

theorem Shared.concat {sleeves : List SleeveSpec} {total more : Int} {s : SleeveSpec} (shared : Shared sleeves total)
    (named : NamedShare s) (fresh : s.id ∉ sleeves.map SleeveSpec.id) (less : s.share.atto ≤ more) :
    Shared (sleeves ++ [s]) (total + more) where
  each s' member := by
    rcases List.mem_append.1 member with old | new
    · exact shared.each s' old
    · rw [List.mem_singleton.1 new]
      exact named
  distinct := by
    rw [List.map_append, List.map_singleton, List.nodup_append_comm, List.singleton_append, List.nodup_cons]
    exact ⟨fresh, shared.distinct⟩
  sum_le := by
    rw [List.map_append, List.sum_append, List.map_singleton, List.sum_singleton]
    exact add_le_add shared.sum_le less

/-! ## A plan of the owner -/

section Owner

variable [DebugText]

theorem parseSleeve_ok {i : Nat} {json : Json} {before : List SleeveSpec} {total total' : Dec} {s : SleeveSpec}
    (read : parseSleeve i json before total = .ok (s, total')) :
    NamedShare s ∧ s.id ∉ before.map SleeveSpec.id ∧ total'.atto = total.atto + s.share.atto ∧
      Published s ∧ s.kind = .etfTrend := by
  unfold parseSleeve at read
  obtain ⟨id, -, read⟩ := bind_eq_ok.1 read
  obtain ⟨_, named, read⟩ := bind_eq_ok.1 read
  obtain ⟨_, fresh, read⟩ := bind_eq_ok.1 read
  obtain ⟨kind, -, read⟩ := bind_eq_ok.1 read
  obtain ⟨_, -, read⟩ := bind_eq_ok.1 read
  obtain ⟨venue, -, read⟩ := bind_eq_ok.1 read
  obtain ⟨_, onVenue, read⟩ := bind_eq_ok.1 read
  obtain ⟨assetClass, -, read⟩ := bind_eq_ok.1 read
  obtain ⟨shareText, -, read⟩ := bind_eq_ok.1 read
  obtain ⟨share, -, read⟩ := bind_eq_ok.1 read
  obtain ⟨_, inside, read⟩ := bind_eq_ok.1 read
  obtain ⟨sum, added, read⟩ := bind_eq_ok.1 read
  obtain ⟨rfl, rfl⟩ := Prod.mk.inj (pure_eq_ok.1 read)
  have named := not_or.1 (refuseIf_eq_ok.1 named)
  refine ⟨⟨named, unit_interval (refuseIf_eq_ok.1 inside), ?_⟩, refuseIf_eq_ok.1 fresh,
    Dec.atto_checkedAdd (orRefuse_eq_ok.1 added), ⟨rfl, rfl, rfl⟩, rfl⟩
  exact eq_true_of_ne_false (refuseIf_eq_ok.1 onVenue)

theorem parseSleevesFrom_ok {items : List Json} {i : Nat} {before sleeves : List SleeveSpec} {total total' : Dec}
    (shared : Shared before total.atto) (published : ∀ s ∈ before, Published s ∧ s.kind = .etfTrend)
    (read : parseSleevesFrom i before total items = .ok (sleeves, total')) :
    Shared sleeves total'.atto ∧ (∀ s ∈ sleeves, Published s ∧ s.kind = .etfTrend) ∧
      sleeves.length = before.length + items.length := by
  induction items generalizing i before total with
  | nil =>
      obtain ⟨rfl, rfl⟩ := Prod.mk.inj (Except.ok.inj read)
      exact ⟨shared, published, rfl⟩
  | cons json rest ih =>
      obtain ⟨⟨s, sum⟩, head, tail⟩ := bind_eq_ok.1 read
      obtain ⟨named, fresh, added, untuned, trend⟩ := parseSleeve_ok head
      have shared' : Shared (before ++ [s]) sum.atto := by
        rw [added]
        exact shared.concat named fresh le_rfl
      have published' : ∀ s' ∈ before ++ [s], Published s' ∧ s'.kind = .etfTrend := by
        intro s' member
        rcases List.mem_append.1 member with old | new
        · exact published s' old
        · rw [List.mem_singleton.1 new]
          exact ⟨untuned, trend⟩
      obtain ⟨shared, published, length⟩ := ih shared' published' tail
      refine ⟨shared, published, ?_⟩
      rw [length, List.length_append, List.length_singleton, List.length_cons]
      omega

theorem parseSleeves_ok {plan : PlanRow} {sleeves : List SleeveSpec} (read : parseSleeves plan = .ok sleeves) :
    sleeves ≠ [] ∧ Shared sleeves (10 ^ maxScale) ∧ ∀ s ∈ sleeves, Published s ∧ s.kind = .etfTrend := by
  unfold parseSleeves at read
  obtain ⟨items, -, read⟩ := bind_eq_ok.1 read
  cases items with
  | nil => cases read
  | cons first rest =>
      obtain ⟨⟨all, total⟩, parsed, read⟩ := bind_eq_ok.1 read
      obtain ⟨_, within, read⟩ := bind_eq_ok.1 read
      obtain ⟨_, -, read⟩ := bind_eq_ok.1 read
      obtain rfl := pure_eq_ok.1 read
      have start : Shared [] Dec.zero.atto := by
        rw [Dec.atto_zero]
        exact .nil
      obtain ⟨shared, published, length⟩ := parseSleevesFrom_ok start (by simp) parsed
      have within := refuseIf_eq_ok.1 within
      rw [Dec.lt_iff, atto_one, not_lt] at within
      refine ⟨?_, ⟨shared.each, shared.distinct, shared.sum_le.trans within⟩, published⟩
      rintro rfl
      simp at length

end Owner

/-! ## An approved proposal -/

theorem proposalKind_ok {entryId : String} {hasCell : Bool} {kind : SleeveKind}
    (read : proposalKind entryId hasCell = .ok kind) : kind = .etfMomentum → hasCell = true := by
  have plain : ∀ k, sleeveKindForEntry entryId = some k → k ≠ .etfMomentum := by
    intro k found momentum
    obtain ⟨e, listed, rfl⟩ := Option.map_eq_some_iff.1 found
    have member := List.mem_of_find?_eq_some listed
    simp only [entrySleeveKinds, List.mem_cons, List.not_mem_nil, or_false] at member
    rcases member with rfl | rfl
    · cases momentum
    · cases momentum
  intro momentum
  unfold proposalKind at read
  split at read
  next found =>
    obtain rfl := Except.ok.inj read
    exact absurd momentum (plain _ found)
  next =>
    obtain rfl := Except.ok.inj read
    cases momentum
  next => cases read
  next => rfl
  all_goals cases read

/-- The weights may sum to a billionth more than one. -/
def sumCap : Int := 10 ^ maxScale + 10 ^ 9

theorem atto_weightCap : weightCap.atto = sumCap := by decide +kernel

theorem parsePoint_ok {i version : Nat} {id : String} {json : Json} {point : Option PlanPoint}
    (read : parsePoint i id version json = .ok point) : ∀ q ∈ point, q.entryId = id ∧ q.entryVersion = version := by
  unfold parsePoint at read
  split at read
  next =>
    obtain rfl := Except.ok.inj read
    simp
  next =>
    obtain ⟨tranche, -, read⟩ := bind_eq_ok.1 read
    obtain ⟨_, -, read⟩ := bind_eq_ok.1 read
    obtain ⟨items, -, read⟩ := bind_eq_ok.1 read
    obtain ⟨instruments, -, read⟩ := bind_eq_ok.1 read
    obtain ⟨parameters, -, read⟩ := bind_eq_ok.1 read
    obtain ⟨envelopeHash, -, read⟩ := bind_eq_ok.1 read
    obtain ⟨cellKey, -, read⟩ := bind_eq_ok.1 read
    obtain rfl := pure_eq_ok.1 read
    simp

section Proposal

variable [DebugText] [JsonDisplay]

def ParsedSleeve.untuned (p : ParsedSleeve) : ParsedSleeve :=
  { p with spec := { p.spec with instruments := [], trancheSessions := 0, lookback := none } }

/-- What is read of a sleeve: an untuned one that carries its entry, and a cell where its rule
    runs as a cell only. -/
structure Read (p : ParsedSleeve) : Prop where
  published : Published p.spec
  entry : p.spec.id = p.entry.entryId
  version : p.entry.entryVersion < 2 ^ 31
  point : ∀ q ∈ p.point, q.entryId = p.entry.entryId ∧ q.entryVersion = p.entry.entryVersion
  ranked : p.spec.kind = .etfMomentum → p.cell.isSome

theorem parseProposalSleeve_ok {i : Nat} {json : Json} {riskScale total total' : Dec} {before : List ParsedSleeve}
    {p : ParsedSleeve} (scale : 0 < riskScale.atto ∧ riskScale.atto ≤ 10 ^ maxScale)
    (read : parseProposalSleeve i json riskScale before total = .ok (p, total')) :
    NamedShare p.spec ∧ Read p ∧ p.spec.id ∉ before.map (fun o => o.spec.id) ∧
      ∃ weight : Dec, total'.atto = total.atto + weight.atto ∧ p.spec.share.atto ≤ weight.atto := by
  unfold parseProposalSleeve at read
  obtain ⟨entryId, -, read⟩ := bind_eq_ok.1 read
  obtain ⟨entryVersion, -, read⟩ := bind_eq_ok.1 read
  obtain ⟨_, inRange, read⟩ := bind_eq_ok.1 read
  obtain ⟨entryHash, -, read⟩ := bind_eq_ok.1 read
  obtain ⟨weightF, -, read⟩ := bind_eq_ok.1 read
  obtain ⟨_, named, read⟩ := bind_eq_ok.1 read
  obtain ⟨_, fresh, read⟩ := bind_eq_ok.1 read
  obtain ⟨cell, -, read⟩ := bind_eq_ok.1 read
  obtain ⟨kind, kindRead, read⟩ := bind_eq_ok.1 read
  obtain ⟨weight, -, read⟩ := bind_eq_ok.1 read
  obtain ⟨_, -, read⟩ := bind_eq_ok.1 read
  obtain ⟨share, scaled, read⟩ := bind_eq_ok.1 read
  obtain ⟨_, inside, read⟩ := bind_eq_ok.1 read
  obtain ⟨sum, added, read⟩ := bind_eq_ok.1 read
  obtain ⟨_, -, read⟩ := bind_eq_ok.1 read
  obtain ⟨point, pointRead, read⟩ := bind_eq_ok.1 read
  obtain ⟨_, -, read⟩ := bind_eq_ok.1 read
  obtain ⟨rfl, rfl⟩ := Prod.mk.inj (pure_eq_ok.1 read)
  have named := not_or.1 (refuseIf_eq_ok.1 named)
  have inside := unit_interval (refuseIf_eq_ok.1 inside)
  have version : entryVersion.toNat < 2 ^ 31 := by
    have inRange := refuseIf_eq_ok.1 inRange
    omega
  refine ⟨⟨named, inside, eqIgnoreAsciiCase_refl _⟩, ⟨⟨rfl, rfl, rfl⟩, rfl, version, parsePoint_ok pointRead, proposalKind_ok kindRead⟩, refuseIf_eq_ok.1 fresh,
    weight, Dec.atto_checkedAdd (orRefuse_eq_ok.1 added), ?_⟩
  exact scaled_le scale inside.1 (orRefuse_eq_ok.1 scaled)

theorem parseProposalSleevesFrom_ok {riskScale : Dec} {items : List Json} {i : Nat} {before parsed : List ParsedSleeve}
    {total total' : Dec} (scale : 0 < riskScale.atto ∧ riskScale.atto ≤ 10 ^ maxScale)
    (shared : Shared (before.map ParsedSleeve.spec) total.atto) (readBefore : ∀ p ∈ before, Read p)
    (read : parseProposalSleevesFrom riskScale i before total items = .ok (parsed, total')) :
    Shared (parsed.map ParsedSleeve.spec) total'.atto ∧ (∀ p ∈ parsed, Read p) ∧
      parsed.length = before.length + items.length := by
  induction items generalizing i before total with
  | nil =>
      obtain ⟨rfl, rfl⟩ := Prod.mk.inj (Except.ok.inj read)
      exact ⟨shared, readBefore, rfl⟩
  | cons json rest ih =>
      obtain ⟨⟨p, sum⟩, head, tail⟩ := bind_eq_ok.1 read
      obtain ⟨named, readP, fresh, weight, added, less⟩ := parseProposalSleeve_ok scale head
      have shared' : Shared ((before ++ [p]).map ParsedSleeve.spec) sum.atto := by
        rw [added, List.map_append]
        refine shared.concat named ?_ less
        rw [List.map_map]
        exact fresh
      have readBefore' : ∀ p' ∈ before ++ [p], Read p' := by
        intro p' member
        rcases List.mem_append.1 member with old | new
        · exact readBefore p' old
        · rw [List.mem_singleton.1 new]
          exact readP
      obtain ⟨shared, readAll, length⟩ := ih shared' readBefore' tail
      refine ⟨shared, readAll, ?_⟩
      rw [length, List.length_append, List.length_singleton, List.length_cons]
      omega

variable [UuidReader]

theorem parseProposalSleeves_ok {plan : ProposalPlanRow} {parsed : List ParsedSleeve}
    (read : parseProposalSleeves plan = .ok parsed) :
    parsed ≠ [] ∧ Shared (parsed.map ParsedSleeve.spec) sumCap ∧ ∀ p ∈ parsed, Read p := by
  unfold parseProposalSleeves at read
  obtain ⟨bodyProposal, -, read⟩ := bind_eq_ok.1 read
  obtain ⟨_, -, read⟩ := bind_eq_ok.1 read
  obtain ⟨riskScaleF, -, read⟩ := bind_eq_ok.1 read
  obtain ⟨riskScale, -, read⟩ := bind_eq_ok.1 read
  obtain ⟨_, scale, read⟩ := bind_eq_ok.1 read
  obtain ⟨items, -, read⟩ := bind_eq_ok.1 read
  obtain ⟨_, some, read⟩ := bind_eq_ok.1 read
  obtain ⟨⟨all, total⟩, walked, read⟩ := bind_eq_ok.1 read
  obtain ⟨_, within, read⟩ := bind_eq_ok.1 read
  obtain rfl := pure_eq_ok.1 read
  have start : Shared (([] : List ParsedSleeve).map ParsedSleeve.spec) Dec.zero.atto := by
    rw [Dec.atto_zero]
    exact .nil
  obtain ⟨shared, readAll, length⟩ :=
    parseProposalSleevesFrom_ok (unit_interval (refuseIf_eq_ok.1 scale)) start (by simp) walked
  have within := refuseIf_eq_ok.1 within
  rw [Dec.lt_iff, atto_weightCap, not_lt] at within
  refine ⟨?_, ⟨shared.each, shared.distinct, shared.sum_le.trans within⟩, readAll⟩
  rintro rfl
  have empty : items = [] := List.length_eq_zero_iff.1 (by simpa using length.symm)
  exact refuseIf_eq_ok.1 some empty

end Proposal

/-! ## Points and cells -/

theorem lookbackOf_some {v : Json} {n : Nat} (read : lookbackOf v = some n) : 1 ≤ n ∧ n ≤ 500 := by
  have kept := Option.filter_eq_some_iff.1 read
  simpa using kept.2

theorem checkPointInstrument_ok {s : SleeveSpec} {inst : String} {u : Unit} (checked : checkPointInstrument s inst = .ok u)
    (notCrypto : s.kind ≠ .cryptoTrend) : plainTicker inst = true := by
  unfold checkPointInstrument at checked
  cases kind : s.kind with
  | etfTrend =>
      rw [kind] at checked
      exact eq_true_of_ne_false (refuseIf_eq_ok.1 checked)
  | etfMomentum =>
      rw [kind] at checked
      cases checked
  | cryptoTrend => exact absurd kind notCrypto

theorem checkCellForm_ok {s : SleeveSpec} {verified : VerifiedCell} {u : Unit} (checked : checkCellForm s verified = .ok u) :
    2 ≤ verified.instruments.length := by
  unfold checkCellForm at checked
  cases kind : s.kind with
  | etfTrend =>
      rw [kind] at checked
      obtain ⟨_, -, checked⟩ := bind_eq_ok.1 checked
      have enough := refuseIf_eq_ok.1 checked
      omega
  | etfMomentum =>
      rw [kind] at checked
      obtain ⟨_, -, checked⟩ := bind_eq_ok.1 checked
      exact not_lt.1 (refuseIf_eq_ok.1 checked)
  | cryptoTrend =>
      rw [kind] at checked
      cases checked

theorem overrideLookback_ok {bad : Json → ExclusionReason} {published : Bool} {overridden : Option Json} {lookback : Option Nat}
    (read : overrideLookback bad published overridden = .ok lookback) : ∀ n ∈ lookback, 1 ≤ n ∧ n ≤ 500 := by
  intro n set
  cases overridden with
  | none =>
      obtain rfl := Except.ok.inj read
      cases set
  | some v =>
      simp only [overrideLookback] at read
      split at read
      next =>
        obtain rfl := Except.ok.inj read
        cases set
      next =>
        cases value : lookbackOf v with
        | none =>
            rw [value] at read
            cases read
        | some m =>
            rw [value] at read
            obtain rfl := Except.ok.inj read
            obtain rfl := Option.some.inj set
            exact lookbackOf_some value

theorem applyCell_ok {platform : Platform} {s s' : SleeveSpec} {e : PinnedEntry} {cell : PlanCell}
    (applied : applyCell platform s e cell = .ok s') : Honoured s' ∧ Covered platform e s' ∧ 2 ≤ s'.instruments.length ∧
      s' = { s with instruments := s'.instruments, trancheSessions := 0, lookback := none } := by
  unfold applyCell at applied
  obtain ⟨verified, registered, applied⟩ := bind_eq_ok.1 applied
  obtain ⟨_, form, applied⟩ := bind_eq_ok.1 applied
  obtain ⟨_, tickers, applied⟩ := bind_eq_ok.1 applied
  obtain rfl := pure_eq_ok.1 applied
  refine ⟨⟨Nat.zero_le _, by simp, ?_⟩, .cell cell verified (orReason_eq_ok.1 registered) rfl ⟨rfl, rfl⟩,
    checkCellForm_ok form, rfl⟩
  intro _ inst member
  exact eq_true_of_ne_false (refuseIf_eq_ok.1 (forM_eq_ok.1 tickers inst member))

theorem applyPoint_ok [JsonDisplay] {platform : Platform} {s s' : SleeveSpec} {e : PinnedEntry} {point : PlanPoint}
    (published : Published s) (entry : point.entryId = e.entryId ∧ point.entryVersion = e.entryVersion)
    (applied : applyPoint platform s point = .ok s') : Honoured s' ∧ Covered platform e s' ∧
      s' = { s with instruments := s'.instruments, trancheSessions := s'.trancheSessions, lookback := s'.lookback } := by
  unfold applyPoint at applied
  obtain ⟨lib, -, applied⟩ := bind_eq_ok.1 applied
  obtain ⟨ours, -, applied⟩ := bind_eq_ok.1 applied
  obtain ⟨_, -, applied⟩ := bind_eq_ok.1 applied
  obtain ⟨_, -, applied⟩ := bind_eq_ok.1 applied
  dsimp only at applied
  split at applied
  next =>
    obtain rfl := pure_eq_ok.1 applied
    exact ⟨published.honoured, .untuned published, rfl⟩
  next =>
    obtain ⟨_, tranche, applied⟩ := bind_eq_ok.1 applied
    obtain ⟨_, covers, applied⟩ := bind_eq_ok.1 applied
    obtain ⟨lookback, inBand, applied⟩ := bind_eq_ok.1 applied
    obtain ⟨_, instruments, applied⟩ := bind_eq_ok.1 applied
    obtain rfl := pure_eq_ok.1 applied
    refine ⟨⟨not_lt.1 (refuseIf_eq_ok.1 tranche), overrideLookback_ok inBand, ?_⟩,
      .point point entry (orReason_eq_ok.1 covers) rfl (by split <;> simp), rfl⟩
    intro notCrypto inst member
    unfold checkUnless at instruments
    split at instruments
    next same =>
      simp only [same, if_true] at member
      cases member
    next other =>
      simp only [other] at member
      exact checkPointInstrument_ok (forM_eq_ok.1 instruments inst member) notCrypto

/-! ## Tuned sleeves -/

/-- What tuning leaves alone, and what it rests on. -/
structure TunedFrom (platform : Platform) (p p' : ParsedSleeve) : Prop where
  untuned : p'.untuned = p.untuned
  honoured : Honoured p'.spec
  covered : Covered platform p'.entry p'.spec

section

variable {platform : Platform} {p p' : ParsedSleeve} (tuned : TunedFrom platform p p')

include tuned

theorem TunedFrom.cell : p'.cell = p.cell := congrArg (fun p => p.cell) tuned.untuned

theorem TunedFrom.entry : p'.entry = p.entry := congrArg (fun p => p.entry) tuned.untuned

theorem TunedFrom.id : p'.spec.id = p.spec.id := congrArg (fun p => p.spec.id) tuned.untuned

theorem TunedFrom.share : p'.spec.share = p.spec.share := congrArg (fun p => p.spec.share) tuned.untuned

theorem TunedFrom.kind : p'.spec.kind = p.spec.kind := congrArg (fun p => p.spec.kind) tuned.untuned

theorem TunedFrom.venue : p'.spec.venue = p.spec.venue := congrArg (fun p => p.spec.venue) tuned.untuned

theorem TunedFrom.named (named : NamedShare p.spec) : NamedShare p'.spec where
  named := by
    rw [tuned.id]
    exact named.named
  share := by
    rw [tuned.share]
    exact named.share
  venue := by
    rw [tuned.venue]
    exact named.venue

end

theorem TunedFrom.trans {platform : Platform} {p q r : ParsedSleeve} (first : TunedFrom platform p q)
    (second : TunedFrom platform q r) : TunedFrom platform p r :=
  ⟨second.untuned.trans first.untuned, second.honoured, second.covered⟩

theorem pointed_ok [JsonDisplay] {platform : Platform} {p p' : ParsedSleeve} (read : Read p)
    (applied : pointed platform p = .ok p') : TunedFrom platform p p' := by
  unfold pointed at applied
  split at applied
  next =>
    obtain rfl := Except.ok.inj applied
    exact ⟨rfl, read.published.honoured, .untuned read.published⟩
  next point named =>
    obtain ⟨s', tuned, applied⟩ := bind_eq_ok.1 applied
    obtain rfl := pure_eq_ok.1 applied
    obtain ⟨honoured, covered, same⟩ := applyPoint_ok read.published (read.point point named) tuned
    refine ⟨?_, honoured, covered⟩
    rw [ParsedSleeve.untuned, ParsedSleeve.untuned]
    dsimp only
    rw [same]

theorem celled_ok {platform : Platform} {p p' : ParsedSleeve} (honoured : Honoured p.spec)
    (covered : Covered platform p.entry p.spec) (applied : celled platform p = .ok p') :
    TunedFrom platform p p' ∧ (p.cell.isSome → 2 ≤ p'.spec.instruments.length) := by
  unfold celled at applied
  split at applied
  next none =>
    obtain rfl := Except.ok.inj applied
    refine ⟨⟨rfl, honoured, covered⟩, fun has => ?_⟩
    rw [none] at has
    cases has
  next =>
    obtain ⟨s', tuned, applied⟩ := bind_eq_ok.1 applied
    obtain rfl := pure_eq_ok.1 applied
    obtain ⟨honoured, covered, enough, same⟩ := applyCell_ok tuned
    refine ⟨⟨?_, honoured, covered⟩, fun _ => enough⟩
    rw [ParsedSleeve.untuned, ParsedSleeve.untuned]
    dsimp only
    rw [same]

theorem tuned_ok [JsonDisplay] {platform : Platform} {parsed atPoints onCells : List ParsedSleeve}
    (read : ∀ p ∈ parsed, Read p) (points : parsed.mapM (pointed platform) = .ok atPoints)
    (cells : atPoints.mapM (celled platform) = .ok onCells) :
    List.Forall₂ (fun p p' => TunedFrom platform p p' ∧ (p.cell.isSome → 2 ≤ p'.spec.instruments.length)) parsed onCells := by
  have first := mapM_eq_ok.1 points
  have second := mapM_eq_ok.1 cells
  clear points cells
  induction first generalizing onCells with
  | nil =>
      cases second
      exact .nil
  | cons head _ ih =>
      cases second with
      | cons head' tail' =>
          have point := pointed_ok (read _ (by simp)) head
          obtain ⟨cell, enough⟩ := celled_ok point.honoured point.covered head'
          refine .cons ⟨point.trans cell, ?_⟩ (ih (fun p member => read p (by simp [member])) tail')
          intro has
          rw [← point.cell] at has
          exact enough has

/-- The sleeves of an account, with what their shares may sum to. -/
structure SoundSleeves (sleeves : List SleeveSpec) (cap : Int) : Prop where
  some : sleeves ≠ []
  shared : Shared sleeves cap
  honoured : ∀ s ∈ sleeves, Honoured s
  ranked : ∀ s ∈ sleeves, s.kind = .etfMomentum → 2 ≤ s.instruments.length

theorem map_eq_of_forall₂ {α β γ : Type} {R : α → β → Prop} {f : α → γ} {g : β → γ} {as : List α} {bs : List β}
    (related : List.Forall₂ R as bs) (same : ∀ a b, R a b → f a = g b) : as.map f = bs.map g := by
  have pointwise : List.Forall₂ (· = ·) (as.map f) (bs.map g) :=
    List.forall₂_map_left_iff.2 (List.forall₂_map_right_iff.2 (related.imp same))
  rwa [List.forall₂_eq_eq_eq] at pointwise

section Tuned

variable {platform : Platform} {parsed onCells : List ParsedSleeve}
  (tuned : List.Forall₂ (fun p p' => TunedFrom platform p p' ∧ (p.cell.isSome → 2 ≤ p'.spec.instruments.length)) parsed onCells)

include tuned

theorem exists_read {p' : ParsedSleeve} (member : p' ∈ onCells) :
    ∃ p ∈ parsed, TunedFrom platform p p' ∧ (p.cell.isSome → 2 ≤ p'.spec.instruments.length) := by
  induction tuned with
  | nil => cases member
  | cons head _ ih =>
      rcases List.mem_cons.1 member with rfl | later
      · exact ⟨_, by simp, head⟩
      · obtain ⟨p, old, rest⟩ := ih later
        exact ⟨p, by simp [old], rest⟩

theorem soundSleeves_of_tuned {cap : Int} (some : parsed ≠ []) (shared : Shared (parsed.map ParsedSleeve.spec) cap)
    (read : ∀ p ∈ parsed, Read p) : SoundSleeves (onCells.map ParsedSleeve.spec) cap := by
  have ids : parsed.map (fun p => p.spec.id) = onCells.map fun p => p.spec.id :=
    map_eq_of_forall₂ tuned fun p p' related => related.1.id.symm
  have shares : parsed.map (fun p => p.spec.share.atto) = onCells.map fun p => p.spec.share.atto :=
    map_eq_of_forall₂ tuned fun p p' related => by rw [related.1.share]
  refine ⟨?_, ⟨?_, ?_, ?_⟩, ?_, ?_⟩
  · intro empty
    have same := tuned.length_eq
    rw [List.map_eq_nil_iff.1 empty, List.length_nil, List.length_eq_zero_iff] at same
    exact some same
  · intro s member
    obtain ⟨p', listed, rfl⟩ := List.mem_map.1 member
    obtain ⟨p, old, related, _⟩ := exists_read tuned listed
    exact related.named (shared.each p.spec (List.mem_map_of_mem old))
  · have distinct := shared.distinct
    rw [List.map_map] at distinct ⊢
    exact ids ▸ distinct
  · have sum := shared.sum_le
    rw [List.map_map] at sum ⊢
    exact shares ▸ sum
  · intro s member
    obtain ⟨p', listed, rfl⟩ := List.mem_map.1 member
    obtain ⟨_, _, related, _⟩ := exists_read tuned listed
    exact related.honoured
  · intro s member momentum
    obtain ⟨p', listed, rfl⟩ := List.mem_map.1 member
    obtain ⟨p, old, related, enough⟩ := exists_read tuned listed
    rw [related.kind] at momentum
    exact enough ((read p old).ranked momentum)

theorem entries_of_tuned : onCells.map ParsedSleeve.entry = parsed.map ParsedSleeve.entry :=
  (map_eq_of_forall₂ tuned fun _ _ related => related.1.entry.symm).symm

theorem covered_of_tuned (read : ∀ p ∈ parsed, Read p) :
    List.Forall₂ (fun e s => e.entryId = s.id ∧ Covered platform e s)
      (onCells.map ParsedSleeve.entry) (onCells.map ParsedSleeve.spec) := by
  rw [List.forall₂_map_left_iff, List.forall₂_map_right_iff, List.forall₂_same]
  intro p' member
  obtain ⟨p, old, related, _⟩ := exists_read tuned member
  refine ⟨?_, related.covered⟩
  rw [related.id, related.entry, (read p old).entry]

end Tuned

end RebalancerStore.AccountSource
