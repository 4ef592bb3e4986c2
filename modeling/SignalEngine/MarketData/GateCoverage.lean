import SignalEngine.MarketData.Gate
import Mathlib.Data.List.DropRight
import Mathlib.Data.List.Nodup

/-! # Coverage of the data gate

What a rule reads of its sources, the grounds on which the gate refuses, and
when every close a rule reads has been compared before the gate lets it pass.
-/

namespace MarketData

/-! ## Verdicts -/

theorem worse_eq_refuse_iff {a b : GateVerdict} : worse a b = .refuse ↔ a = .refuse ∨ b = .refuse := by
  cases a <;> cases b <;> simp [worse, GateVerdict.rank]

theorem worst_eq_refuse_iff {rs : List GateReason} : worst rs = .refuse ↔ ∃ r ∈ rs, r.verdict = .refuse := by
  have fold : ∀ (vs : List GateVerdict) (start : GateVerdict),
      vs.foldl worse start = .refuse ↔ start = .refuse ∨ .refuse ∈ vs := by
    intro vs
    induction vs with
    | nil => simp
    | cons v vs ih =>
        intro start
        rw [List.foldl_cons, ih, worse_eq_refuse_iff, List.mem_cons, or_assoc, eq_comm (a := v)]
  rw [worst, fold, List.mem_map]
  simp

/-! ## Series -/

theorem PriceSeries.le_lastDate (s : PriceSeries) {b : Bar} (member : b ∈ s.bars) : b.date ≤ s.lastDate := by
  have whole := List.dropLast_append_getLast s.nonempty
  have ascending := s.ascending
  rw [← whole, List.mem_append, List.mem_singleton] at member
  rw [← whole, List.pairwise_append] at ascending
  obtain earlier | rfl := member
  · exact (ascending.2.2 b earlier _ (by simp)).le
  · exact le_refl _

theorem closeAt_some (s : PriceSeries) (date : Date) :
    closeAt (some s) date = (s.bars.find? fun b => b.date == date).map Bar.close := by
  rw [Option.map_eq_bind]
  rfl

theorem closeAt_isSome_iff {s : PriceSeries} {date : Date} :
    (closeAt (some s) date).isSome = true ↔ date ∈ s.dates := by
  rw [closeAt_some, Option.isSome_map, List.find?_isSome, PriceSeries.dates, List.mem_map]
  simp

theorem mem_unite {p s : List Date} {d : Date} : d ∈ unite p s ↔ d ∈ p ∨ d ∈ s := by
  rw [unite, Std.ExtTreeSet.mem_toList, Std.ExtTreeSet.mem_insertMany_list, Std.ExtTreeSet.mem_ofList]
  simp

/-! ## What a rule reads -/

structure GateInput where
  kind : SleeveKind
  symbols : List String
  /-- At least one, and a machine word. -/
  window : Nat
  asOf : Date
  primary : Panel
  secondary : Panel
  policy : Policy

/-- The closes a rule reads of one series, decided at `dd`. -/
inductive Reads [ReferenceRules] (i : GateInput) (dd : Date) (s : PriceSeries) : Date → BarPosition → Prop
  /-- One of the last month-ends up to the decision date. -/
  | monthEnd (d : Date) : i.kind = .etfTrend →
      d ∈ ((ReferenceRules.completedMonthEndDates s).filter (· ≤ dd)).rtake i.window → Reads i dd s d .monthEnd
  /-- The bar of the decision date. -/
  | decision : i.kind = .etfMomentum → Reads i dd s dd .dailyClose
  /-- The bar one window before it. -/
  | earlier (n : Nat) (d : Date) : i.kind = .etfMomentum → s.dates[n + i.window]? = some dd → s.dates[n]? = some d →
      Reads i dd s d .dailyClose
  /-- One of the days before the run date. -/
  | day (k : Nat) : i.kind = .cryptoTrend → 1 ≤ k → k ≤ i.window →
      Reads i dd s (i.asOf - k) (if k = 1 then .decisionDay else .window)

/-- Both sources have the bar, and their closes are within the refuse level. -/
def Agrees (policy : Policy) (p s : Option PriceSeries) (date : Date) (position : BarPosition) : Prop :=
  ∃ a b, closeAt p date = some a ∧ closeAt s date = some b ∧ diffBps a b ≤ (policy.tolerance position).refuseBps

namespace GateInput

variable [ReferenceRules] (i : GateInput)

def result : Comparison :=
  compareWith i.kind i.symbols i.window i.asOf i.primary i.secondary i.policy

/-- The decision date of a source: what the rules library computes, the newest bar, or yesterday. -/
def decisionDateOf (panel : Panel) : Option Date :=
  match i.kind with
  | .etfTrend => ReferenceRules.latestDecisionDate panel i.symbols
  | .etfMomentum => newestBar i.symbols panel
  | .cryptoTrend => some (i.asOf - 1)

def decided : Option Date × Option Date := (i.decisionDateOf i.primary, i.decisionDateOf i.secondary)

def dates (sym : String) : List (Date × BarPosition) :=
  comparisonDates i.kind i.window i.asOf (i.primary.get sym) (i.secondary.get sym) i.decided.1 i.decided.2

/-- The instrument is held by both sources, and they agree on every close the rule reads of either. -/
def CoversSymbol (sym : String) : Prop :=
  ∃ dd p s, i.decided = (some dd, some dd) ∧ i.primary.get sym = some p ∧ i.secondary.get sym = some s ∧
    ∀ series, series = p ∨ series = s → ∀ d position, Reads i dd series d position →
      Agrees i.policy (some p) (some s) d position

/-- Nothing reaches the run date, and every close the rule reads has been compared. -/
structure Covered : Prop where
  early : ∀ s, s ∈ i.primary ∨ s ∈ i.secondary → ∀ b ∈ s.bars, b.date < i.asOf
  each : ∀ sym ∈ i.symbols, i.CoversSymbol sym

/-! ## Grounds of refusal -/

/-- The span of the checks between consecutive bars of an instrument. -/
def span (sym : String) : Option (Date × Date) := do
  let (oldest, _) ← (i.dates sym).head?
  let newest ← windowTo i.asOf (i.primary.get sym) (i.secondary.get sym)
  some (oldest, newest)

def Gap (s : PriceSeries) (oldest newest : Date) : Prop :=
  ∃ bb ∈ consecutiveIn s oldest newest,
    i.policy.etfMaxMissingWeekdays < ReferenceRules.missingWeekdaysBetween bb.1.date bb.2.date

def Split (s : PriceSeries) (other : Option PriceSeries) (oldest newest : Date) : Prop :=
  ∃ bb ∈ consecutiveIn s oldest newest, ∃ o o', closeAt other bb.1.date = some o ∧ closeAt other bb.2.date = some o' ∧
    looksLikeSplit (bb.2.close / bb.1.close) i.policy.splitRatioTolerance = true ∧
    i.policy.splitRatioTolerance < |o' / o / (bb.2.close / bb.1.close) - 1|

inductive Refusal : Prop
  | late (s : PriceSeries) : s ∈ i.primary ∨ s ∈ i.secondary → i.asOf ≤ s.lastDate → Refusal
  | undated : i.kind = .etfTrend → i.decided.1 = none ∨ i.decided.2 = none → Refusal
  | mismatch (p s : Date) : i.decided = (some p, some s) → p ≠ s → Refusal
  | bar (sym : String) (entry : Date × BarPosition) : sym ∈ i.symbols → entry ∈ i.dates sym →
      ¬ Agrees i.policy (i.primary.get sym) (i.secondary.get sym) entry.1 entry.2 → Refusal
  | gap (sym : String) (s : PriceSeries) (oldest newest : Date) : sym ∈ i.symbols → i.kind ≠ .cryptoTrend →
      i.span sym = some (oldest, newest) → i.primary.get sym = some s ∨ i.secondary.get sym = some s →
      i.Gap s oldest newest → Refusal
  | split (sym : String) (s : PriceSeries) (other : Option PriceSeries) (oldest newest : Date) : sym ∈ i.symbols →
      i.span sym = some (oldest, newest) →
      (i.primary.get sym = some s ∧ other = i.secondary.get sym) ∨
        (i.secondary.get sym = some s ∧ other = i.primary.get sym) →
      i.Split s other oldest newest → Refusal

variable {i}

theorem decided_eq : (decisionDates i.kind i.symbols i.asOf i.primary i.secondary).1 = i.decided := by
  unfold decided decisionDateOf
  cases i.kind with
  | etfTrend => rfl
  | etfMomentum => rfl
  | cryptoTrend => rfl

omit [ReferenceRules] in
theorem mem_lateBars {asOf : Date} {panel : Panel} {r : GateReason} (member : r ∈ lateBars asOf panel) :
    ∃ s ∈ panel, asOf ≤ s.lastDate := by
  obtain ⟨s, known, reason⟩ := List.mem_filterMap.1 member
  split at reason
  next late => exact ⟨s, known, late⟩
  next => cases reason

omit [ReferenceRules] in
theorem lateBars_refuse {asOf : Date} {panel : Panel} {s : PriceSeries} (known : s ∈ panel) (late : asOf ≤ s.lastDate) :
    ∃ r ∈ lateBars asOf panel, r.verdict = .refuse :=
  ⟨_, List.mem_filterMap.2 ⟨s, known, if_pos late⟩, rfl⟩

theorem decisionDates_refuse_iff : (∃ r ∈ (decisionDates i.kind i.symbols i.asOf i.primary i.secondary).2, r.verdict = .refuse) ↔
    (i.kind = .etfTrend ∧ (i.decided.1 = none ∨ i.decided.2 = none)) ∨
      ∃ p s, i.decided = (some p, some s) ∧ p ≠ s := by
  have apart : ∀ p s : Option Date, (∃ r ∈ mismatch p s, r.verdict = .refuse) ↔
      ∃ d d', (p, s) = (some d, some d') ∧ d ≠ d' := by
    intro p s
    cases p with
    | none => simp [mismatch]
    | some p =>
        cases s with
        | none => simp [mismatch]
        | some s =>
            by_cases same : p = s
            · simp [mismatch, same]
            · simp [mismatch, same]
  have none' : ∀ dd : Option Date, (∃ r ∈ undated dd, r.verdict = .refuse) ↔ dd = none := by
    intro dd
    cases dd with
    | none => simp [undated]
    | some dd => simp [undated]
  rw [← decided_eq]
  cases kind : i.kind with
  | etfTrend =>
      simp only [decisionDates, List.mem_append, or_and_right, exists_or, none', apart, true_and]
  | etfMomentum => simp [decisionDates, apart]
  | cryptoTrend => simp [decisionDates]

omit [ReferenceRules] in
theorem compareBar_refuse_iff {policy : Policy} {sym : String} {p s : Option PriceSeries} {entry : Date × BarPosition} :
    (∃ r ∈ (compareBar policy sym p s entry).2, r.verdict = .refuse) ↔ ¬ Agrees policy p s entry.1 entry.2 := by
  obtain ⟨date, position⟩ := entry
  simp only [compareBar, Agrees]
  cases closeAt p date with
  | none => simp
  | some a =>
      cases closeAt s date with
      | none => simp
      | some b =>
          simp only [Option.some.injEq, exists_and_left, exists_eq_left']
          split
          next beyond => simpa using beyond
          next within =>
            split
            next => simpa using within
            next => simpa using within

theorem gaps_refuse_iff {sym : String} {oldest newest : Date} {series : Option PriceSeries} :
    (∃ r ∈ gaps i.policy sym oldest newest series, r.verdict = .refuse) ↔
      ∃ s, series = some s ∧ i.Gap s oldest newest := by
  cases series with
  | none => simp [gaps]
  | some s =>
      simp only [gaps, List.mem_filterMap, Gap, Option.some.injEq, exists_eq_left']
      constructor
      · rintro ⟨r, ⟨bb, known, reason⟩, -⟩
        split at reason
        next wide => exact ⟨bb, known, wide⟩
        next => cases reason
      · rintro ⟨bb, known, wide⟩
        exact ⟨_, ⟨bb, known, if_pos wide⟩, rfl⟩

omit [ReferenceRules] in
theorem splits_refuse_iff {sym : String} {oldest newest : Date} {series other : Option PriceSeries} :
    (∃ r ∈ splits i.policy sym oldest newest series other, r.verdict = .refuse) ↔
      ∃ s, series = some s ∧ i.Split s other oldest newest := by
  cases series with
  | none => simp [splits]
  | some s =>
      simp only [splits, List.mem_filterMap, Split, Option.some.injEq, exists_eq_left']
      constructor
      · rintro ⟨r, ⟨bb, known, reason⟩, -⟩
        split at reason
        next => cases reason
        next alike =>
          split at reason
          next o o' first second =>
            split at reason
            next apart => exact ⟨bb, known, o, o', first, second, by simpa using alike, apart⟩
            next => cases reason
          next => cases reason
      · rintro ⟨bb, known, o, o', first, second, alike, apart⟩
        refine ⟨⟨.splitOneSource, .refuse, some sym, some bb.2.date⟩, ⟨bb, known, ?_⟩, rfl⟩
        simp [alike, first, second, apart]

theorem betweenBars_refuse_iff {sym : String} : (∃ r ∈ betweenBars i.kind i.policy i.asOf sym (i.primary.get sym)
      (i.secondary.get sym) (i.dates sym), r.verdict = .refuse) ↔
    ∃ oldest newest, i.span sym = some (oldest, newest) ∧
      ((i.kind ≠ .cryptoTrend ∧ ∃ s, (i.primary.get sym = some s ∨ i.secondary.get sym = some s) ∧ i.Gap s oldest newest) ∨
        ∃ s other, ((i.primary.get sym = some s ∧ other = i.secondary.get sym) ∨
          (i.secondary.get sym = some s ∧ other = i.primary.get sym)) ∧ i.Split s other oldest newest) := by
  unfold betweenBars span
  cases first : (i.dates sym).head? with
  | none => simp
  | some entry =>
      obtain ⟨oldest, position⟩ := entry
      cases last : windowTo i.asOf (i.primary.get sym) (i.secondary.get sym) with
      | none => simp
      | some newest =>
          have own : ∀ a b : Date, (some (oldest, newest) = some (a, b)) ↔ oldest = a ∧ newest = b := by simp
          simp only [Option.bind_eq_bind, Option.bind_some, own, List.mem_append, or_and_right, exists_or,
            splits_refuse_iff]
          constructor
          · rintro (gap | split)
            · split at gap
              · simp at gap
              · next notCrypto =>
                simp only [List.mem_append, or_and_right, exists_or, gaps_refuse_iff] at gap
                refine ⟨oldest, newest, ⟨rfl, rfl⟩, .inl ⟨notCrypto, ?_⟩⟩
                obtain ⟨s, held, gap⟩ | ⟨s, held, gap⟩ := gap
                · exact .inl ⟨s, held, gap⟩
                · exact .inr ⟨s, held, gap⟩
            · refine ⟨oldest, newest, ⟨rfl, rfl⟩, .inr ?_⟩
              obtain ⟨s, held, split⟩ | ⟨s, held, split⟩ := split
              · exact .inl ⟨s, _, ⟨held, rfl⟩, split⟩
              · exact .inr ⟨s, _, ⟨held, rfl⟩, split⟩
          · rintro ⟨_, _, ⟨rfl, rfl⟩, ⟨notCrypto, gap⟩ | split⟩
            · refine .inl ?_
              rw [if_neg notCrypto]
              simp only [List.mem_append, or_and_right, exists_or, gaps_refuse_iff]
              obtain ⟨s, held, gap⟩ | ⟨s, held, gap⟩ := gap
              · exact .inl ⟨s, held, gap⟩
              · exact .inr ⟨s, held, gap⟩
            · refine .inr ?_
              obtain ⟨s, other, ⟨held, rfl⟩, split⟩ | ⟨s, other, ⟨held, rfl⟩, split⟩ := split
              · exact .inl ⟨s, held, split⟩
              · exact .inr ⟨s, held, split⟩

omit [ReferenceRules] in
theorem newestSession_flags {sym : String} {p s : Option PriceSeries} {r : GateReason}
    (member : r ∈ newestSession sym p s) : r.verdict = .flag := by
  unfold newestSession at member
  split at member
  · split at member
    · rw [List.mem_singleton] at member
      rw [member]
    · simp at member
  · simp at member

/-- The gate refuses for exactly these grounds. -/
theorem refuse_iff : i.result.verdict = .refuse ↔ i.Refusal := by
  have instrument : ∀ sym, (∃ r ∈ (compareInstrument i.kind i.window i.asOf i.policy i.primary i.secondary i.decided sym).2,
      r.verdict = .refuse) ↔
      (∃ entry ∈ i.dates sym, ¬ Agrees i.policy (i.primary.get sym) (i.secondary.get sym) entry.1 entry.2) ∨
        ∃ r ∈ betweenBars i.kind i.policy i.asOf sym (i.primary.get sym) (i.secondary.get sym) (i.dates sym),
          r.verdict = .refuse := by
    intro sym
    have flags : ¬ ∃ r ∈ newestSession sym (i.primary.get sym) (i.secondary.get sym), r.verdict = .refuse := by
      rintro ⟨r, member, refuses⟩
      rw [newestSession_flags member] at refuses
      cases refuses
    have bars := fun p s entry => @compareBar_refuse_iff i.policy sym p s entry
    simp only [compareInstrument, List.mem_append, or_and_right, exists_or, flags, or_false, List.flatMap_map,
      List.mem_flatMap, ← bars]
    refine or_congr ?_ Iff.rfl
    constructor
    · rintro ⟨r, ⟨entry, known, member⟩, refuses⟩
      exact ⟨entry, known, r, member, refuses⟩
    · rintro ⟨entry, known, r, member, refuses⟩
      exact ⟨r, ⟨entry, known, member⟩, refuses⟩
  have reasons : (∃ r ∈ i.result.reasons, r.verdict = .refuse) ↔
      ((∃ r ∈ lateBars i.asOf i.primary, r.verdict = .refuse) ∨ ∃ r ∈ lateBars i.asOf i.secondary, r.verdict = .refuse) ∨
        (∃ r ∈ (decisionDates i.kind i.symbols i.asOf i.primary i.secondary).2, r.verdict = .refuse) ∨
          ∃ sym ∈ i.symbols, ∃ r ∈ (compareInstrument i.kind i.window i.asOf i.policy i.primary i.secondary i.decided sym).2,
            r.verdict = .refuse := by
    simp only [result, compareWith, decided_eq, List.mem_append, or_and_right, exists_or, or_assoc, List.flatMap_map,
      List.mem_flatMap]
    refine or_congr Iff.rfl (or_congr Iff.rfl (or_congr Iff.rfl ?_))
    constructor
    · rintro ⟨r, ⟨sym, listed, member⟩, refuses⟩
      exact ⟨sym, listed, r, member, refuses⟩
    · rintro ⟨sym, listed, r, member, refuses⟩
      exact ⟨r, ⟨sym, listed, member⟩, refuses⟩
  have verdict : i.result.verdict = worst i.result.reasons := rfl
  rw [verdict, worst_eq_refuse_iff, reasons, decisionDates_refuse_iff]
  simp only [instrument, betweenBars_refuse_iff]
  constructor
  · rintro ((⟨r, member, -⟩ | ⟨r, member, -⟩) | (⟨trend, undated⟩ | ⟨p, s, both, differ⟩) |
      ⟨sym, listed, ⟨entry, known, apart⟩ | ⟨oldest, newest, spans, ⟨notCrypto, s, held, gap⟩ | ⟨s, other, held, split⟩⟩⟩)
    · obtain ⟨s, known, late⟩ := mem_lateBars member
      exact .late s (.inl known) late
    · obtain ⟨s, known, late⟩ := mem_lateBars member
      exact .late s (.inr known) late
    · exact .undated trend undated
    · exact .mismatch p s both differ
    · exact .bar sym entry listed known apart
    · exact .gap sym s oldest newest listed notCrypto spans held gap
    · exact .split sym s other oldest newest listed spans held split
  · intro refusal
    cases refusal with
    | late s known late =>
        obtain primary | secondary := known
        · exact .inl (.inl (lateBars_refuse primary late))
        · exact .inl (.inr (lateBars_refuse secondary late))
    | undated trend undated => exact .inr (.inl (.inl ⟨trend, undated⟩))
    | mismatch p s both differ => exact .inr (.inl (.inr ⟨p, s, both, differ⟩))
    | bar sym entry listed known apart => exact .inr (.inr ⟨sym, listed, .inl ⟨entry, known, apart⟩⟩)
    | gap sym s oldest newest listed notCrypto spans held gap =>
        exact .inr (.inr ⟨sym, listed, .inr ⟨oldest, newest, spans, .inl ⟨notCrypto, s, held, gap⟩⟩⟩)
    | split sym s other oldest newest listed spans held split =>
        exact .inr (.inr ⟨sym, listed, .inr ⟨oldest, newest, spans, .inr ⟨s, other, held, split⟩⟩⟩)

/-! ## Coverage -/

/-- No decision date without all of the listed instruments. -/
def RefusesMissing : Prop :=
  ∀ (panel : Panel) (symbols : List String) (sym : String), sym ∈ symbols → panel.get sym = none →
    ReferenceRules.latestDecisionDate panel symbols = none

/-- Every listed instrument has a comparison date: a momentum sleeve compares an instrument
    only when one source holds its bar of the decision date. -/
def Reached (i : GateInput) : Prop :=
  match i.kind with
  | .etfTrend => True
  | .cryptoTrend => i.symbols = [] ∨ i.window < 2 ^ 63
  | .etfMomentum => ∀ sym ∈ i.symbols, ∃ s dd, dd ∈ s.dates ∧
      ((i.primary.get sym = some s ∧ newestBar i.symbols i.primary = some dd) ∨
        (i.secondary.get sym = some s ∧ newestBar i.symbols i.secondary = some dd))

omit [ReferenceRules] in
theorem agrees_held {policy : Policy} {p s : Option PriceSeries} {date : Date} {position : BarPosition}
    (agrees : Agrees policy p s date position) :
    ∃ p' s', p = some p' ∧ s = some s' ∧ date ∈ p'.dates ∧ date ∈ s'.dates := by
  obtain ⟨a, b, first, second, -⟩ := agrees
  cases p with
  | none => cases first
  | some p =>
      cases s with
      | none => cases second
      | some s =>
          refine ⟨p, s, rfl, rfl, closeAt_isSome_iff.1 ?_, closeAt_isSome_iff.1 ?_⟩
          · rw [first, Option.isSome_some]
          · rw [second, Option.isSome_some]

theorem agrees_of_calm (calm : ¬ i.Refusal) {sym : String} (listed : sym ∈ i.symbols) {entry : Date × BarPosition}
    (known : entry ∈ i.dates sym) : Agrees i.policy (i.primary.get sym) (i.secondary.get sym) entry.1 entry.2 := by
  by_contra apart
  exact calm (.bar sym entry listed known apart)

theorem early_of_calm (calm : ¬ i.Refusal) (s : PriceSeries) (known : s ∈ i.primary ∨ s ∈ i.secondary) :
    ∀ b ∈ s.bars, b.date < i.asOf := by
  intro b member
  by_contra late
  exact calm (.late s known ((not_lt.1 late).trans (s.le_lastDate member)))

theorem trend_covers (missing : RefusesMissing) (kind : i.kind = .etfTrend) (calm : ¬ i.Refusal) {sym : String}
    (listed : sym ∈ i.symbols) : i.CoversSymbol sym := by
  have dated : ∃ dd, i.decided = (some dd, some dd) := by
    cases first : i.decided.1 with
    | none => exact absurd (.undated kind (.inl first)) calm
    | some p =>
        cases second : i.decided.2 with
        | none => exact absurd (.undated kind (.inr second)) calm
        | some s =>
            have both : i.decided = (some p, some s) := Prod.ext first second
            by_cases same : p = s
            · exact ⟨p, by rw [both, same]⟩
            · exact absurd (.mismatch p s both same) calm
  obtain ⟨dd, dated⟩ := dated
  have rules : i.decided = (ReferenceRules.latestDecisionDate i.primary i.symbols,
      ReferenceRules.latestDecisionDate i.secondary i.symbols) := by
    simp only [decided, decisionDateOf, kind]
  obtain ⟨first, second⟩ := Prod.mk.inj (rules.symm.trans dated)
  cases held : i.primary.get sym with
  | none =>
      rw [missing _ _ sym listed held] at first
      cases first
  | some p =>
      cases held' : i.secondary.get sym with
      | none =>
          rw [missing _ _ sym listed held'] at second
          cases second
      | some s =>
          refine ⟨dd, p, s, dated, held, held', ?_⟩
          intro series side d position reads
          have compared : (d, position) ∈ i.dates sym := by
            cases reads with
            | monthEnd _ _ member =>
                simp only [dates, comparisonDates, kind, List.mem_map, mem_unite, dated, held, held']
                refine ⟨d, ?_, rfl⟩
                obtain rfl | rfl := side
                · exact .inl member
                · exact .inr member
            | decision momentum => rw [kind] at momentum; cases momentum
            | earlier _ _ momentum => rw [kind] at momentum; cases momentum
            | day _ crypto => rw [kind] at crypto; cases crypto
          have agrees := agrees_of_calm calm listed compared
          rwa [held, held'] at agrees

omit [ReferenceRules] in
theorem mem_momentumPair {window : Nat} {s : PriceSeries} {dd d : Date} (held : dd ∈ s.dates)
    (read : d = dd ∨ ∃ n, s.dates[n + window]? = some dd ∧ s.dates[n]? = some d) :
    d ∈ momentumPair window (some s) (some dd) := by
  have ascending : s.dates.Nodup := by
    rw [PriceSeries.dates, List.Nodup, List.pairwise_map]
    exact s.ascending.imp fun less => less.ne
  cases found : s.positionOf dd with
  | none =>
      rw [PriceSeries.positionOf, List.idxOf?_eq_none_iff] at found
      exact absurd held found
  | some pos =>
      simp only [momentumPair, found]
      obtain rfl | ⟨n, there, here⟩ := read
      · split
        · simp
        · simp
      · have index : pos = n + window := by
          obtain ⟨below, at', -⟩ := List.idxOf?_eq_some_iff.1 found
          obtain ⟨below', at''⟩ := List.getElem?_eq_some_iff.1 there
          exact (List.Nodup.getElem_inj_iff ascending).1 (at'.trans at''.symm)
        subst index
        simp [here]

omit [ReferenceRules] in
private theorem newestBar_some {symbols : List String} {panel : Panel} {sym : String} {s : PriceSeries}
    (listed : sym ∈ symbols) (held : panel.get sym = some s) : ∃ d, newestBar symbols panel = some d := by
  have known : s.lastDate ∈ (symbols.filterMap panel.get).map PriceSeries.lastDate :=
    List.mem_map.2 ⟨s, List.mem_filterMap.2 ⟨sym, listed, held⟩, rfl⟩
  rw [← Option.isSome_iff_exists, newestBar, List.isSome_max?_iff]
  exact List.ne_nil_of_mem known

theorem momentum_covers (kind : i.kind = .etfMomentum) (reached : i.Reached) (calm : ¬ i.Refusal) {sym : String}
    (listed : sym ∈ i.symbols) : i.CoversSymbol sym := by
  rw [Reached, kind] at reached
  obtain ⟨series, dd, inside, found⟩ := reached sym listed
  have rules : i.decided = (newestBar i.symbols i.primary, newestBar i.symbols i.secondary) := by
    simp only [decided, decisionDateOf, kind]
  -- the bar of the decision date is compared, so both sources hold the instrument
  have compared : ∀ d, (d, BarPosition.dailyClose) ∈ i.dates sym ↔
      d ∈ momentumPair i.window (i.primary.get sym) i.decided.1 ∨
        d ∈ momentumPair i.window (i.secondary.get sym) i.decided.2 := by
    intro d
    simp [dates, comparisonDates, kind, mem_unite]
  have decision : (dd, BarPosition.dailyClose) ∈ i.dates sym := by
    rw [compared, rules]
    obtain ⟨held, date⟩ | ⟨held, date⟩ := found
    · rw [held, date]
      exact .inl (mem_momentumPair inside (.inl rfl))
    · rw [held, date]
      exact .inr (mem_momentumPair inside (.inl rfl))
  obtain ⟨p, s, held, held', inP, inS⟩ := agrees_held (agrees_of_calm calm listed decision)
  obtain ⟨first, newest⟩ := newestBar_some listed held
  obtain ⟨second, newest'⟩ := newestBar_some listed held'
  rw [newest, newest'] at rules found
  have both : first = second := by
    by_contra differ
    exact calm (.mismatch first second rules differ)
  subst both
  have date : dd = first := by
    obtain ⟨-, date⟩ | ⟨-, date⟩ := found
    · exact (Option.some.inj date).symm
    · exact (Option.some.inj date).symm
  subst date
  refine ⟨dd, p, s, rules, held, held', ?_⟩
  intro series' side d position reads
  have pair : position = .dailyClose ∧ (d = dd ∨
      ∃ n, series'.dates[n + i.window]? = some dd ∧ series'.dates[n]? = some d) := by
    cases reads with
    | monthEnd _ trend => rw [kind] at trend; cases trend
    | decision => exact ⟨rfl, .inl rfl⟩
    | earlier n _ _ there here => exact ⟨rfl, .inr ⟨n, there, here⟩⟩
    | day _ crypto => rw [kind] at crypto; cases crypto
  obtain ⟨rfl, read⟩ := pair
  have known : (d, BarPosition.dailyClose) ∈ i.dates sym := by
    rw [compared, rules, held, held']
    obtain rfl | rfl := side
    · exact .inl (mem_momentumPair inP read)
    · exact .inr (mem_momentumPair inS read)
  have agrees := agrees_of_calm calm listed known
  rwa [held, held'] at agrees

theorem crypto_covers (some' : 1 ≤ i.window) (kind : i.kind = .cryptoTrend) (reached : i.Reached) (calm : ¬ i.Refusal)
    {sym : String} (listed : sym ∈ i.symbols) : i.CoversSymbol sym := by
  rw [Reached, kind] at reached
  have small : i.window < 2 ^ 63 := by
    obtain none | small := reached
    · rw [none] at listed
      simp at listed
    · exact small
  have rules : i.decided = (some (i.asOf - 1), some (i.asOf - 1)) := by
    simp only [decided, decisionDateOf, kind]
  have compared : ∀ k : Nat, 1 ≤ k → k ≤ i.window →
      (i.asOf - k, if k = 1 then BarPosition.decisionDay else .window) ∈ i.dates sym := by
    intro k low high
    simp only [dates, comparisonDates, kind, List.mem_map, List.mem_reverse, List.mem_range, asI64, if_pos small]
    have day : ∀ a : Int, a - ((k - 1 : Nat) + 1 : Int) = a - k := by omega
    have newest : ∀ a : Int, a - k = a - 1 ↔ k = 1 := by omega
    refine ⟨i.asOf - k, ⟨k - 1, ?_, day i.asOf⟩, ?_⟩
    · rw [Int.toNat_natCast]
      omega
    · simp only [newest i.asOf]
  obtain ⟨p, s, held, held', -, -⟩ := agrees_held (agrees_of_calm calm listed (compared 1 (by omega) some'))
  refine ⟨i.asOf - 1, p, s, rules, held, held', ?_⟩
  intro series side d position reads
  have known : (d, position) ∈ i.dates sym := by
    cases reads with
    | monthEnd _ trend => rw [kind] at trend; cases trend
    | decision momentum => rw [kind] at momentum; cases momentum
    | earlier _ _ momentum => rw [kind] at momentum; cases momentum
    | day k _ low high => exact compared k low high
  have agrees := agrees_of_calm calm listed known
  rwa [held, held'] at agrees

omit [ReferenceRules] in
private theorem window_le_length {n : Nat} {asOf : Date} {s : PriceSeries} (held : ∀ k : Nat, 1 ≤ k → k ≤ n → asOf - k ∈ s.dates) :
    n ≤ s.bars.length := by
  have nodup : ((List.range n).map fun k : Nat => asOf - ((k + 1 : Nat) : Int)).Nodup := by
    refine List.Nodup.map_on ?_ List.nodup_range
    intro a _ b _ same
    have apart : ∀ d : Int, d - ((a + 1 : Nat) : Int) = d - ((b + 1 : Nat) : Int) → a = b := by omega
    exact apart asOf same
  have inside : ((List.range n).map fun k : Nat => asOf - ((k + 1 : Nat) : Int)) ⊆ s.dates := by
    intro d member
    obtain ⟨k, below, rfl⟩ := List.mem_map.1 member
    rw [List.mem_range] at below
    exact held (k + 1) (by omega) (by omega)
  have shorter := (List.subperm_of_subset nodup inside).length_le
  simpa [PriceSeries.dates] using shorter

theorem reached_of_covered (covered : i.Covered) : i.Reached := by
  unfold Reached
  split
  next => trivial
  next kind =>
    cases symbols : i.symbols with
    | nil => exact .inl rfl
    | cons sym syms =>
        refine .inr ?_
        obtain ⟨dd, p, s, -, -, -, reads⟩ := covered.each sym (by simp [symbols])
        have length : i.window ≤ p.bars.length := by
          refine window_le_length fun k low high => show i.asOf - k ∈ p.dates from ?_
          obtain ⟨p', s', same, -, inside, -⟩ := agrees_held (reads p (.inl rfl) _ _ (.day k kind low high))
          rw [Option.some.inj same]
          exact inside
        exact length.trans_lt p.short
  next kind =>
    intro sym listed
    obtain ⟨dd, p, s, dated, held, -, reads⟩ := covered.each sym listed
    obtain ⟨p', s', same, -, inside, -⟩ := agrees_held (reads p (.inl rfl) _ _ (.decision kind))
    rw [← Option.some.inj same] at inside
    simp only [decided, decisionDateOf, kind] at dated
    exact ⟨p, dd, inside, .inl ⟨held, (Prod.mk.inj dated).1⟩⟩

/-- The gate passes only what it has compared, for the sleeves whose every instrument has a
    comparison date and where another ground refuses. -/
theorem passes_compared_iff (i : GateInput) (missing : RefusesMissing) (some' : 1 ≤ i.window) :
    (i.result.verdict ≠ .refuse → i.Covered) ↔ i.Reached ∨ i.Refusal := by
  rw [Ne, refuse_iff]
  constructor
  · intro covers
    by_cases calm : i.Refusal
    · exact .inr calm
    · exact .inl (reached_of_covered (covers calm))
  · rintro (reached | refusal) calm
    · refine ⟨early_of_calm calm, fun sym listed => ?_⟩
      cases kind : i.kind with
      | etfTrend => exact trend_covers missing kind calm listed
      | cryptoTrend => exact crypto_covers some' kind reached calm listed
      | etfMomentum => exact momentum_covers kind reached calm listed
    · exact absurd refusal calm

end GateInput

namespace TwoFunds

open GateInput

/-- The rules library on three days of one week: no month is complete, no weekday is missing. -/
@[reducible] def threeDayRules : ReferenceRules where
  completedMonthEndDates _ := []
  latestDecisionDate _ _ := none
  missingWeekdaysBetween _ _ := 0

attribute [local instance] threeDayRules

def spy : PriceSeries where
  symbol := "SPY"
  bars := [⟨97, 498⟩, ⟨98, 502⟩, ⟨99, 500⟩]
  nonempty := by simp
  ascending := by decide
  positive := by decide +kernel
  short := by simp

def efa : PriceSeries where
  symbol := "EFA"
  bars := [⟨97, 71⟩, ⟨98, 70⟩, ⟨99, 72⟩]
  nonempty := by simp
  ascending := by decide
  positive := by decide +kernel
  short := by simp

/-- A momentum sleeve over two funds, decided from the closes two bars apart. -/
def momentumOver (panel : Panel) : GateInput where
  kind := .etfMomentum
  symbols := ["SPY", "EFA"]
  window := 2
  asOf := 100
  primary := panel
  secondary := panel
  policy := .r19

/-- Both funds are compared at the decision date and two bars before it. -/
theorem two_funds_compared :
    (momentumOver [spy, efa]).result.verdict = .pass ∧ (momentumOver [spy, efa]).Covered := by
  have passes : (momentumOver [spy, efa]).result.verdict = .pass := by decide +kernel
  have missing : RefusesMissing := fun _ _ _ _ _ => rfl
  refine ⟨passes, (passes_compared_iff (momentumOver [spy, efa]) missing (by decide)).2 (.inl ?_) ?_⟩
  · intro sym listed
    rcases List.mem_pair.1 listed with rfl | rfl
    · exact ⟨spy, 99, by decide, .inl ⟨rfl, by decide +kernel⟩⟩
    · exact ⟨efa, 99, by decide, .inl ⟨rfl, by decide +kernel⟩⟩
  · rw [passes]
    simp

/-- A fund neither source holds is compared nowhere, and the gate passes. -/
theorem missing_fund_passes : ¬ ((momentumOver [spy]).result.verdict ≠ .refuse → (momentumOver [spy]).Covered) := by
  intro covers
  obtain ⟨dd, p, s, -, held, -⟩ := (covers (by decide +kernel)).each "EFA" (by decide)
  have absent : (momentumOver [spy]).primary.get "EFA" = none := by decide +kernel
  rw [absent] at held
  cases held

end TwoFunds

end MarketData
