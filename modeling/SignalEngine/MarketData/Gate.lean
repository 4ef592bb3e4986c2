import Mathlib.Data.Rat.Floor
import Std.Data.ExtTreeSet

/-! # Data gate

Two price panels for one sleeve are compared before its rule runs. Every check
looks at both panels and leaves its reasons; the worst reason is the verdict.
Closes are positive rationals.
-/

namespace MarketData

/-- Days of the calendar, counted from some day. -/
abbrev Date := Int

/-! ## Panels -/

structure Bar where
  date : Date
  close : ℚ
  deriving DecidableEq

/-- The daily closes of one instrument, oldest first. -/
structure PriceSeries where
  symbol : String
  bars : List Bar
  nonempty : bars ≠ []
  ascending : bars.Pairwise fun b b' => b.date < b'.date
  positive : ∀ b ∈ bars, 0 < b.close
  /-- The size of a vector is a signed machine word. -/
  short : bars.length < 2 ^ 63

namespace PriceSeries

def dates (s : PriceSeries) : List Date := s.bars.map Bar.date

def lastDate (s : PriceSeries) : Date := (s.bars.getLast s.nonempty).date

def positionOf (s : PriceSeries) (date : Date) : Option Nat := s.dates.idxOf? date

end PriceSeries

abbrev Panel := List PriceSeries

def Panel.get (panel : Panel) (symbol : String) : Option PriceSeries :=
  panel.find? fun s => s.symbol == symbol

inductive SleeveKind where
  | etfTrend
  | cryptoTrend
  | etfMomentum
  deriving Repr, DecidableEq

/-- What the rules library computes. -/
class ReferenceRules where
  completedMonthEndDates : PriceSeries → List Date
  /-- Fails when no decision date can be computed. -/
  latestDecisionDate : Panel → List String → Option Date
  missingWeekdaysBetween : Date → Date → Nat

/-! ## Policy -/

structure Tolerance where
  flagBps : ℚ
  refuseBps : ℚ
  deriving DecidableEq

structure Policy where
  /-- The month-end closes the rule reads. -/
  etfMonthEnd : Tolerance
  /-- Yesterday's close. -/
  cryptoDecisionDay : Tolerance
  /-- The other closes of the average. -/
  cryptoWindow : Tolerance
  etfMaxMissingWeekdays : Nat
  splitRatioTolerance : ℚ
  deriving DecidableEq

def Policy.r19 : Policy where
  etfMonthEnd := ⟨25, 50⟩
  cryptoDecisionDay := ⟨50, 150⟩
  cryptoWindow := ⟨100, 500⟩
  etfMaxMissingWeekdays := 3
  splitRatioTolerance := 1 / 100

inductive BarPosition where
  | monthEnd
  | decisionDay
  | window
  | dailyClose
  deriving Repr, DecidableEq

def Policy.tolerance (policy : Policy) : BarPosition → Tolerance
  | .monthEnd | .dailyClose => policy.etfMonthEnd
  | .decisionDay => policy.cryptoDecisionDay
  | .window => policy.cryptoWindow

/-- The nearest integer; halves go away from zero. -/
def roundAway (x : ℚ) : Int := if 0 ≤ x then ⌊x + 1 / 2⌋ else -⌊-x + 1 / 2⌋

/-- The difference over the smaller close, in basis points, rounded to the sixth decimal. -/
def diffBps (a b : ℚ) : ℚ :=
  let d := |a - b| / min a b * 10000
  roundAway (d * 10 ^ 6) / 10 ^ 6

/-! ## Reasons -/

inductive GateVerdict where
  | pass
  | flag
  | refuse
  deriving Repr, DecidableEq

def GateVerdict.rank : GateVerdict → Nat
  | pass => 0
  | flag => 1
  | refuse => 2

inductive GateCode where
  | barAtOrAfterAsOf
  | dateMismatch
  | missingBar
  | l1OverTolerance
  | l1OverFlag
  | gap
  | splitOneSource
  | newestSessionDiffers
  deriving Repr, DecidableEq

def GateCode.asStr : GateCode → String
  | barAtOrAfterAsOf => "REFUSE_BAR_AT_OR_AFTER_AS_OF"
  | dateMismatch => "REFUSE_DATE_MISMATCH"
  | missingBar => "REFUSE_MISSING_BAR"
  | l1OverTolerance => "REFUSE_L1_OVER_TOLERANCE"
  | l1OverFlag => "FLAG_L1_OVER_FLAG"
  | gap => "REFUSE_GAP"
  | splitOneSource => "REFUSE_SPLIT_ONE_SOURCE"
  | newestSessionDiffers => "FLAG_NEWEST_SESSION_DIFFERS"

structure GateReason where
  code : GateCode
  verdict : GateVerdict
  symbol : Option String
  date : Option Date
  deriving DecidableEq

structure GateComparison where
  symbol : String
  date : Date
  position : BarPosition
  primaryClose : Option ℚ
  secondaryClose : Option ℚ
  diffBps : Option ℚ
  verdict : GateVerdict
  deriving DecidableEq

structure GateInstrument where
  symbol : String
  verdict : GateVerdict
  maxDiffBps : Option ℚ
  comparisons : List GateComparison
  deriving DecidableEq

structure Comparison where
  verdict : GateVerdict
  reasons : List GateReason
  instruments : List GateInstrument
  primaryDecisionDate : Option Date
  secondaryDecisionDate : Option Date
  deriving DecidableEq

def worse (a b : GateVerdict) : GateVerdict := if a.rank ≤ b.rank then b else a

def worst (reasons : List GateReason) : GateVerdict :=
  (reasons.map GateReason.verdict).foldl worse .pass

/-! ## Comparison dates -/

def closeAt (s : Option PriceSeries) (date : Date) : Option ℚ := do
  let s ← s
  let bar ← s.bars.find? fun b => b.date == date
  some bar.close

def asI64 (n : Nat) : Int := if n < 2 ^ 63 then n else n - 2 ^ 64

def monthEnds [ReferenceRules] (window : Nat) (s : Option PriceSeries) (dd : Option Date) : List Date :=
  match s with
  | none => []
  | some series =>
      let ends := ReferenceRules.completedMonthEndDates series
      let ends :=
        match dd with
        | none => ends
        | some dd => ends.filter (· ≤ dd)
      ends.drop (ends.length - window)

/-- The two closes a momentum rule reads of one source. -/
def momentumPair (window : Nat) (s : Option PriceSeries) (dd : Option Date) : List Date :=
  match s, dd with
  | some series, some dd =>
      match series.positionOf dd with
      | none => []
      | some pos => if window ≤ pos then [dd] ++ (series.dates[pos - window]?).toList else [dd]
  | _, _ => []

/-- The dates of both sources, without repetition, oldest first. -/
def unite (p s : List Date) : List Date :=
  ((Std.ExtTreeSet.ofList p : Std.ExtTreeSet Date).insertMany s).toList

def comparisonDates [ReferenceRules] (kind : SleeveKind) (window : Nat) (asOf : Date)
    (p s : Option PriceSeries) (pDd sDd : Option Date) : List (Date × BarPosition) :=
  match kind with
  | .etfTrend => (unite (monthEnds window p pDd) (monthEnds window s sDd)).map fun d => (d, .monthEnd)
  | .etfMomentum =>
      (unite (momentumPair window p pDd) (momentumPair window s sDd)).map fun d => (d, .dailyClose)
  | .cryptoTrend =>
      ((List.range (asI64 window).toNat).reverse.map fun (i : Nat) => asOf - (i + 1 : Int)).map fun d =>
        (d, if d = asOf - 1 then .decisionDay else .window)

/-! ## Checks -/

def lateBars (asOf : Date) (panel : Panel) : List GateReason :=
  panel.filterMap fun s =>
    if asOf ≤ s.lastDate then some ⟨.barAtOrAfterAsOf, .refuse, some s.symbol, some s.lastDate⟩ else none

def mismatch (p s : Option Date) : List GateReason :=
  match p, s with
  | some p, some s => if p ≠ s then [⟨.dateMismatch, .refuse, none, some (max p s)⟩] else []
  | _, _ => []

/-- A source for which no decision date can be computed. -/
def undated (dd : Option Date) : List GateReason :=
  match dd with
  | none => [⟨.dateMismatch, .refuse, none, none⟩]
  | some _ => []

/-- The newest bar of the instruments of a sleeve. -/
def newestBar (symbols : List String) (panel : Panel) : Option Date :=
  ((symbols.filterMap panel.get).map PriceSeries.lastDate).max?

/-- The decision dates, and what is wrong with them. -/
def decisionDates [ReferenceRules] (kind : SleeveKind) (symbols : List String) (asOf : Date)
    (primary secondary : Panel) : (Option Date × Option Date) × List GateReason :=
  match kind with
  | .etfTrend =>
      let p := ReferenceRules.latestDecisionDate primary symbols
      let s := ReferenceRules.latestDecisionDate secondary symbols
      ((p, s), undated p ++ undated s ++ mismatch p s)
  | .etfMomentum =>
      let p := newestBar symbols primary
      let s := newestBar symbols secondary
      ((p, s), mismatch p s)
  | .cryptoTrend => ((some (asOf - 1), some (asOf - 1)), [])

def compareBar (policy : Policy) (sym : String) (p s : Option PriceSeries) (entry : Date × BarPosition) :
    GateComparison × List GateReason :=
  let (date, position) := entry
  let pc := closeAt p date
  let sc := closeAt s date
  match pc, sc with
  | some a, some b =>
      let d := diffBps a b
      let tol := policy.tolerance position
      if tol.refuseBps < d then
        (⟨sym, date, position, pc, sc, some d, .refuse⟩, [⟨.l1OverTolerance, .refuse, some sym, some date⟩])
      else if tol.flagBps < d then
        (⟨sym, date, position, pc, sc, some d, .flag⟩, [⟨.l1OverFlag, .flag, some sym, some date⟩])
      else (⟨sym, date, position, pc, sc, some d, .pass⟩, [])
  | _, _ => (⟨sym, date, position, pc, sc, none, .refuse⟩, [⟨.missingBar, .refuse, some sym, some date⟩])

def consecutiveIn (s : PriceSeries) (oldest newest : Date) : List (Bar × Bar) :=
  (s.bars.zip s.bars.tail).filter fun (b, b') => oldest ≤ b.date ∧ b'.date ≤ newest

/-- Bars of one source with too many weekdays between them. -/
def gaps [ReferenceRules] (policy : Policy) (sym : String) (oldest newest : Date) (series : Option PriceSeries) :
    List GateReason :=
  match series with
  | none => []
  | some series =>
      (consecutiveIn series oldest newest).filterMap fun (b, b') =>
        if policy.etfMaxMissingWeekdays < ReferenceRules.missingWeekdaysBetween b.date b'.date then
          some ⟨.gap, .refuse, some sym, some b'.date⟩
        else none

/-- Near an integer from two on, or near the reciprocal of one. -/
def looksLikeSplit (r tol : ℚ) : Bool :=
  if r ≤ 0 then false
  else (List.range 49).any fun i =>
    decide (|r / (i + 2) - 1| ≤ tol) || decide (|r * (i + 2) - 1| ≤ tol)

/-- Moves of one source that look like a split and that the other source does not make. -/
def splits (policy : Policy) (sym : String) (oldest newest : Date) (series other : Option PriceSeries) :
    List GateReason :=
  match series with
  | none => []
  | some series =>
      (consecutiveIn series oldest newest).filterMap fun (b, b') =>
        let r := b'.close / b.close
        if !looksLikeSplit r policy.splitRatioTolerance then none
        else
          match closeAt other b.date, closeAt other b'.date with
          | some o, some o' =>
              if policy.splitRatioTolerance < |o' / o / r - 1| then
                some ⟨.splitOneSource, .refuse, some sym, some b'.date⟩
              else none
          | _, _ => none

/-- The newest bar either source has, before the run date. -/
def windowTo (asOf : Date) (p s : Option PriceSeries) : Option Date :=
  (((p.toList ++ s.toList).map PriceSeries.lastDate).max?).map fun d => min d (asOf - 1)

/-- The checks between consecutive bars, from the oldest comparison date on. -/
def betweenBars [ReferenceRules] (kind : SleeveKind) (policy : Policy) (asOf : Date) (sym : String)
    (p s : Option PriceSeries) (dates : List (Date × BarPosition)) : List GateReason :=
  match dates.head?, windowTo asOf p s with
  | some (oldest, _), some newest =>
      (if kind = .cryptoTrend then [] else gaps policy sym oldest newest p ++ gaps policy sym oldest newest s) ++
        (splits policy sym oldest newest p s ++ splits policy sym oldest newest s p)
  | _, _ => []

def newestSession (sym : String) (p s : Option PriceSeries) : List GateReason :=
  match p, s with
  | some p, some s =>
      if p.lastDate ≠ s.lastDate then
        [⟨.newestSessionDiffers, .flag, some sym, some (max p.lastDate s.lastDate)⟩]
      else []
  | _, _ => []

def maxDiff (comparisons : List GateComparison) : Option ℚ :=
  (comparisons.filterMap GateComparison.diffBps).max?

def compareInstrument [ReferenceRules] (kind : SleeveKind) (window : Nat) (asOf : Date) (policy : Policy)
    (primary secondary : Panel) (dds : Option Date × Option Date) (sym : String) :
    GateInstrument × List GateReason :=
  let p := primary.get sym
  let s := secondary.get sym
  let dates := comparisonDates kind window asOf p s dds.1 dds.2
  let bars := dates.map (compareBar policy sym p s)
  let comparisons := bars.map Prod.fst
  let mine := bars.flatMap Prod.snd ++ betweenBars kind policy asOf sym p s dates ++ newestSession sym p s
  (⟨sym, worst mine, maxDiff comparisons, comparisons⟩, mine)

/-- Compare two panels for the instruments of a sleeve. -/
def compareWith [ReferenceRules] (kind : SleeveKind) (symbols : List String) (window : Nat) (asOf : Date)
    (primary secondary : Panel) (policy : Policy) : Comparison :=
  let dates := decisionDates kind symbols asOf primary secondary
  let each := symbols.map (compareInstrument kind window asOf policy primary secondary dates.1)
  let reasons := lateBars asOf primary ++ lateBars asOf secondary ++ dates.2 ++ each.flatMap Prod.snd
  ⟨worst reasons, reasons, each.map Prod.fst, dates.1.1, dates.1.2⟩

end MarketData
