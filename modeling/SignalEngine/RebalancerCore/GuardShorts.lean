import SignalEngine.RebalancerCore.GuardVerdict
import Mathlib.Algebra.Order.Ring.Int
import Mathlib.Algebra.BigOperators.Group.List.Basic

/-! # Shorts and reductions the guard allows

An allowed sell below zero has the leave of the mandate and of the venue, and what
is allowed in a halt or after the review date only takes a position back.
-/

open BrokerAdapters Outcome Text Report

namespace RebalancerCore

/-- What the account holds of an instrument, under any spelling of its symbol. -/
def AccountView.quantityOf (account : AccountView) (symbol : String) : Int :=
  ((account.positions.filter fun p => eqIgnoreAsciiCase p.symbol (trimmed symbol)).map fun p => p.quantity.atto).sum

/-- No instrument is listed twice. -/
def AccountView.DistinctSymbols (account : AccountView) : Prop :=
  account.positions.Pairwise fun p q => eqIgnoreAsciiCase p.symbol q.symbol = false

instance (account : AccountView) : Decidable account.DistinctSymbols :=
  inferInstanceAs (Decidable (List.Pairwise _ _))

def ProposedOrder.change (order : ProposedOrder) : Int :=
  match order.side with
  | .buy => order.quantity.atto
  | .sell => -order.quantity.atto

theorem heldQuantity_eq {account : AccountView} {symbol : String} (distinct : account.DistinctSymbols)
    (plain : trimmed symbol = symbol) : (account.heldQuantity symbol).atto = account.quantityOf symbol := by
  unfold AccountView.heldQuantity AccountView.position AccountView.quantityOf
  unfold AccountView.DistinctSymbols at distinct
  rw [plain]
  generalize account.positions = positions at distinct ⊢
  induction positions with
  | nil => simp
  | cons p ps ih =>
      obtain ⟨apart, distinct'⟩ := List.pairwise_cons.1 distinct
      cases own : eqIgnoreAsciiCase p.symbol symbol with
      | true =>
          have others : ps.filter (fun q => eqIgnoreAsciiCase q.symbol symbol) = [] := by
            refine List.filter_eq_nil_iff.2 fun q member same => ?_
            have same' := eqIgnoreAsciiCase_trans own (eqIgnoreAsciiCase_symm same)
            rw [apart q member] at same'
            cases same'
          simp [own, others]
      | false => simpa [own] using ih distinct'

namespace Guard

theorem isReducing_true {held quantity : Dec} {side : Side} (h : isReducing held side quantity = .ok true) :
    (side = .sell ∧ 0 < held.atto ∧ quantity.atto ≤ held.atto) ∨
      (side = .buy ∧ held.atto < 0 ∧ quantity.atto ≤ -held.atto) := by
  cases side with
  | sell =>
      have both : (held.isPositive && decide (quantity ≤ held)) = true := Except.ok.inj h
      rw [Bool.and_eq_true, Dec.isPositive_iff, decide_eq_true_eq, Dec.le_iff] at both
      exact .inl ⟨rfl, both⟩
  | buy =>
      unfold isReducing at h
      dsimp only at h
      split at h
      next negative =>
        obtain ⟨short, negated, small⟩ := bind_eq_ok.1 h
        have small : decide (quantity ≤ short) = true := Except.ok.inj small
        rw [decide_eq_true_eq, Dec.le_iff, DecMath.neg_ok negated] at small
        exact .inr ⟨rfl, Dec.isNegative_iff.1 negative, small⟩
      next => cases h

variable [UnicodeCase]

theorem checkShorting_clean {limits : Limits} {held : Dec} {order : ProposedOrder} {context : Option SignedContext}
    {rule : Option InstrumentVenueRule} (clean : (checkShorting limits held order context rule).Clean ())
    (sell : order.side = .sell) (opens : max held.atto 0 < order.quantity.atto) :
    limits.shorting = true ∧ ∀ c ∈ context, venueShortBlock c.instruments rule order = none := by
  have opensShort : (decide (order.side = .sell) &&
      decide ((if held.isPositive then held else Dec.zero) < order.quantity)) = true := by
    rw [Bool.and_eq_true, decide_eq_true_eq, decide_eq_true_eq, Dec.lt_iff]
    refine ⟨sell, ?_⟩
    split
    next => omega
    next => rw [Dec.atto_zero]; omega
  unfold checkShorting at clean
  simp only [denyIf_clean, opensShort, Bool.true_and, Bool.or_eq_false_iff, Bool.not_eq_false'] at clean
  refine ⟨clean.1, fun c member => ?_⟩
  rw [Option.mem_def] at member
  subst member
  simpa using clean.2

theorem venueShortBlock_none {instruments : InstrumentRules} {rule : Option InstrumentVenueRule}
    {order : ProposedOrder} (free : venueShortBlock instruments rule order = none) :
    ∃ r, rule = some r ∧ (r.short = .allowed ∨
      r.short = .needsLocate ∧ instruments.hasLocate order.venue order.symbol = true) := by
  unfold venueShortBlock at free
  split at free
  next => cases free
  next r =>
    refine ⟨r, rfl, ?_⟩
    split at free
    next short => exact .inl short
    next => cases free
    next short =>
      split at free
      next located => exact .inr ⟨short, located⟩
      next => cases free

end Guard

namespace PreTradeGuard

/-- The order takes a position back, to zero at most. -/
structure TakesBack (held change : Int) : Prop where
  smaller : |held + change| < |held|
  sameSide : 0 ≤ held * (held + change)

section Allowed

variable [UnicodeCase] [InstantText]

theorem short_allowed {policy : Policy} {account : AccountView} {order : ProposedOrder} {day : DayCounters}
    {context : Option SignedContext} (allowed : (run policy account order day context).allow = true)
    (distinct : account.DistinctSymbols) (plain : trimmed order.symbol = order.symbol) (sell : order.side = .sell)
    (short : account.quantityOf order.symbol + order.change < 0) :
    ∃ limits, policy.limits = some limits ∧ limits.shorting = true ∧
      ∀ c ∈ context, ∃ rule, c.instruments.rule order.venue order.symbol = some rule ∧
        (rule.short = .allowed ∨
          rule.short = .needsLocate ∧ c.instruments.hasLocate order.venue order.symbol = true) := by
  obtain ⟨limits, expired, body, -, readable, reducing, onMargin, price, notional, after, passed⟩ :=
    Guard.run_allow_iff.1 allowed
  have positive := readable.quantity
  have held := heldQuantity_eq distinct plain
  have opens : max (account.heldQuantity order.symbol).atto 0 < order.quantity.atto := by
    rw [ProposedOrder.change, sell] at short
    dsimp only at short
    omega
  obtain ⟨shorting, free⟩ := Guard.checkShorting_clean passed.shorting sell opens
  refine ⟨limits, by rw [Policy.limits, body], shorting, fun c member => ?_⟩
  obtain ⟨rule, known, leave⟩ := Guard.venueShortBlock_none (free c member)
  rw [Option.mem_def.1 member] at known
  exact ⟨rule, known, leave⟩

theorem allowed_takesBack {policy : Policy} {account : AccountView} {order : ProposedOrder} {day : DayCounters}
    {context : Option SignedContext} (allowed : (run policy account order day context).allow = true)
    (distinct : account.DistinctSymbols) (plain : trimmed order.symbol = order.symbol)
    (stopped : account.halted = true ∨ policy.standing account.now = .expired) :
    TakesBack (account.quantityOf order.symbol) order.change := by
  obtain ⟨limits, expired, -, standing, readable, reducing, onMargin, price, notional, after, passed⟩ :=
    Guard.run_allow_iff.1 allowed
  have positive := readable.quantity
  have reduces : reducing = true := by
    by_contra not
    obtain ⟨running, current⟩ := passed.state (by simpa using not)
    rcases stopped with halted | late
    · rw [running] at halted
      cases halted
    · rw [standing, current] at late
      cases late
  have moved := Guard.isReducing_true (reduces ▸ passed.reducing_eq)
  rw [heldQuantity_eq distinct plain] at moved
  unfold ProposedOrder.change
  rcases moved with ⟨sell, long, small⟩ | ⟨buy, short, small⟩
  · rw [sell]
    dsimp only
    constructor
    · rw [abs_of_nonneg (by omega), abs_of_pos long]
      omega
    · exact mul_nonneg long.le (by omega)
  · rw [buy]
    dsimp only
    constructor
    · rw [abs_of_nonpos (by omega), abs_of_neg short]
      omega
    · exact mul_nonneg_of_nonpos_of_nonpos short.le (by omega)

/-- The guard lets no short through without the leave of the mandate and the venue, none
    at all without venue facts, and only reductions in a halt or past the review date. -/
theorem short_needs_leave (policy : Policy) (account : AccountView) (order : ProposedOrder) (day : DayCounters)
    (distinct : account.DistinctSymbols) (plain : trimmed order.symbol = order.symbol) :
    (∀ margin instruments, (checkSigned policy account order day margin instruments).allow = true →
      order.side = .sell → account.quantityOf order.symbol + order.change < 0 →
        (∃ limits, policy.limits = some limits ∧ limits.shorting = true) ∧
          ∃ rule, instruments.rule order.venue order.symbol = some rule ∧
            (rule.short = .allowed ∨
              rule.short = .needsLocate ∧ instruments.hasLocate order.venue order.symbol = true)) ∧
    (∀ margin, (checkMargin policy account order day margin).allow = true → order.side = .sell →
      0 ≤ account.quantityOf order.symbol + order.change) ∧
    ∀ context, (run policy account order day context).allow = true →
      account.halted = true ∨ policy.standing account.now = .expired →
        TakesBack (account.quantityOf order.symbol) order.change := by
  refine ⟨fun margin instruments allowed sell short => ?_, fun margin allowed sell => ?_,
    fun context allowed stopped => allowed_takesBack allowed distinct plain stopped⟩
  · obtain ⟨limits, compiled, shorting, leave⟩ := short_allowed allowed distinct plain sell short
    exact ⟨⟨limits, compiled, shorting⟩, leave _ rfl⟩
  · by_contra short
    obtain ⟨limits, -, -, leave⟩ := short_allowed allowed distinct plain sell (not_le.1 short)
    obtain ⟨rule, known, -⟩ := leave _ rfl
    simp [InstrumentRules.rule, InstrumentRules.empty] at known

end Allowed

section Sample

open Amount (cents)

attribute [local instance] asciiCase epochText

/-- Shorts are allowed against a locate. -/
private def shortBook : Policy where
  bodyHash := "0"
  envelope := some ⟨1, .active, 0, 31536000000000000⟩
  maxPriceAgeSecs := ⟨300, fiveMinutes_fits⟩
  body := .valid
    { ccy := "USD"
      allocated := cents 100000
      minCashReserve := cents 10
      instrumentAllow := .ofList ["GME"]
      instrumentDeny := ∅
      venues := .ofList ["alpaca"]
      assetClasses := .ofList ["equity"]
      shorting := true
      derivatives := false
      leverageMaxGross := cents 200
      maxPosition := cents 100
      maxAssetClass := ∅
      maxGross := cents 200
      maxNet := cents 200
      maxOrderNotional := cents 100000
      maxOrdersPerDay := 10
      maxTurnoverPerDay := cents 200
      classes_lower := noClasses_lower }

private def oneShare : AccountView where
  accountId := "acct"
  ccy := "USD"
  equity := cents 120000
  cash := cents 100000
  positions := [⟨"GME", "alpaca", "equity", cents 100, cents 2000⟩]
  halted := false
  now := 0

private def sellThree : ProposedOrder where
  venue := "alpaca"
  assetClass := "equity"
  symbol := "GME"
  side := .sell
  quantity := cents 300
  price := some ⟨cents 2000, 0⟩
  estFee := Dec.zero
  usesMargin := false
  isDerivative := false
  lossRungCover := false

private def located : InstrumentRules where
  rules := InstrumentRules.empty.rules.insert ("alpaca", "GME") ⟨.needsLocate, none, none⟩
  locates := InstrumentRules.empty.locates.insert ("alpaca", "GME")

/-- A short of two shares from one share long, against a locate. -/
theorem located_short_allowed :
    (checkSigned shortBook oneShare sellThree ⟨0, Dec.zero⟩ ⟨some (cents 100000)⟩ located).allow = true ∧
      ∃ rule, located.rule "alpaca" "GME" = some rule ∧
        (rule.short = .allowed ∨ rule.short = .needsLocate ∧ located.hasLocate "alpaca" "GME" = true) := by
  have allowed :
      (checkSigned shortBook oneShare sellThree ⟨0, Dec.zero⟩ ⟨some (cents 100000)⟩ located).allow = true := by
    decide +kernel
  exact ⟨allowed, ((short_needs_leave shortBook oneShare sellThree ⟨0, Dec.zero⟩ (by decide) (by decide)).1
    _ _ allowed rfl (by decide)).2⟩

end Sample

end PreTradeGuard

end RebalancerCore
