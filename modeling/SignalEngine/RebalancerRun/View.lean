import SignalEngine.RebalancerRun.Broker

/-! # Reading a Kraken account

Spot balances of other assets than the account currency are holdings, valued at
the last price of their pair. A balance without a price is listed apart, so that
no balance is lost between the two lists.
-/

open BrokerAdapters Text

namespace BrokerAdapters

inductive BalanceKind where
  | spot
  /-- Staked: not tradable. -/
  | earn
  deriving DecidableEq

structure BalanceEntry where
  asset : String
  kind : BalanceKind
  amount : Dec
  deriving DecidableEq

structure Balances where
  entries : List BalanceEntry

/-- The sum of the spot entries of an asset; an entry that overflows it is left out. -/
def Balances.spot (b : Balances) (asset : String) : Dec :=
  (b.entries.filter fun e => e.kind == .spot && eqIgnoreAsciiCase e.asset asset).foldl
    (fun total e => (total.checkedAdd e.amount).getD total) Dec.zero

end BrokerAdapters

namespace RebalancerRun

open RebalancerCore (Instant)
open RebalancerCore.DecMath (add mul)

/-- The instrument a position without a price belongs to: Kraken names the asset
    of the pair, the others the symbol itself. -/
def BrokerSnapshot.instrumentOf (snap : BrokerSnapshot) (u : UnvaluedHolding) : String :=
  if snap.venue = "kraken" then s!"{u.asset}/{snap.ccy}" else u.asset

structure KrakenViewInput where
  balances : Balances
  /-- Equity and equivalent balance of the trade balance. -/
  equity : Option Dec
  equivalentBalance : Option Dec
  openOrders : List OrderReport
  /-- The last price by canonical pair. -/
  marks : String → Option Dec
  quoteAsset : String
  assetClass : String

def orOverflow {α : Type} (what : String) : Except RebalancerCore.MathError α → Except ViewError α :=
  Except.mapError fun _ => .overflow what

section Kraken

variable [UnicodeCase]

/-- The balances by upper-case asset, without the account currency. -/
def spotTotals (quote : String) (entries : List BalanceEntry) :
    Except ViewError (Std.ExtTreeMap String Dec) :=
  entries.foldlM (fun totals e =>
    if e.amount.isZero || e.kind == .earn || eqIgnoreAsciiCase e.asset quote then pure totals
    else do
      let key := toUppercase e.asset
      let sum ← orOverflow "summing spot balances" (add (totals.getD key Dec.zero) e.amount)
      pure (totals.insert key sum)) ∅

/-- What the walk over the balances has gathered. -/
structure Valued where
  holdings : List Holding
  unvalued : List UnvaluedHolding
  derived : Dec

def valueSpot (input : KrakenViewInput) (quote : String) (v : Valued) (asset : String) (qty : Dec) :
    Except ViewError Valued :=
  let symbol := s!"{asset}/{quote}"
  match input.marks symbol with
  | some mark => do
      let value ← orOverflow "valuing a holding" (mul qty mark)
      let derived ← orOverflow "summing holdings" (add v.derived value)
      pure { v with holdings := v.holdings ++ [⟨symbol, input.assetClass, qty, some mark, value⟩], derived }
  | none => pure { v with unvalued := v.unvalued ++ [⟨asset, qty, s!"no price for {symbol}"⟩] }

def krakenSnapshot (input : KrakenViewInput) (now : Instant) : Except ViewError BrokerSnapshot := do
  let quote := toUppercase (trimmed input.quoteAsset)
  let equity ← match input.equity.or input.equivalentBalance with
    | some equity => pure equity
    | none => throw .equityMissing
  let cash := input.balances.spot quote
  let totals ← spotTotals quote input.balances.entries
  let v ← totals.toList.foldlM (fun v (asset, qty) => valueSpot input quote v asset qty) ⟨[], [], cash⟩
  pure ⟨"kraken", quote, equity, cash, v.holdings, v.unvalued, input.openOrders, now, v.derived⟩

end Kraken

end RebalancerRun
