import SignalEngine.RebalancerCore.Policy
import SignalEngine.BrokerAdapters.Order

/-! # Venue rules

What a venue makes of a wanted quantity, and the facts about shorting, leverage
and position size that a signed plan needs. The rules themselves belong to the
broker adapters; here they are whatever an implementation of `VenueRules` says.
-/

open BrokerAdapters Text

namespace RebalancerCore

/-- Why a quantity could not be turned into a sendable order size. -/
inductive SizeRefusal where
  | unknownInstrument (symbol : String)
  | notTradable (status : String)
  | roundsToZero
  | belowMinQuantity (min : Dec)
  | belowMinCost (min : Dec)
  | other (why : String)
  deriving DecidableEq

def SizeRefusal.display : SizeRefusal → String
  | .unknownInstrument s => s!"venue has no rules for {s}"
  | .notTradable s => s!"not tradable: {s}"
  | .roundsToZero => "quantity rounds down to zero at the venue's precision"
  | .belowMinQuantity min => s!"below the venue minimum quantity {min.display}"
  | .belowMinCost min => s!"below the venue minimum order value {min.display}"
  | .other s => s

structure VenueRules where
  /-- The quantity to send for a wish of `quantity` at the reference `price`. -/
  roundQuantity : (symbol : String) → Side → (quantity price : Dec) → Except SizeRefusal Dec
  /-- Text of the rules that apply to a symbol. -/
  fingerprint : (symbol : String) → String

def VenueRules.anySize : VenueRules := ⟨fun _ _ quantity _ => .ok quantity, fun symbol => symbol⟩

inductive ShortPolicy where
  | forbidden (reason : String)
  | allowed
  /-- Only against a borrow locate on record. -/
  | needsLocate
  deriving DecidableEq

structure InstrumentVenueRule where
  short : ShortPolicy
  maxLeverage : Option Dec
  maxPositionUnits : Option Dec
  deriving DecidableEq

abbrev ruleOrder : String × String → String × String → Ordering :=
  compareLex (compareOn Prod.fst) (compareOn Prod.snd)

instance (priority := high) ruleOrder_trans : Std.TransCmp ruleOrder := inferInstance

/-- Venue facts and borrow locates; with no entry for an instrument, a short in
    it is denied. -/
structure InstrumentRules where
  rules : Std.ExtTreeMap (String × String) InstrumentVenueRule ruleOrder
  locates : Std.ExtTreeSet (String × String) ruleOrder

namespace InstrumentRules

def empty : InstrumentRules := ⟨∅, ∅⟩

variable [UnicodeCase]

def ruleKey (venue symbol : String) : String × String := (lowerName venue, upperName symbol)

def rule (instruments : InstrumentRules) (venue symbol : String) : Option InstrumentVenueRule :=
  instruments.rules[ruleKey venue symbol]?

def hasLocate (instruments : InstrumentRules) (venue symbol : String) : Bool :=
  instruments.locates.contains (ruleKey venue symbol)

end InstrumentRules

/-- The rule sets a plan may use, by lower-case venue name, and the facts a
    signed plan needs. -/
structure VenueRuleBook where
  byVenue : Std.ExtTreeMap String VenueRules
  instruments : InstrumentRules

def VenueRuleBook.get [UnicodeCase] (book : VenueRuleBook) (venue : String) : Option VenueRules :=
  book.byVenue[lowerName venue]?

end RebalancerCore
