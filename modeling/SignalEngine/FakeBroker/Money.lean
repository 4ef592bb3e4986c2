import SignalEngine.BrokerAdapters.DecimalValue
import SignalEngine.Lib.Outcome

/-! # Money of the simulated exchange

The exchange's own helpers on decimals: they are exact and stop the program
where the units do not fit.
-/

open BrokerAdapters MachineInt Outcome

namespace FakeBroker

/-- Why the exchange stopped: one of its assertions, or an overflow. -/
inductive Panic where
  | assertion (text : String)
  | overflow (text : String)
  deriving DecidableEq

namespace Money

def expect {α : Type} (text : String) : Option α → Except Panic α
  | some a => .ok a
  | none => .error (.overflow text)

def add (a b : Dec) : Except Panic Dec :=
  expect "fake-broker: decimal overflow in add" (a.checkedAdd b)

def neg (a : Dec) : Except Panic Dec :=
  expect "attempt to negate with overflow" <| a.units.checkedNeg.map fun units => ⟨units, a.scale, a.scale_le⟩

def sub (a b : Dec) : Except Panic Dec := do
  let negated ← neg b
  add a negated

def mul (a b : Dec) : Except Panic Dec :=
  expect "fake-broker: decimal overflow in mul" (a.checkedMul b)

def sum (items : List Dec) : Except Panic Dec := items.foldlM add Dec.zero

theorem expect_eq_ok {α : Type} {text : String} {x : Option α} {a : α} :
    expect text x = .ok a ↔ x = some a := by
  cases x <;> simp [expect]

theorem add_ok {a b z : Dec} (h : add a b = .ok z) : z.atto = a.atto + b.atto :=
  Dec.atto_checkedAdd (expect_eq_ok.1 h)

theorem neg_ok {a z : Dec} (h : neg a = .ok z) : z.atto = -a.atto := by
  obtain ⟨units, negated, rfl⟩ := Option.map_eq_some_iff.1 (expect_eq_ok.1 h)
  have exact := SInt.checked_eq_some.1 negated
  simp only [Dec.atto]
  rw [exact, Int.neg_mul]

theorem sub_ok {a b z : Dec} (h : sub a b = .ok z) : z.atto = a.atto - b.atto := by
  obtain ⟨negated, negation, total⟩ := bind_eq_ok.1 h
  rw [add_ok total, neg_ok negation, sub_eq_add_neg]

theorem mul_ok {a b z : Dec} (h : mul a b = .ok z) : z.atto = a.atto * b.atto / 10 ^ maxScale :=
  Dec.atto_checkedMul (expect_eq_ok.1 h)

theorem mul_nonneg {a b z : Dec} (h : mul a b = .ok z) (left : 0 ≤ a.atto) (right : 0 ≤ b.atto) :
    0 ≤ z.atto := by
  rw [mul_ok h]
  exact Int.ediv_nonneg (Int.mul_nonneg left right) (Dec.ten_pow_pos _).le

theorem mul_le_of_fraction {a rate z : Dec} (h : mul a rate = .ok z) (nonneg : 0 ≤ a.atto)
    (fraction : rate.atto ≤ 10 ^ maxScale) : z.atto ≤ a.atto := by
  rw [mul_ok h]
  apply Int.ediv_le_of_le_mul (Dec.ten_pow_pos _)
  exact Int.mul_le_mul_of_nonneg_left fraction nonneg

theorem sum_ok {items : List Dec} {z : Dec} (h : sum items = .ok z) :
    z.atto = (items.map Dec.atto).sum := by
  have fold : ∀ (items : List Dec) (start z : Dec), items.foldlM add start = .ok z →
      z.atto = start.atto + (items.map Dec.atto).sum := by
    intro items
    induction items with
    | nil =>
        intro start z h
        obtain rfl := Except.ok.inj h
        simp
    | cons item items ih =>
        intro start z h
        obtain ⟨next, step, rest⟩ := bind_eq_ok.1 h
        rw [ih next z rest, add_ok step, List.map_cons, List.sum_cons, add_assoc]
  simpa using fold items Dec.zero z h

end Money

end FakeBroker
