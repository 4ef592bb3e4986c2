import SignalEngine.BrokerAdapters.DecimalValue
import SignalEngine.Lib.Outcome
import Mathlib.Algebra.Order.Group.Unbundled.Abs

/-! # Decimal helpers of the rebalancer

Subtraction, negation and division on top of `Dec`, and the one place where an
`f64` ratio of the mandate becomes a decimal. Every operation here is checked.
The lemmas say what a returned value is worth in units of `10^-18`.
-/

open MachineInt BrokerAdapters Outcome

namespace RebalancerCore

inductive MathError where
  | overflow
  | badDivisor
  | badRatio (value why : String)
  deriving Repr, DecidableEq

namespace DecMath

def orOverflow {α : Type} : Option α → Except MathError α
  | some a => .ok a
  | none => .error .overflow

def neg (a : Dec) : Except MathError Dec := do
  let units ← orOverflow a.units.checkedNeg
  .ok ⟨units, a.scale, a.scale_le⟩

def add (a b : Dec) : Except MathError Dec := orOverflow (a.checkedAdd b)

def sub (a b : Dec) : Except MathError Dec := do
  let negated ← neg b
  add a negated

def mul (a b : Dec) : Except MathError Dec := orOverflow (a.checkedMul b)

def abs (a : Dec) : Except MathError Dec := if a.isNegative then neg a else .ok a

def sum (items : List Dec) : Except MathError Dec := items.foldlM add Dec.zero

/-- `10i128.checked_pow(n)`; exponents beyond 32 bits are refused all the same. -/
def checkedPow10 (n : Nat) : Except MathError (SInt.Positive 128) :=
  if small : n ≤ 38 then .ok (pow10 n small) else .error .overflow

/-- `n/d` at `dp` digits as one fraction: `nu * 10^(dp + ds - ns) / du`, with the
    power of ten on the side where its exponent is not negative. -/
def scaledFraction (n : Dec) (du : SInt.Positive 128) (ds dp : Nat) :
    Except MathError (SInt 128 × SInt.Positive 128) :=
  let e : Int := dp + ds - n.scale
  if e ≥ 0 then do
    let m ← checkedPow10 e.toNat
    let num ← orOverflow (n.units.checkedMul m.toSInt)
    .ok (num, du)
  else do
    let m ← checkedPow10 (-e).toNat
    let den ← orOverflow (du.checkedMul m)
    .ok (n.units, den)

/-- `floor(n / d)` at `dp` fractional digits. -/
def divFloor (n d : Dec) (dp : Nat) : Except MathError Dec :=
  match d.units.toPositive? with
  | none => .error .badDivisor
  | some du => do
      let (num, den) ← scaledFraction n du d.scale dp
      match Dec.new (num.divEuclid den) dp with
      | .ok q => .ok q
      | .error _ => .error .overflow

/-- `round_dp` with its errors read as overflow. -/
def roundDp (d : Dec) (dp : Nat) (mode : Rounding) : Except MathError Dec :=
  match d.roundDp dp mode with
  | .ok rounded => .ok rounded
  | .error _ => .error .overflow

/-- What `Display` shows of an `f64`: the shortest decimal text that reads back
    as the same float, never in scientific notation. -/
inductive FloatText where
  | nan
  | infinite (negative : Bool)
  | finite (negative : Bool) (int frac : List (Fin 10)) (nonempty : int ≠ [])
  deriving DecidableEq

structure F64 where
  shown : FloatText
  debug : String
  deriving DecidableEq

inductive RatioRound where
  | down
  | up
  deriving Repr, DecidableEq

instance (priority := high) digits_ne : NeZero 10 := ⟨by decide⟩

theorem zeroDigit_ne : ([0] : List (Fin 10)) ≠ [] := by decide

def digitChars (digits : List (Fin 10)) : List Char := digits.map fun (d : Fin 10) => Nat.digitChar d.val

def isNonzeroDigit (d : Fin 10) : Bool := d ≠ 0

def signChars (negative : Bool) : List Char := if negative then ['-'] else []

/-- The text of a float, read as a decimal. -/
def readShown (debug : String) (text : List Char) : Except MathError Dec :=
  match Dec.parse (String.ofList text) with
  | .ok d => .ok d
  | .error _ => .error (.badRatio debug "not a decimal")

/-- Convert an `f64` ratio of the mandate to a decimal: the shortest text that
    reads back, cut at 18 fractional digits in the direction `round` says. -/
def ratioToDec (v : F64) (round : RatioRound) : Except MathError Dec :=
  match v.shown with
  | .nan => .error (.badRatio v.debug "not finite")
  | .infinite _ => .error (.badRatio v.debug "not finite")
  | .finite negative int frac _ =>
      if negative && (int ++ frac).any isNonzeroDigit then .error (.badRatio v.debug "negative")
      else
        let intPart := signChars negative ++ digitChars int
        if frac = [] then readShown v.debug intPart
        else if frac.length ≤ 18 then readShown v.debug (intPart ++ '.' :: digitChars frac)
        else do
          let base ← readShown v.debug (intPart ++ '.' :: digitChars (frac.take 18))
          if round = .up ∧ (frac.drop 18).any isNonzeroDigit then
            add base ⟨⟨1, Dec.fits_one⟩, 18, Dec.scale_eighteen⟩
          else .ok base

theorem orOverflow_eq_ok {α : Type} {x : Option α} {a : α} : orOverflow x = .ok a ↔ x = some a := by
  cases x <;> simp [orOverflow]

theorem orOverflow_eq_error {α : Type} {x : Option α} {e : MathError} :
    orOverflow x = .error e ↔ x = none ∧ e = .overflow := by
  cases x <;> simp [orOverflow, eq_comm]

theorem neg_ok {a z : Dec} (h : neg a = .ok z) : z.atto = -a.atto := by
  simp only [neg, bind_eq_ok, orOverflow_eq_ok, SInt.checkedNeg, SInt.checked_eq_some,
    Except.ok.injEq] at h
  obtain ⟨units, exact, rfl⟩ := h
  simp only [Dec.atto]
  rw [exact, Int.neg_mul]

theorem add_ok {a b z : Dec} (h : add a b = .ok z) : z.atto = a.atto + b.atto :=
  Dec.atto_checkedAdd (orOverflow_eq_ok.1 h)

theorem add_fits {a b : Dec} (left : Fits 128 a.atto) (right : Fits 128 b.atto)
    (total : Fits 128 (a.atto + b.atto)) : ∃ z, add a b = .ok z ∧ z.atto = a.atto + b.atto := by
  have within : max a.scale b.scale ≤ maxScale := max_le a.scale_le b.scale_le
  have positive : (0 : Int) < 10 ^ (maxScale - max a.scale b.scale) := Dec.ten_pow_pos _
  -- a value at a smaller scale has fewer units
  have lifted (d : Dec) (le : d.scale ≤ max a.scale b.scale) (fits : Fits 128 d.atto) :
      Fits 128 (d.units.val * (d.lift _ within).val) := by
    rw [Dec.lift_val]
    rw [Dec.atto_lift d le within] at fits
    have divided := SInt.ediv_fits fits positive
    rwa [Int.mul_ediv_cancel _ positive.ne'] at divided
  have leftFits := lifted a (le_max_left ..) left
  have rightFits := lifted b (le_max_right ..) right
  have sumFits : Fits 128 (a.units.val * (a.lift _ within).val + b.units.val * (b.lift _ within).val) := by
    rw [Dec.lift_val, Dec.lift_val]
    rw [Dec.atto_lift a (le_max_left ..) within, Dec.atto_lift b (le_max_right ..) within, ← add_mul] at total
    have divided := SInt.ediv_fits total positive
    rwa [Int.mul_ediv_cancel _ positive.ne'] at divided
  have summed : a.checkedAdd b = some ⟨⟨_, sumFits⟩, _, within⟩ := by
    simp only [Dec.checkedAdd, Option.bind_eq_bind, Option.bind_eq_some_iff, SInt.checkedMul, SInt.checkedAdd,
      SInt.checked_eq_some]
    exact ⟨⟨_, leftFits⟩, rfl, ⟨_, rightFits⟩, rfl, ⟨_, sumFits⟩, rfl, rfl⟩
  have ok : add a b = .ok _ := orOverflow_eq_ok.2 summed
  exact ⟨_, ok, add_ok ok⟩

theorem sub_ok {a b z : Dec} (h : sub a b = .ok z) : z.atto = a.atto - b.atto := by
  obtain ⟨negated, negation, sum⟩ := bind_eq_ok.1 h
  rw [add_ok sum, neg_ok negation, sub_eq_add_neg]

theorem mul_ok {a b z : Dec} (h : mul a b = .ok z) : z.atto = a.atto * b.atto / 10 ^ maxScale :=
  Dec.atto_checkedMul (orOverflow_eq_ok.1 h)

theorem abs_ok {a z : Dec} (h : abs a = .ok z) : z.atto = |a.atto| := by
  unfold abs at h
  split at h
  next negative => rw [neg_ok h, abs_of_neg (Dec.isNegative_iff.1 negative)]
  next nonneg =>
      cases h
      rw [Dec.isNegative_iff, not_lt] at nonneg
      exact (abs_of_nonneg nonneg).symm

theorem sum_ok {items : List Dec} {z : Dec} (h : sum items = .ok z) :
    z.atto = (items.map Dec.atto).sum := by
  have fold : ∀ (items : List Dec) (start z : Dec), items.foldlM add start = .ok z →
      z.atto = start.atto + (items.map Dec.atto).sum := by
    intro items
    induction items with
    | nil =>
        intro start z h
        cases h
        simp
    | cons item items ih =>
        intro start z h
        obtain ⟨next, step, rest⟩ := bind_eq_ok.1 h
        rw [ih next z rest, add_ok step, List.map_cons, List.sum_cons, add_assoc]
  simpa using fold items Dec.zero z h

theorem checkedPow10_ok {n : Nat} {m : SInt.Positive 128} (h : checkedPow10 n = .ok m) :
    m.val = 10 ^ n := by
  unfold checkedPow10 at h
  split at h
  · rw [← Except.ok.inj h, pow10_val]
  · cases h

theorem scaledFraction_ok {n d : Dec} {du den : SInt.Positive 128} {dp : Nat} {num : SInt 128}
    (units : du.toSInt = d.units) (h : scaledFraction n du d.scale dp = .ok (num, den)) :
    num.val * d.atto = n.atto * 10 ^ dp * den.val := by
  have nCap := n.scale_le
  have dCap := d.scale_le
  have value : du.val = d.units.val := by rw [← units]
  simp only [scaledFraction] at h
  split at h
  next nonneg =>
      simp only [bind_eq_ok, orOverflow_eq_ok, SInt.checkedMul, SInt.checked_eq_some,
        Except.ok.injEq, Prod.mk.injEq] at h
      obtain ⟨m, power, scaled, exact, rfl, rfl⟩ := h
      have exponents : (dp + d.scale - n.scale : Int).toNat + (maxScale - d.scale) =
          maxScale - n.scale + dp := by omega
      rw [exact, checkedPow10_ok power, Dec.atto, Dec.atto, ← value]
      calc
        _ = n.units.val * du.val *
            10 ^ ((dp + d.scale - n.scale : Int).toNat + (maxScale - d.scale)) := by ring
        _ = _ := by rw [exponents]; ring
  next negative =>
      simp only [bind_eq_ok, orOverflow_eq_ok, SInt.Positive.checkedMul_eq_some, Except.ok.injEq,
        Prod.mk.injEq] at h
      obtain ⟨m, power, scaled, exact, rfl, rfl⟩ := h
      have exponents : (-(dp + d.scale - n.scale : Int)).toNat + (maxScale - n.scale + dp) =
          maxScale - d.scale := by omega
      rw [exact, checkedPow10_ok power, Dec.atto, Dec.atto, ← value, ← exponents]
      ring

theorem ediv_eq_of_cross {a b c d : Int} (bPos : 0 < b) (dPos : 0 < d) (cross : a * d = c * b) :
    a / b = c / d := by
  calc
    a / b = (a * d) / (b * d) := (Int.mul_ediv_mul_of_pos_left a b dPos).symm
    _ = (c * b) / (d * b) := by rw [cross, mul_comm b d]
    _ = c / d := Int.mul_ediv_mul_of_pos_left c d bPos

theorem divFloor_ok {n d q : Dec} {dp : Nat} (h : divFloor n d dp = .ok q) :
    0 < d.atto ∧ dp ≤ maxScale ∧
      q.atto = n.atto * 10 ^ dp / d.atto * 10 ^ (maxScale - dp) := by
  unfold divFloor at h
  split at h
  · cases h
  next du positive =>
      have units := SInt.toPositive?_eq_some.1 positive
      obtain ⟨⟨num, den⟩, fraction, h⟩ := bind_eq_ok.1 h
      have dPos : 0 < d.atto := by
        have pos : 0 < d.units.val := units ▸ du.pos
        exact mul_pos pos (Dec.ten_pow_pos _)
      simp only [Dec.new] at h
      by_cases within : dp ≤ maxScale
      · simp only [within, dif_pos, Except.ok.injEq] at h
        refine ⟨dPos, within, ?_⟩
        rw [← ediv_eq_of_cross den.pos dPos (scaledFraction_ok units fraction), ← h]
        rfl
      · simp [within] at h

theorem divFloor_scale {n d q : Dec} {dp : Nat} (h : divFloor n d dp = .ok q) : q.scale = dp := by
  unfold divFloor at h
  split at h
  · cases h
  next du positive =>
      obtain ⟨⟨num, den⟩, -, h⟩ := bind_eq_ok.1 h
      simp only [Dec.new] at h
      by_cases within : dp ≤ maxScale
      · simp only [within, dif_pos, Except.ok.injEq] at h
        rw [← h]
      · simp [within] at h

end DecMath

end RebalancerCore
