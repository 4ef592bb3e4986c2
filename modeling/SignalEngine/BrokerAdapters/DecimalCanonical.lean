import SignalEngine.BrokerAdapters.DecimalRounding

/-! # Decimal text and order

A decimal reads back from its text, equal values have one normal text, and the comparison
is that of the rational numbers. A text is read as the number it denotes, but for one with
so many fractional digits that their count does not fit in 32 bits.
-/

open MachineInt

namespace BrokerAdapters

namespace Dec

theorem lt_iff_toRat {a b : Dec} : a.atto < b.atto ↔ a.toRat < b.toRat := by
  rw [toRat_eq_atto, toRat_eq_atto, div_lt_div_iff_of_pos_right (by positivity), Int.cast_lt]

theorem le_iff_toRat {a b : Dec} : a ≤ b ↔ a.toRat ≤ b.toRat := by
  rw [le_iff, ← not_lt, lt_iff_toRat, not_lt]

theorem toRat_inj {a b : Dec} : a.toRat = b.toRat ↔ a.atto = b.atto := by
  have positive : (10 : ℚ) ^ maxScale ≠ 0 := by positivity
  rw [toRat_eq_atto, toRat_eq_atto, div_left_inj' positive, Int.cast_inj]

theorem cmp_eq_toRat (a b : Dec) : a.cmp b = compare a.toRat b.toRat := by
  rw [cmp_eq]
  rcases lt_trichotomy a.atto b.atto with lt | same | gt
  · rw [compare_lt_iff_lt.2 lt, compare_lt_iff_lt.2 (lt_iff_toRat.1 lt)]
  · rw [compare_eq_iff_eq.2 same, compare_eq_iff_eq.2 (toRat_inj.2 same)]
  · rw [compare_gt_iff_gt.2 gt, compare_gt_iff_gt.2 (lt_iff_toRat.1 gt)]

/-! ## Normal forms -/

def IsNormal (d : Dec) : Prop := d.scale = 0 ∨ ¬ (10 : Int) ∣ d.units.val

theorem normal_isNormal (d : Dec) : d.normal.IsNormal := by
  by_cases zero : d.units.val = 0
  · left
    have stripped : (stripZeros d.units d.scale).1.val = 0 := by
      have value := (stripZeros_spec d.scale d.units).2.1
      rw [zero] at value
      exact (mul_eq_zero.1 value.symm).resolve_right (ten_pow_pos _).ne'
    simp [normal, normalized, stripped]
  · exact (d.normal_spec zero).2.2

theorem IsNormal.scale_le {a b : Dec} (normal : b.IsNormal) (same : a.atto = b.atto) : b.scale ≤ a.scale := by
  by_contra larger
  have larger : a.scale < b.scale := not_le.1 larger
  have last : ¬ (10 : Int) ∣ b.units.val := normal.resolve_left (by omega)
  rw [a.atto_lift larger.le b.scale_le, atto] at same
  have lifted := Int.eq_of_mul_eq_mul_right (ten_pow_pos _).ne' same
  apply last
  rw [← lifted]
  exact Dvd.dvd.mul_left (dvd_pow_self 10 (by omega)) _

theorem IsNormal.unique {a b : Dec} (first : a.IsNormal) (second : b.IsNormal) (same : a.atto = b.atto) : a = b := by
  have scale : a.scale = b.scale := le_antisymm (first.scale_le same.symm) (second.scale_le same)
  obtain ⟨⟨aUnits, aFits⟩, aScale, aLe⟩ := a
  obtain ⟨⟨bUnits, bFits⟩, bScale, bLe⟩ := b
  obtain rfl : aScale = bScale := scale
  obtain rfl : aUnits = bUnits := Int.eq_of_mul_eq_mul_right (ten_pow_pos _).ne' same
  rfl

theorem toRat_of_display {a b : Dec} (same : a.display = b.display) : a.toRat = b.toRat := by
  have read := a.readLiteral_display
  rw [same, b.readLiteral_display] at read
  rw [← a.shown_value, ← b.shown_value, Option.some.inj read]

theorem eq_iff_display {a b : Dec} : a.eq b = true ↔ a.normal.display = b.normal.display := by
  rw [eq_iff]
  constructor
  · intro same
    rw [← a.atto_normal, ← b.atto_normal] at same
    rw [a.normal_isNormal.unique b.normal_isNormal same]
  · intro same
    rw [← toRat_inj, ← a.toRat_normal, ← b.toRat_normal]
    exact toRat_of_display same

/-! ## Reading -/

/-- A text whose fractional digits are too many to count in 32 bits is refused, unless all
    its digits are zero. -/
def PointKept (text : String) : Prop :=
  ∀ l, readLiteral text.toList = some l → 2 ^ 32 ≤ l.frac.length → l.mantissa ≠ 0 →
    ¬ l.AcceptedAt (l.frac.length % 2 ^ 32)

theorem parse_exact_iff {text : String} :
    (∀ d, parse text = .ok d → Denotes text d.toRat) ↔ PointKept text := by
  constructor
  · intro exact l read long nonzero accepted
    rcases parseCalc_cases read with ⟨r, run, -, value⟩ | ⟨-, refused⟩ | ⟨-, nonneg, -, precise⟩
    · obtain ⟨l', read', same⟩ := exact r (by rw [parse, run, Calc.result_pure])
      obtain rfl : l = l' := Option.some.inj (read.symm.trans read')
      have moved := l.valueAt_inj nonzero (value.symm.trans same.symm)
      have := Nat.mod_lt l.frac.length (by decide : 0 < 2 ^ 32)
      omega
    · exact refused accepted
    · rw [Literal.acceptedAt_read, if_neg (not_lt.2 nonneg)] at accepted
      exact precise accepted.2.2
  · intro kept d parsed
    cases read : readLiteral text.toList with
    | none =>
        rw [parse, parseCalc, read] at parsed
        cases parsed
    | some l =>
        rcases parseCalc_cases read with ⟨r, run, accepted, value⟩ | ⟨run, -⟩ | ⟨run, -⟩
        · rw [parse, run, Calc.result_pure] at parsed
          obtain rfl := Except.ok.inj parsed
          refine ⟨l, read, ?_⟩
          rw [value, Literal.value]
          by_cases short : l.frac.length < 2 ^ 32
          · rw [Nat.mod_eq_of_lt short]
          · have zero : l.mantissa = 0 := by
              by_contra nonzero
              exact kept l read (not_lt.1 short) nonzero accepted
            rw [l.valueAt_of_mantissa_zero zero, l.valueAt_of_mantissa_zero zero]
        · rw [parse, run] at parsed
          cases parsed
        · rw [parse, run] at parsed
          cases parsed

theorem Denotes.unique {text : String} {v w : ℚ} (first : Denotes text v) (second : Denotes text w) : v = w := by
  obtain ⟨l, read, rfl⟩ := first
  obtain ⟨l', read', rfl⟩ := second
  rw [read] at read'
  rw [Option.some.inj read']

/-- The text of decimals, their order, and the numbers of texts. -/
structure Canonical (a b : Dec) (text : String) : Prop where
  reads_back : parse a.display = .ok a
  equal : a.eq b = true ↔ a.normal.display = b.normal.display
  ordered : a.cmp b = compare a.toRat b.toRat
  exact : ∀ d, parse text = .ok d → Denotes text d.toRat
  /-- A number with further significant digits, or too large a one, is an error. -/
  refused : ∀ value, Denotes text value → (∀ d : Dec, d.toRat ≠ value) → ∃ e, parse text = .error e

/-- Decimal text and order are canonical exactly for the texts whose point is kept. -/
theorem canonical_iff (a b : Dec) (readable : a.units.val ≠ -2 ^ 127) (text : String) :
    Canonical a b text ↔ PointKept text := by
  rw [← parse_exact_iff]
  constructor
  · exact Canonical.exact
  · intro exact
    refine ⟨a.parse_display readable, eq_iff_display, cmp_eq_toRat a b, exact, fun value denotes none => ?_⟩
    cases parsed : parse text with
    | error e => exact ⟨e, rfl⟩
    | ok d => exact absurd ((exact d parsed).unique denotes) (none d)

namespace LongTexts

/-- One and a quarter, with zeros behind it. -/
def padded : Dec := ⟨⟨125000, by decide⟩, 5, Dec.scale_five⟩

theorem padded_canonical : Canonical padded ⟨⟨-125, by decide⟩, 2, by decide⟩ "-1.250e-1" := by
  refine (canonical_iff padded ⟨⟨-125, by decide⟩, 2, by decide⟩ (by decide) "-1.250e-1").2 ?_
  intro l read long
  have literal : readLiteral "-1.250e-1".toList = some ⟨true, ['1'], ['2', '5', '0'], -1⟩ := by decide +kernel
  obtain rfl := Option.some.inj (literal.symm.trans read)
  exact absurd long (by decide)

def tiny (zeros : Nat) : List Char := plainText false ['0'] (List.replicate zeros '0' ++ ['1'])

theorem tiny_literal (zeros : Nat) :
    readLiteral (tiny zeros) = some ⟨false, ['0'], List.replicate zeros '0' ++ ['1'], 0⟩ := by
  refine readLiteral_plain false (by decide) ?_ (by decide)
  rw [Text.allDigits_append]
  simp [Text.allDigits, List.all_replicate]

def tinyLiteral (zeros : Nat) : Literal := ⟨false, ['0'], List.replicate zeros '0' ++ ['1'], 0⟩

theorem tiny_mantissa (zeros : Nat) : (tinyLiteral zeros).mantissa = 1 := by
  have digits : Nat.ofDigitChars 10 (List.replicate 1 '0' ++ (List.replicate zeros '0' ++ ['1'])) 0 = 1 := by
    rw [Nat.ofDigitChars_append, Nat.ofDigitChars_append, Nat.ofDigitChars_replicate_zero,
      Nat.ofDigitChars_replicate_zero, Nat.mul_zero, Nat.ofDigitChars_cons, Nat.ofDigitChars_nil]
    decide
  exact digits

theorem tiny_frac_length (zeros : Nat) : (tinyLiteral zeros).frac.length = zeros + 1 := by
  simp [tinyLiteral]

theorem tiny_reads_as_one (zeros : Nat) (count : (zeros + 1) % 2 ^ 32 = 0) :
    ∃ d, parse (String.ofList (tiny zeros)) = .ok d ∧ d.toRat = 1 ∧ ¬ Denotes (String.ofList (tiny zeros)) d.toRat := by
  have read : readLiteral (String.ofList (tiny zeros)).toList = some (tinyLiteral zeros) := by
    rw [String.toList_ofList]
    exact tiny_literal zeros
  have net : (tinyLiteral zeros).netScale = 0 := by
    rw [Literal.netScale, tiny_frac_length, count]
    rfl
  have accepted : (tinyLiteral zeros).AcceptedAt ((tinyLiteral zeros).frac.length % 2 ^ 32) := by
    rw [Literal.acceptedAt_read, tiny_mantissa, net]
    decide
  have one : (tinyLiteral zeros).valueAt 0 = 1 := by
    rw [Literal.valueAt, tiny_mantissa]
    norm_num [tinyLiteral]
  rcases parseCalc_cases read with ⟨r, run, -, value⟩ | ⟨-, refused⟩ | ⟨-, -, -, precise⟩
  · rw [tiny_frac_length, count, one] at value
    refine ⟨r, by rw [parse, run, Calc.result_pure], value, fun denotes => ?_⟩
    obtain ⟨l, read', same⟩ := denotes
    obtain rfl := Option.some.inj (read.symm.trans read')
    rw [value, ← one] at same
    have moved := Literal.valueAt_inj _ (by rw [tiny_mantissa]; decide) same
    rw [tiny_frac_length] at moved
    omega
  · exact absurd accepted refused
  · rw [net] at precise
    exact absurd (one_dvd _) precise

/-- A text with `2^32` fractional digits that denotes `10^-(2^32)` reads as one. -/
theorem long_fraction_reads_as_one :
    ∃ text d, parse text = .ok d ∧ d.toRat = 1 ∧ ¬ Denotes text d.toRat ∧ ¬ Canonical padded padded text := by
  obtain ⟨d, parsed, one, differs⟩ := tiny_reads_as_one (2 ^ 32 - 1) (by decide)
  exact ⟨_, d, parsed, one, differs, fun canonical => differs (canonical.exact d parsed)⟩

end LongTexts

end Dec

end BrokerAdapters
