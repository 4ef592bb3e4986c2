import SignalEngine.Lib.Text
import Mathlib.Data.List.Induction

/-! # Letter case

Comparison up to ASCII case, and the case mapping of the Unicode standard as a
table with the properties the standard gives it. Names are compared after
trimming and mapping, so the lemmas are about such normal forms.
-/

namespace Text

def trimmed (s : String) : String := String.ofList (trim s.toList)

/-- Equality up to the case of ASCII letters. -/
def eqIgnoreAsciiCase (s t : String) : Bool :=
  s.toList.map Char.toLower == t.toList.map Char.toLower

/-- No ASCII capital in the text. -/
def NoCapitals (s : String) : Prop := ∀ c ∈ s.toList, c.isUpper = false

-- Named, because with all of Mathlib the quantifier would be decided over every character.
instance (s : String) : Decidable (NoCapitals s) :=
  List.decidableBAll (fun c : Char => c.isUpper = false) s.toList

/-- Full case mapping. Lower-casing is given for whole texts, because the form
    of a final sigma depends on its neighbours. -/
class UnicodeCase where
  upperChar : Char → List Char
  lowerChars : List Char → List Char
  upper_ascii : ∀ c, c.toNat < 128 → upperChar c = [c.toUpper]
  upper_nonempty : ∀ c, upperChar c ≠ []
  upper_fixed : ∀ c, ∀ u ∈ upperChar c, upperChar u = [u]
  upper_visible : ∀ c, isWhitespace c = false → ∀ u ∈ upperChar c, isWhitespace u = false
  lower_lower : ∀ cs, lowerChars (lowerChars cs) = lowerChars cs
  lower_trimmed : ∀ cs, trim (lowerChars (trim cs)) = lowerChars (trim cs)
  lower_no_upper : ∀ cs, ∀ c ∈ lowerChars cs, c.isUpper = false

def toUppercase [UnicodeCase] (s : String) : String :=
  String.ofList (s.toList.flatMap UnicodeCase.upperChar)

def toLowercase [UnicodeCase] (s : String) : String :=
  String.ofList (UnicodeCase.lowerChars s.toList)

variable {s : String} {c : Char}

theorem eqIgnoreAsciiCase_iff {t : String} : eqIgnoreAsciiCase s t = true ↔
    s.toList.map Char.toLower = t.toList.map Char.toLower := by
  rw [eqIgnoreAsciiCase, beq_iff_eq]

@[simp] theorem eqIgnoreAsciiCase_refl (s : String) : eqIgnoreAsciiCase s s = true :=
  eqIgnoreAsciiCase_iff.2 rfl

theorem eqIgnoreAsciiCase_symm {t : String} (h : eqIgnoreAsciiCase s t = true) : eqIgnoreAsciiCase t s = true :=
  eqIgnoreAsciiCase_iff.2 (eqIgnoreAsciiCase_iff.1 h).symm

theorem eqIgnoreAsciiCase_trans {t u : String} (left : eqIgnoreAsciiCase s t = true)
    (right : eqIgnoreAsciiCase t u = true) : eqIgnoreAsciiCase s u = true :=
  eqIgnoreAsciiCase_iff.2 ((eqIgnoreAsciiCase_iff.1 left).trans (eqIgnoreAsciiCase_iff.1 right))

/-- Two spellings of one text agree with a third one or both differ from it. -/
theorem eqIgnoreAsciiCase_congr {t : String} (h : eqIgnoreAsciiCase s t = true) (u : String) :
    eqIgnoreAsciiCase u s = eqIgnoreAsciiCase u t := by
  unfold eqIgnoreAsciiCase
  rw [eqIgnoreAsciiCase_iff.1 h]

theorem trim_head {cs : List Char} : ∀ c ∈ (trim cs).head?, isWhitespace c = false := by
  intro c member
  have kept : (trim cs) <+: cs.dropWhile isWhitespace := by
    have suffix := List.dropWhile_suffix isWhitespace (l := (cs.dropWhile isWhitespace).reverse)
    have turned := List.reverse_prefix.2 suffix
    rwa [List.reverse_reverse] at turned
  have first : c ∈ (cs.dropWhile isWhitespace).head? := by
    obtain ⟨rest, whole⟩ := kept
    rw [← whole, List.head?_append]
    simp [Option.mem_def.1 member]
  have stops := List.head?_dropWhile_not isWhitespace cs
  rw [Option.mem_def.1 first] at stops
  exact stops

private theorem trim_last {cs : List Char} : ∀ c ∈ (trim cs).getLast?, isWhitespace c = false := by
  intro c member
  unfold trim at member
  rw [List.getLast?_reverse] at member
  have stops := List.head?_dropWhile_not isWhitespace (cs.dropWhile isWhitespace).reverse
  rw [Option.mem_def.1 member] at stops
  exact stops

theorem trim_trim (cs : List Char) : trim (trim cs) = trim cs :=
  trim_of_ends trim_head trim_last

private theorem toNat_toLower (c : Char) :
    c.toLower.toNat = if 65 ≤ c.toNat ∧ c.toNat ≤ 90 then c.toNat + 32 else c.toNat := by
  delta Char.toLower
  simp only [Char.toNat, ge_iff_le, UInt32.le_iff_toNat_le]
  simp only [show 'A'.val.toNat = 65 from rfl, show 'Z'.val.toNat = 90 from rfl]
  split
  next upper =>
      rw [UInt32.toNat_add]
      simp only [show ('a'.val - 'A'.val).toNat = 32 from rfl]
      omega
  next => rfl

private theorem toNat_toUpper (c : Char) :
    c.toUpper.toNat = if 97 ≤ c.toNat ∧ c.toNat ≤ 122 then c.toNat - 32 else c.toNat := by
  delta Char.toUpper
  simp only [Char.toNat, UInt32.le_iff_toNat_le]
  simp only [show 'a'.val.toNat = 97 from rfl, show 'z'.val.toNat = 122 from rfl]
  split
  next lower =>
      rw [UInt32.toNat_add]
      simp only [show ('A'.val - 'a'.val).toNat = 4294967264 from rfl]
      omega
  next => rfl

private theorem isUpper_iff : c.isUpper = true ↔ 65 ≤ c.toNat ∧ c.toNat ≤ 90 := by
  delta Char.isUpper
  simp [UInt32.le_iff_toNat_le, ← Char.toNat_val]

/-- Characters with one lower-case form are equal, or one is the capital of the other. -/
private theorem toLower_cases {u : Char} (same : c.toLower = u.toLower) :
    c = u ∨ (c.isUpper = true ∧ c.toNat + 32 = u.toNat) ∨
      (u.isUpper = true ∧ u.toNat + 32 = c.toNat) := by
  have codes : c.toLower.toNat = u.toLower.toNat := by rw [same]
  rw [toNat_toLower, toNat_toLower] at codes
  rw [← Char.toNat_inj, isUpper_iff, isUpper_iff]
  split at codes <;> split at codes <;> omega

theorem toUpper_of_not_lower (capital : ¬ (97 ≤ c.toNat ∧ c.toNat ≤ 122)) : c.toUpper = c := by
  rw [← Char.toNat_inj, toNat_toUpper, if_neg capital]

private theorem toUpper_of_lower {u : Char} (upper : u.isUpper = true) (code : u.toNat + 32 = c.toNat) :
    c.toNat < 128 ∧ c.toUpper = u := by
  rw [isUpper_iff] at upper
  rw [← Char.toNat_inj, toNat_toUpper]
  split <;> omega

private theorem isWhitespace_of_letter {u : Char} (upper : u.isUpper = true) (code : u.toNat + 32 = c.toNat) :
    isWhitespace c = false ∧ isWhitespace u = false := by
  rw [isUpper_iff] at upper
  simp only [isWhitespace, Bool.or_eq_false_iff, Bool.and_eq_false_iff, decide_eq_false_iff_not,
    beq_eq_false_iff_ne]
  omega

private theorem isWhitespace_congr {u : Char} (same : c.toLower = u.toLower) : isWhitespace c = isWhitespace u := by
  obtain rfl | ⟨upper, code⟩ | ⟨upper, code⟩ := toLower_cases same
  · rfl
  · obtain ⟨left, right⟩ := isWhitespace_of_letter upper code
    rw [left, right]
  · obtain ⟨left, right⟩ := isWhitespace_of_letter upper code
    rw [left, right]

private theorem trim_of_lower_eq {cs us : List Char}
    (same : cs.map Char.toLower = us.map Char.toLower)
    (first : ∀ u ∈ us.head?, isWhitespace u = false)
    (last : ∀ u ∈ us.getLast?, isWhitespace u = false) : trim cs = cs := by
  apply trim_of_ends
  · intro c member
    have image : (us.head?.map Char.toLower) = some c.toLower := by
      rw [← List.head?_map, ← same, List.head?_map, Option.mem_def.1 member, Option.map_some]
    obtain ⟨u, head, lower⟩ := Option.map_eq_some_iff.1 image
    rw [isWhitespace_congr lower.symm]
    exact first u head
  · intro c member
    have image : (us.getLast?.map Char.toLower) = some c.toLower := by
      rw [← List.getLast?_map, ← same, List.getLast?_map, Option.mem_def.1 member, Option.map_some]
    obtain ⟨u, end', lower⟩ := Option.map_eq_some_iff.1 image
    rw [isWhitespace_congr lower.symm]
    exact last u end'

/-- Texts without capitals that differ only in ASCII case are one. -/
theorem NoCapitals.eq {t : String} (left : NoCapitals s) (right : NoCapitals t) (same : eqIgnoreAsciiCase s t = true) :
    s = t := by
  have small : ∀ u : String, NoCapitals u → u.toList.map Char.toLower = u.toList := by
    intro u none
    refine (List.map_congr_left ?_).trans (List.map_id _)
    intro c member
    have lower : ¬ (65 ≤ c.toNat ∧ c.toNat ≤ 90) := by
      rw [← isUpper_iff, none c member]
      simp
    rw [id, ← Char.toNat_inj, toNat_toLower, if_neg lower]
  rw [eqIgnoreAsciiCase_iff, small s left, small t right] at same
  exact String.toList_injective same

section Normal

variable [UnicodeCase]

/-- Trimmed and upper-cased: how instruments are named. -/
def upperName (s : String) : String := toUppercase (trimmed s)

/-- Trimmed and lower-cased: how venues and asset classes are named. -/
def lowerName (s : String) : String := toLowercase (trimmed s)

private theorem upperChar_of_lower_eq {c u : Char} (same : c.toLower = u.toLower)
    (fixed : UnicodeCase.upperChar u = [u]) : UnicodeCase.upperChar c = [u] := by
  obtain rfl | ⟨upper, code⟩ | ⟨upper, code⟩ := toLower_cases same
  · exact fixed
  · -- The mapped text holds a small letter: its own image would be the capital.
    obtain ⟨ascii, capital⟩ := toUpper_of_lower upper code
    rw [UnicodeCase.upper_ascii u ascii, capital] at fixed
    have equal : c = u := by simpa using fixed
    rw [equal] at code
    omega
  · obtain ⟨ascii, capital⟩ := toUpper_of_lower upper code
    rw [UnicodeCase.upper_ascii c ascii, capital]

/-- Spellings that differ in the case of ASCII letters have one upper-case form. -/
theorem toUppercase_of_eqIgnoreAsciiCase {s t : String} (same : eqIgnoreAsciiCase s t = true) :
    toUppercase s = toUppercase t := by
  have chars : ∀ c u : Char, c.toLower = u.toLower → UnicodeCase.upperChar c = UnicodeCase.upperChar u := by
    intro c u lower
    obtain rfl | ⟨upper, code⟩ | ⟨upper, code⟩ := toLower_cases lower
    · rfl
    · obtain ⟨ascii, capital⟩ := toUpper_of_lower upper code
      have below := isUpper_iff.1 upper
      rw [UnicodeCase.upper_ascii u ascii, capital, UnicodeCase.upper_ascii c (by omega),
        toUpper_of_not_lower (by omega)]
    · obtain ⟨ascii, capital⟩ := toUpper_of_lower upper code
      have below := isUpper_iff.1 upper
      rw [UnicodeCase.upper_ascii c ascii, capital, UnicodeCase.upper_ascii u (by omega),
        toUpper_of_not_lower (by omega)]
  have whole := eqIgnoreAsciiCase_iff.1 same
  unfold toUppercase
  congr 1
  generalize s.toList = cs, t.toList = us at whole
  induction cs generalizing us with
  | nil =>
      cases us with
      | nil => rfl
      | cons u us => simp at whole
  | cons c cs ih =>
      cases us with
      | nil => simp at whole
      | cons u us =>
          simp only [List.map_cons, List.cons.injEq] at whole
          rw [List.flatMap_cons, List.flatMap_cons, chars c u whole.1, ih us whole.2]

private theorem upper_chars_of_lower_eq {cs us : List Char}
    (same : cs.map Char.toLower = us.map Char.toLower)
    (fixed : ∀ u ∈ us, UnicodeCase.upperChar u = [u]) :
    cs.flatMap UnicodeCase.upperChar = us := by
  induction cs generalizing us with
  | nil =>
      cases us with
      | nil => rfl
      | cons u us => simp at same
  | cons c cs ih =>
      cases us with
      | nil => simp at same
      | cons u us =>
          simp only [List.map_cons, List.cons.injEq] at same
          rw [List.flatMap_cons, upperChar_of_lower_eq same.1 (fixed u (by simp)),
            ih same.2 fun v member => fixed v (by simp [member])]
          rfl

private theorem upper_chars_fixed (cs : List Char) :
    ∀ u ∈ cs.flatMap UnicodeCase.upperChar, UnicodeCase.upperChar u = [u] := by
  intro u member
  obtain ⟨c, -, image⟩ := List.mem_flatMap.1 member
  exact UnicodeCase.upper_fixed c u image

private theorem upper_chars_head {cs : List Char}
    (first : ∀ c ∈ cs.head?, isWhitespace c = false) :
    ∀ u ∈ (cs.flatMap UnicodeCase.upperChar).head?, isWhitespace u = false := by
  cases cs with
  | nil => simp
  | cons c cs =>
      intro u member
      have nonempty := UnicodeCase.upper_nonempty c
      have visible := UnicodeCase.upper_visible c (first c rfl)
      cases image : UnicodeCase.upperChar c with
      | nil => exact absurd image nonempty
      | cons v vs =>
          simp only [List.flatMap_cons, image, List.cons_append, List.head?_cons, Option.mem_def,
            Option.some.injEq] at member
          subst member
          exact visible v (by simp [image])

private theorem upper_chars_last {cs : List Char}
    (last : ∀ c ∈ cs.getLast?, isWhitespace c = false) :
    ∀ u ∈ (cs.flatMap UnicodeCase.upperChar).getLast?, isWhitespace u = false := by
  cases cs using List.reverseRecOn with
  | nil => simp
  | append_singleton cs c =>
      intro u member
      have nonempty := UnicodeCase.upper_nonempty c
      have visible := UnicodeCase.upper_visible c (last c (by simp))
      obtain ⟨v, last⟩ := Option.ne_none_iff_exists'.1 (mt List.getLast?_eq_none_iff.1 nonempty)
      simp only [List.flatMap_append, List.flatMap_cons, List.flatMap_nil, List.append_nil,
        List.getLast?_append, last, Option.some_or, Option.mem_def, Option.some.injEq] at member
      subst member
      exact visible _ (List.mem_of_mem_getLast? last)

/-- Every spelling of an upper-case name has that name. -/
theorem upperName_of_eqIgnoreAsciiCase {s t : String}
    (same : eqIgnoreAsciiCase s (upperName t) = true) : upperName s = upperName t := by
  rw [eqIgnoreAsciiCase_iff] at same
  simp only [upperName, toUppercase, trimmed, String.toList_ofList] at same ⊢
  rw [trim_of_lower_eq same (upper_chars_head trim_head) (upper_chars_last trim_last),
    upper_chars_of_lower_eq same (upper_chars_fixed _)]

@[simp] theorem upperName_upperName (s : String) : upperName (upperName s) = upperName s := by
  apply upperName_of_eqIgnoreAsciiCase
  simp

@[simp] theorem trimmed_upperName (s : String) : trimmed (upperName s) = upperName s := by
  simp only [upperName, toUppercase, trimmed, String.toList_ofList]
  rw [trim_of_lower_eq rfl (upper_chars_head trim_head) (upper_chars_last trim_last)]

/-- Two upper-case names that differ only in ASCII case are one. -/
theorem upperName_inj {s t : String}
    (same : eqIgnoreAsciiCase (upperName s) (upperName t) = true) : upperName s = upperName t := by
  rw [← upperName_upperName s]
  exact upperName_of_eqIgnoreAsciiCase same

@[simp] theorem trimmed_lowerName (s : String) : trimmed (lowerName s) = lowerName s := by
  simp [trimmed, lowerName, toLowercase, UnicodeCase.lower_trimmed]

@[simp] theorem lowerName_lowerName (s : String) : lowerName (lowerName s) = lowerName s := by
  have text : trimmed (lowerName s) = lowerName s := trimmed_lowerName s
  calc
    lowerName (lowerName s) = toLowercase (lowerName s) := by rw [lowerName, text]
    _ = lowerName s := by simp [lowerName, toLowercase, UnicodeCase.lower_lower]

theorem noCapitals_lowerName (s : String) : NoCapitals (lowerName s) := by
  simpa [NoCapitals, lowerName, toLowercase] using UnicodeCase.lower_no_upper (trimmed s).toList

end Normal

theorem toUpper_toUpper (c : Char) : c.toUpper.toUpper = c.toUpper := by
  apply toUpper_of_not_lower
  rw [toNat_toUpper]
  split <;> omega

theorem isWhitespace_toUpper (visible : isWhitespace c = false) : isWhitespace c.toUpper = false := by
  simp only [isWhitespace, toNat_toUpper, Bool.or_eq_false_iff, Bool.and_eq_false_iff,
    decide_eq_false_iff_not, beq_eq_false_iff_ne] at visible ⊢
  split <;> omega

/-- The form in which names of ASCII tickers are looked up. -/
def asciiUpper (s : String) : String := String.ofList (s.toList.map Char.toUpper)

theorem asciiUpper_trimmed_again (s : String) :
    asciiUpper (trimmed (asciiUpper (trimmed s))) = asciiUpper (trimmed s) := by
  have ends : trim ((trim s.toList).map Char.toUpper) = (trim s.toList).map Char.toUpper := by
    apply trim_of_ends
    · intro c member
      rw [List.head?_map, Option.mem_def, Option.map_eq_some_iff] at member
      obtain ⟨first, head, rfl⟩ := member
      exact isWhitespace_toUpper (trim_head first head)
    · intro c member
      rw [List.getLast?_map, Option.mem_def, Option.map_eq_some_iff] at member
      obtain ⟨last, tail, rfl⟩ := member
      exact isWhitespace_toUpper (trim_last last tail)
  have twice : Char.toUpper ∘ Char.toUpper = Char.toUpper := funext toUpper_toUpper
  simp [asciiUpper, trimmed, ends, twice]

private theorem toLower_toLower (c : Char) : c.toLower.toLower = c.toLower := by
  rw [← Char.toNat_inj, toNat_toLower, toNat_toLower]
  grind

private theorem toLower_toUpper (c : Char) : c.toUpper.toLower = c.toLower := by
  rw [← Char.toNat_inj, toNat_toLower, toNat_toLower, toNat_toUpper]
  grind

/-- The table of a text that holds only ASCII characters. -/
@[reducible] def asciiCase : UnicodeCase where
  upperChar c := [c.toUpper]
  lowerChars cs := cs.map Char.toLower
  upper_ascii _ _ := rfl
  upper_nonempty _ := by simp
  upper_fixed c u member := by
    obtain rfl := List.mem_singleton.1 member
    have code : c.toUpper.toUpper.toNat = c.toUpper.toNat := by
      rw [toNat_toUpper, toNat_toUpper]
      grind
    rw [Char.toNat_inj.1 code]
  upper_visible c visible u member := by
    obtain rfl := List.mem_singleton.1 member
    rwa [isWhitespace_congr (toLower_toUpper c)]
  lower_lower cs := by
    rw [List.map_map]
    exact List.map_congr_left fun c _ => toLower_toLower c
  lower_trimmed cs := by
    apply trim_of_lower_eq _ trim_head trim_last
    · exact cs
    · rw [List.map_map]
      exact List.map_congr_left fun c _ => toLower_toLower c
  lower_no_upper cs c member := by
    obtain ⟨d, -, rfl⟩ := List.mem_map.1 member
    rw [Bool.eq_false_iff, Ne, isUpper_iff, toNat_toLower]
    split <;> omega

end Text
