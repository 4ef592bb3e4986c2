import SignalEngine.RebalancerCore.Compile
import SignalEngine.MandateCore.Valid

/-! # What a mandate compiles to

Which ratios and amounts are converted, and what each limit is worth afterwards.
-/

open MachineInt BrokerAdapters Outcome Text MandateCore

namespace RebalancerCore

open DecMath

/-! ## Ratios and amounts -/

theorem ratioAmount_ok {v : F64} {round : RatioRound} {a : Amount} (h : ratioAmount v round = .ok a) :
    ratioToDec v round = .ok a.toDec := by
  unfold ratioAmount at h
  split at h
  next d read =>
    cases h
    exact read
  next => cases h

theorem ratioAmount_of_ok {v : F64} {round : RatioRound} {d : Dec} (h : ratioToDec v round = .ok d) :
    ∃ a : Amount, ratioAmount v round = .ok a := by
  unfold ratioAmount
  split
  next d' read => exact ⟨_, rfl⟩
  next e failed =>
    rw [h] at failed
    cases failed

theorem ratioAmount_cut {v : F64} {a : Amount} (h : ratioAmount v .down = .ok a) : a.toDec.atto = v.cut :=
  (ratioToDec_ok (ratioAmount_ok h)).2.2

theorem ratioAmount_iff {v : F64} (usable : Usable v) : (∃ a, ratioAmount v .down = .ok a) ↔ v.Readable := by
  rw [← ratioToDec_down usable.finite usable.positive.le]
  exact ⟨fun ⟨a, read⟩ => ⟨_, ratioAmount_ok read⟩, fun ⟨_, read⟩ => ratioAmount_of_ok read⟩

theorem cut_mono {v w : F64} (le : v.value ≤ w.value) : v.cut ≤ w.cut :=
  Int.floor_le_floor (mul_le_mul_of_nonneg_right le (by positivity))

theorem cut_le_of_le {v : F64} {n : Int} (le : v.value ≤ n) : v.cut ≤ n * 10 ^ maxScale := by
  have scaled : v.value * 10 ^ maxScale ≤ ((n * 10 ^ maxScale : Int) : ℚ) := by
    push_cast
    exact mul_le_mul_of_nonneg_right le (by positivity)
  exact Int.cast_le.1 ((Int.floor_le _).trans scaled)

theorem cut_lt_of_lt {v : F64} {n : Int} (lt : v.value < n) : v.cut < n * 10 ^ maxScale := by
  rw [F64.cut, Int.floor_lt]
  push_cast
  exact mul_lt_mul_of_pos_right lt (by positivity)

theorem toRat_pos {d : Dec} : 0 < d.toRat ↔ 1 ≤ d.atto := by
  rw [Dec.toRat_eq_atto, div_pos_iff_of_pos_right (by positivity), Int.cast_pos]
  exact Int.lt_iff_add_one_le

theorem toRat_le {c d : Dec} : c.toRat ≤ d.toRat ↔ c.atto ≤ d.atto := by
  rw [Dec.toRat_eq_atto, Dec.toRat_eq_atto, div_le_div_iff_of_pos_right (by positivity), Int.cast_le]

theorem toRat_le_value {d : Dec} {v : F64} : d.toRat ≤ v.value ↔ d.atto ≤ v.cut := by
  rw [Dec.toRat_eq_atto, div_le_iff₀ (by positivity), F64.cut, Int.le_floor]

theorem cap_stricter {v : F64} {a : Amount} (read : ratioAmount v .down = .ok a) (least : 1 ≤ v.cut) :
    0 < a.toDec.toRat ∧ a.toDec.toRat ≤ v.value := by
  rw [toRat_pos, toRat_le_value, ratioAmount_cut read]
  exact ⟨least, le_rfl⟩

/-- The text is a decimal within the range of `Dec`. -/
def InRange (text : String) (l : Dec.Literal) : Prop :=
  Dec.readLiteral text.toList = some l ∧ l.frac.length < 2 ^ 32 ∧ l.AcceptedAt l.frac.length

/-- A positive amount is read exactly iff it is in range. -/
theorem parse_exact_iff {text : String} {l : Dec.Literal} (read : Dec.readLiteral text.toList = some l)
    (positive : 0 < l.value) :
    (∃ d, Dec.parse text = .ok d ∧ d.toRat = l.value) ↔ InRange text l := by
  have nonzero : l.mantissa ≠ 0 := by
    intro zero
    rw [Dec.Literal.value, l.valueAt_of_mantissa_zero zero] at positive
    exact lt_irrefl _ positive
  constructor
  · rintro ⟨d, parsed, exact⟩
    rcases Dec.parseCalc_cases read with ⟨r, run, accepted, value⟩ | ⟨run, -⟩ | ⟨run, -⟩
    · have same : r = d := by
        rw [Dec.parse, run] at parsed
        cases parsed
        rfl
      rw [← same, value, Dec.Literal.value] at exact
      have point := l.valueAt_inj nonzero exact
      have small := Nat.mod_lt l.frac.length (by decide : 0 < 2 ^ 32)
      rw [point] at accepted small
      exact ⟨read, small, accepted⟩
    · rw [Dec.parse, run] at parsed
      cases parsed
    · rw [Dec.parse, run] at parsed
      cases parsed
  · rintro ⟨-, small, accepted⟩
    have point : l.frac.length % 2 ^ 32 = l.frac.length := Nat.mod_eq_of_lt small
    rcases Dec.parseCalc_cases read with ⟨r, run, -, value⟩ | ⟨-, refused⟩ | ⟨-, nonneg, -, precise⟩
    · rw [point] at value
      exact ⟨r, by rw [Dec.parse, run]; rfl, value⟩
    · rw [point] at refused
      exact absurd accepted refused
    · rw [← point, Dec.Literal.acceptedAt_read, if_neg (not_lt.2 nonneg)] at accepted
      exact absurd accepted.2.2 precise

theorem moneyAmount_ok {m : Money} {a : Amount} (h : moneyAmount m = .ok a) :
    Dec.parse (trimmed m.amount) = .ok a.toDec := by
  simp only [moneyAmount, bind_eq_ok] at h
  obtain ⟨d, read, kept⟩ := h
  split at kept
  next =>
    cases kept
    unfold moneyDec at read
    split at read
    next parsed => cases read; exact parsed
    next => cases read
  next => cases kept

theorem moneyAmount_of_parse {m : Money} {d : Dec} (parsed : Dec.parse (trimmed m.amount) = .ok d)
    (nonneg : 0 ≤ d.atto) : moneyAmount m = .ok ⟨d, nonneg⟩ := by
  have read : moneyDec m = .ok d := by
    unfold moneyDec
    rw [parsed]
  simp only [moneyAmount, read, bind, Except.bind]
  rw [dif_pos nonneg]

/-! ## Classes -/

/-- The last entry of the class, in the order of the names. -/
def lastOf [UnicodeCase] (entries : List (String × F64)) (key : String) : Option (String × F64) :=
  (entries.filter fun e => lowerName e.1 = key).getLast?

section Classes

variable [UnicodeCase]

theorem lastOf_append (entries : List (String × F64)) (entry : String × F64) (key : String) :
    lastOf (entries ++ [entry]) key = if lowerName entry.1 = key then some entry else lastOf entries key := by
  by_cases same : lowerName entry.1 = key <;> simp [lastOf, List.filter_append, same]

variable {entries : List (String × F64)}

theorem lastOf_mem {key : String} {last : String × F64} (found : lastOf entries key = some last) :
    last ∈ entries ∧ lowerName last.1 = key := by
  have member := List.mem_filter.1 (List.mem_of_getLast? found)
  exact ⟨member.1, by simpa using member.2⟩

theorem lastOf_isSome {entry : String × F64} (member : entry ∈ entries) :
    ∃ last, lastOf entries (lowerName entry.1) = some last := by
  have kept : entry ∈ entries.filter fun e => lowerName e.1 = lowerName entry.1 :=
    List.mem_filter.2 ⟨member, by simp⟩
  cases found : lastOf entries (lowerName entry.1) with
  | some last => exact ⟨last, rfl⟩
  | none =>
      rw [lastOf, List.getLast?_eq_none_iff] at found
      rw [found] at kept
      cases kept

theorem addClasses_ok : ∀ {classes : ClassCaps},
    entries.foldlM addClass .empty = .ok classes →
      (∀ entry ∈ entries, ∃ a, ratioAmount entry.2 .down = .ok a) ∧
      ∀ key a, classes.caps[key]? = some a ↔
        ∃ last, lastOf entries key = some last ∧ ratioAmount last.2 .down = .ok a := by
  induction entries using List.reverseRecOn with
  | nil =>
      intro classes h
      cases h
      refine ⟨by simp, fun key a => ?_⟩
      simp [ClassCaps.empty, lastOf]
  | append_singleton entries entry ih =>
      intro classes h
      rw [List.foldlM_append, bind_eq_ok] at h
      obtain ⟨before, earlier, last⟩ := h
      simp only [List.foldlM_cons, List.foldlM_nil, addClass, bind_eq_ok] at last
      obtain ⟨classes', ⟨cap, read, inserted⟩, same⟩ := last
      cases inserted
      cases same
      obtain ⟨readable, caps⟩ := ih earlier
      refine ⟨?_, fun key a => ?_⟩
      · intro e member
        rcases List.mem_append.1 member with old | new
        · exact readable e old
        · obtain rfl := List.mem_singleton.1 new
          exact ⟨cap, read⟩
      · rw [ClassCaps.insert, Std.ExtTreeMap.getElem?_insert, lastOf_append]
        by_cases same : lowerName entry.1 = key
        · rw [if_pos (by rw [same]; exact Std.ReflCmp.compare_self), if_pos same]
          constructor
          · intro is
            cases is
            exact ⟨entry, rfl, read⟩
          · rintro ⟨last, is, read'⟩
            cases is
            rw [read] at read'
            cases read'
            rfl
        · rw [if_neg (fun equal => same (Std.LawfulEqCmp.eq_of_compare equal)), if_neg same]
          exact caps key a

theorem addClasses_of_readable (readable : ∀ entry ∈ entries, ∃ a, ratioAmount entry.2 .down = .ok a)
    (classes : ClassCaps) :
    ∃ classes', entries.foldlM addClass classes = .ok classes' := by
  induction entries generalizing classes with
  | nil => exact ⟨classes, rfl⟩
  | cons entry entries ih =>
      obtain ⟨cap, read⟩ := readable entry (by simp)
      have added : addClass classes entry = .ok (classes.insert entry.1 cap) := by
        simp only [addClass, read, bind, Except.bind]
      obtain ⟨classes', rest⟩ := ih (fun e member => readable e (List.mem_cons_of_mem _ member))
        (classes.insert entry.1 cap)
      refine ⟨classes', ?_⟩
      rw [List.foldlM_cons, added]
      exact rest

end Classes

/-! ## The limits -/

/-- Where the limits come from. -/
structure Converted [UnicodeCase] (b : MandateBody) (limits : Limits) : Prop where
  leverage : ratioAmount b.«universe».leverageMaxGross .down = .ok limits.leverageMaxGross
  gross : ∃ gross, ratioAmount b.exposure.maxGross .down = .ok gross ∧
    limits.maxGross = if gross.toDec ≤ limits.leverageMaxGross.toDec then gross else limits.leverageMaxGross
  classes : ∃ classes : ClassCaps, b.exposure.maxAssetClass.toList.foldlM addClass .empty = .ok classes ∧
    limits.maxAssetClass = classes.caps
  allocated : moneyAmount b.capital.allocated = .ok limits.allocated
  reserve : ratioAmount b.capital.minCashReserve .up = .ok limits.minCashReserve
  position : ratioAmount b.exposure.maxPosition .down = .ok limits.maxPosition
  net : ratioAmount b.exposure.maxNet .down = .ok limits.maxNet
  notional : moneyAmount b.exposure.maxOrderNotional = .ok limits.maxOrderNotional
  turnover : ratioAmount b.exposure.maxTurnoverPerDay .down = .ok limits.maxTurnoverPerDay

section Limits

variable [UnicodeCase] {b : MandateBody} {limits : Limits}

theorem convert_ok (h : convert b = .ok limits) : Converted b limits := by
  simp only [convert, bind_eq_ok, Except.ok.injEq] at h
  obtain ⟨leverage, readLeverage, gross, readGross, classes, readClasses, allocated, readAllocated, reserve,
    readReserve, position, readPosition, net, readNet, notional, readNotional, turnover, readTurnover, rfl⟩ := h
  exact ⟨readLeverage, ⟨gross, readGross, rfl⟩, ⟨classes, readClasses, rfl⟩, readAllocated, readReserve,
    readPosition, readNet, readNotional, readTurnover⟩

/-- All ratios a cap is made of. -/
def capRatios (b : MandateBody) : List F64 :=
  [b.«universe».leverageMaxGross, b.exposure.maxGross, b.exposure.maxPosition, b.exposure.maxNet,
    b.exposure.maxTurnoverPerDay] ++ b.exposure.maxAssetClass.toList.map Prod.snd

theorem convert_of_readable (caps : ∀ v ∈ capRatios b, ∃ a, ratioAmount v .down = .ok a)
    (reserve : ∃ a, ratioAmount b.capital.minCashReserve .up = .ok a)
    (allocated : ∃ a, moneyAmount b.capital.allocated = .ok a)
    (notional : ∃ a, moneyAmount b.exposure.maxOrderNotional = .ok a) : ∃ limits, convert b = .ok limits := by
  obtain ⟨leverage, readLeverage⟩ := caps b.«universe».leverageMaxGross (by simp [capRatios])
  obtain ⟨gross, readGross⟩ := caps b.exposure.maxGross (by simp [capRatios])
  obtain ⟨position, readPosition⟩ := caps b.exposure.maxPosition (by simp [capRatios])
  obtain ⟨net, readNet⟩ := caps b.exposure.maxNet (by simp [capRatios])
  obtain ⟨turnover, readTurnover⟩ := caps b.exposure.maxTurnoverPerDay (by simp [capRatios])
  have each : ∀ entry ∈ b.exposure.maxAssetClass.toList, ∃ a, ratioAmount entry.2 .down = .ok a := fun entry member =>
    caps entry.2 (List.mem_append_right _ (List.mem_map_of_mem member))
  obtain ⟨classes, readClasses⟩ := addClasses_of_readable each .empty
  obtain ⟨reserve, readReserve⟩ := reserve
  obtain ⟨allocated, readAllocated⟩ := allocated
  obtain ⟨notional, readNotional⟩ := notional
  simp only [convert, readLeverage, readGross, readClasses, readAllocated, readReserve, readPosition, readNet,
    readNotional, readTurnover, ok_bind]
  exact ⟨_, rfl⟩

theorem Converted.gross_cut (converted : Converted b limits)
    (within : b.exposure.maxGross.value ≤ b.«universe».leverageMaxGross.value) :
    limits.maxGross.toDec.atto = b.exposure.maxGross.cut := by
  obtain ⟨gross, read, limit⟩ := converted.gross
  have le : gross.toDec ≤ limits.leverageMaxGross.toDec := by
    rw [Dec.le_iff, ratioAmount_cut read, ratioAmount_cut converted.leverage]
    exact cut_mono within
  rw [limit, if_pos le]
  exact ratioAmount_cut read

end Limits

end RebalancerCore
