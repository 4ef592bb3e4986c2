import SignalEngine.RebalancerCore.Planner
import SignalEngine.RebalancerCore.Exposure

/-! # Books of positions

What changing one position does to a book, and which changes keep the exposure
limits of a mandate: selling part of a position, or an order the guard has let
through.
-/

open BrokerAdapters Outcome Text

namespace RebalancerCore

section Books

/-- Positions with distinct symbols. -/
def Distinct (positions : List Position) : Prop :=
  positions.Pairwise fun p q => eqIgnoreAsciiCase p.symbol q.symbol = false

instance (positions : List Position) : Decidable (Distinct positions) :=
  inferInstanceAs (Decidable (List.Pairwise _ _))

theorem total_split (f : Position → Int) (symbol : String) (keep : Position → Bool)
    (ps : List Position) : total f (ps.filter keep) =
      total f ((traded symbol ps).filter keep) + total f ((others symbol ps).filter keep) := by
  induction ps with
  | nil => rfl
  | cons p ps ih =>
      cases mine : p.isOf symbol <;> cases kept : keep p <;>
        simp [traded, others, mine, kept, total_cons] at ih ⊢ <;> omega

theorem traded_eq_nil {symbol : String} {ps : List Position}
    (h : ∀ p ∈ ps, p.isOf symbol = false) : traded symbol ps = [] ∧ others symbol ps = ps := by
  constructor
  · rw [traded, List.filter_eq_nil_iff]
    intro p member
    simp [h p member]
  · rw [others, List.filter_eq_self]
    intro p member
    simp [h p member]

theorem traded_eq_of_mem {symbol : String} {positions : List Position} {q : Position}
    (distinct : Distinct positions) (member : q ∈ positions) (ours : q.isOf symbol = true) :
    traded symbol positions = [q] := by
  induction positions with
  | nil => cases member
  | cons first rest ih =>
      obtain ⟨apart, distinct⟩ := List.pairwise_cons.1 distinct
      obtain rfl | later := List.mem_cons.1 member
      · have foreign : ∀ r ∈ rest, r.isOf symbol = false := by
          intro r inside
          rw [Position.isOf, Bool.eq_false_iff]
          intro mine
          have together := eqIgnoreAsciiCase_trans ours (eqIgnoreAsciiCase_symm mine)
          rw [apart r inside] at together
          cases together
        have none := (traded_eq_nil foreign).1
        rw [traded] at none ⊢
        simp [ours, none]
      · have foreign : first.isOf symbol = false := by
          rw [Position.isOf, Bool.eq_false_iff]
          intro mine
          have together := eqIgnoreAsciiCase_trans mine (eqIgnoreAsciiCase_symm ours)
          rw [apart q later] at together
          cases together
        have tail := ih distinct later
        rw [traded] at tail ⊢
        simp [foreign, tail]

structure Updated (m : Instrument) (quantity value : Dec) (ps ps' : List Position) : Prop where
  others_eq : others m.symbol ps' = others m.symbol ps
  traded_eq :
    (traded m.symbol ps = [] ∧
      traded m.symbol ps' = [⟨m.symbol, m.venue, m.assetClass, quantity, value⟩]) ∨
    ∃ p p' : Position, traded m.symbol ps = [p] ∧ traded m.symbol ps' = [p'] ∧
      p'.symbol = p.symbol ∧ p'.assetClass = p.assetClass ∧
      p'.quantity.atto = p.quantity.atto + quantity.atto ∧ p'.value = p.value + value.atto
  distinct : Distinct ps'
  /-- The symbols are the old ones and at most the instrument's own. -/
  symbols : ∀ p' ∈ ps', p'.symbol = m.symbol ∨ ∃ p ∈ ps, p'.symbol = p.symbol

theorem updatePosition_ok {m : Instrument} {quantity value : Dec} {ps ps' : List Position}
    (distinct : Distinct ps) (h : updatePosition m quantity value ps = .ok ps') :
    Updated m quantity value ps ps' := by
  induction ps generalizing ps' with
  | nil =>
      obtain rfl := Except.ok.inj h
      refine ⟨?_, .inl ⟨rfl, ?_⟩, List.pairwise_singleton .., by simp⟩
      · simp [others, Position.isOf]
      · simp [traded, Position.isOf]
  | cons p ps ih =>
      obtain ⟨apart, rest⟩ := List.pairwise_cons.1 distinct
      unfold updatePosition at h
      split at h
      next same =>
          obtain ⟨q, sum, h⟩ := bind_eq_ok.1 h
          obtain ⟨v, worth, h⟩ := bind_eq_ok.1 h
          obtain rfl := Except.ok.inj h
          have head : ∀ p' : Position, p'.symbol = p.symbol → traded m.symbol (p' :: ps) = [p'] := by
            intro p' symbol
            apply traded_eq_of_mem _ (by simp)
            · rw [Position.isOf, symbol]
              exact same
            · refine List.pairwise_cons.2 ⟨?_, rest⟩
              rw [symbol]
              exact apart
          refine ⟨?_, .inr ⟨p, { p with quantity := q, marketValue := v }, head p rfl, head _ rfl,
            rfl, rfl, DecMath.add_ok sum, DecMath.add_ok worth⟩, ?_, ?_⟩
          · simp [others, Position.isOf, same]
          · exact List.pairwise_cons.2 ⟨apart, rest⟩
          · intro p' member
            obtain rfl | old := List.mem_cons.1 member
            · exact .inr ⟨p, by simp, rfl⟩
            · exact .inr ⟨p', by simp [old], rfl⟩
      next other =>
          obtain ⟨tail, updated, h⟩ := bind_eq_ok.1 h
          obtain rfl := Except.ok.inj h
          have inner := ih rest updated
          have foreign : p.isOf m.symbol = false := Bool.eq_false_iff.2 other
          have skip : ∀ qs, traded m.symbol (p :: qs) = traded m.symbol qs := by
            intro qs
            simp [traded, foreign]
          refine ⟨?_, ?_, ?_, ?_⟩
          · have tails := inner.others_eq
            simp only [others] at tails
            simp [others, foreign, tails]
          · rw [skip, skip]
            exact inner.traded_eq
          · refine List.pairwise_cons.2 ⟨?_, inner.distinct⟩
            intro q member
            obtain own | ⟨old, inside, own⟩ := inner.symbols q member
            · rw [own]
              exact foreign
            · rw [own]
              exact apart old inside
          · intro p' member
            obtain rfl | inside := List.mem_cons.1 member
            · exact .inr ⟨p', by simp, rfl⟩
            · obtain own | ⟨old, known, own⟩ := inner.symbols p' inside
              · exact .inl own
              · exact .inr ⟨old, by simp [known], own⟩

theorem traded_update_other {m : Instrument} {quantity value : Dec} {ps ps' : List Position}
    {symbol : String} (apart : eqIgnoreAsciiCase m.symbol symbol = false) (distinct : Distinct ps)
    (h : updatePosition m quantity value ps = .ok ps') : traded symbol ps' = traded symbol ps := by
  have updated := updatePosition_ok distinct h
  -- Positions of the other symbol are among the others of this one.
  have inOthers : ∀ qs, traded symbol qs = traded symbol (others m.symbol qs) := by
    intro qs
    rw [traded, traded, others, List.filter_filter]
    apply List.filter_congr
    intro q _
    cases mine : q.isOf symbol with
    | false => simp
    | true =>
        have foreign : q.isOf m.symbol = false := by
          rw [Position.isOf, Bool.eq_false_iff]
          intro same
          rw [eqIgnoreAsciiCase_trans (eqIgnoreAsciiCase_symm same) mine] at apart
          cases apart
        simp [foreign]
  rw [inOthers ps', updated.others_eq, ← inOthers ps]

end Books

section Caps

/-- A value is at most a fraction of the capital base. -/
def UnderCap (fraction base : Dec) (x : Int) : Prop :=
  x * 10 ^ maxScale ≤ fraction.atto * base.atto

instance (fraction base : Dec) (x : Int) : Decidable (UnderCap fraction base x) :=
  inferInstanceAs (Decidable (_ ≤ _))

theorem UnderCap.mono {fraction base : Dec} {x y : Int} (under : UnderCap fraction base y)
    (le : x ≤ y) : UnderCap fraction base x :=
  (Int.mul_le_mul_of_nonneg_right le (Dec.ten_pow_pos _).le).trans under

theorem Guard.Within.underCap {fraction base v : Dec} (within : Guard.Within fraction base v) :
    UnderCap fraction base v.atto := by
  obtain ⟨cap, product, le⟩ := within
  rw [Dec.le_iff, DecMath.mul_ok product] at le
  have floor := Int.ediv_mul_le (fraction.atto * base.atto) (Dec.ten_pow_pos maxScale).ne'
  exact (Int.mul_le_mul_of_nonneg_right le (Dec.ten_pow_pos _).le).trans floor

/-- The exposure limits of a mandate hold over the positions as they are valued. -/
structure WithinCaps (limits : Limits) (base : Dec) (positions : List Position) : Prop where
  position : ∀ p ∈ positions, UnderCap limits.maxPosition base p.size
  assetClass : ∀ (k : String) (cap : Amount), limits.maxAssetClass[k]? = some cap →
    UnderCap cap base (total Position.size (positions.filter (Position.inClass k)))
  gross : UnderCap limits.maxGross base (total Position.size positions)
  net : UnderCap limits.maxNet base |total Position.value positions|

theorem mem_traded_or_others {s : String} {ps : List Position} {p : Position}
    (member : p ∈ ps) : p ∈ traded s ps ∨ p ∈ others s ps := by
  cases mine : p.isOf s with
  | true => exact .inl (List.mem_filter.2 ⟨member, mine⟩)
  | false => exact .inr (List.mem_filter.2 ⟨member, by simp [mine]⟩)

theorem total_of_traded {f : Position → Int} {symbol : String} {ps : List Position} {p : Position}
    (one : traded symbol ps = [p]) : total f ps = f p + total f (others symbol ps) := by
  have split := total_split f symbol (fun _ => true) ps
  simpa [one] using split

theorem total_class_of_traded {f : Position → Int} {symbol k : String} {ps : List Position}
    {p : Position} (one : traded symbol ps = [p]) :
    total f (ps.filter (Position.inClass k)) =
      (if p.inClass k then f p else 0) + total f ((others symbol ps).filter (Position.inClass k)) := by
  rw [total_split f symbol, one]
  cases inside : p.inClass k <;> simp [inside]

theorem total_le_of_filter {symbol k : String} {ps : List Position} :
    total Position.size ((others symbol ps).filter (Position.inClass k)) ≤
      total Position.size (ps.filter (Position.inClass k)) := by
  have split := total_split Position.size symbol (Position.inClass k) ps
  have nonneg : 0 ≤ total Position.size ((traded symbol ps).filter (Position.inClass k)) :=
    total_nonneg fun p _ => p.size_nonneg
  omega

variable {m : Instrument} {quantity value : Dec} {ps ps' : List Position} {limits : Limits}
  {base : Dec}

theorem Updated.sell_keeps_caps {p : Position} (updated : Updated m quantity value ps ps')
    (long : ∀ q ∈ ps, 0 ≤ q.value) (held : traded m.symbol ps = [p])
    (down : value.atto ≤ 0) (part : -value.atto ≤ p.value) (caps : WithinCaps limits base ps) :
    WithinCaps limits base ps' := by
  obtain ⟨none, -⟩ | ⟨p₀, p', old, new, -, sameClass, -, worth⟩ := updated.traded_eq
  · rw [held] at none
    cases none
  rw [held] at old
  obtain rfl : p = p₀ := by simpa using old
  have member : p ∈ ps := by
    have inside : p ∈ traded m.symbol ps := by simp [held]
    exact (List.mem_filter.1 inside).1
  have size : p'.size ≤ p.size := by
    simp only [Position.size, Position.value] at worth part ⊢
    rw [abs_of_nonneg (by omega), abs_of_nonneg (by omega)]
    omega
  constructor
  case position =>
      intro q inside
      obtain mine | other := mem_traded_or_others (s := m.symbol) inside
      · rw [new, List.mem_singleton] at mine
        rw [mine]
        exact (caps.position p member).mono size
      · rw [updated.others_eq] at other
        exact caps.position q (List.mem_filter.1 other).1
  case assetClass =>
      intro k cap known
      refine (caps.assetClass k cap known).mono ?_
      rw [total_class_of_traded new, total_class_of_traded held, updated.others_eq]
      have same : p'.inClass k = p.inClass k := by rw [Position.inClass, sameClass, Position.inClass]
      rw [same]
      split <;> omega
  case gross =>
      refine caps.gross.mono ?_
      rw [total_of_traded new, total_of_traded held, updated.others_eq]
      omega
  case net =>
      have othersNonneg : 0 ≤ total Position.value (others m.symbol ps) :=
        total_nonneg fun q other => long q (List.mem_filter.1 other).1
      refine caps.net.mono ?_
      rw [total_of_traded new, total_of_traded held, updated.others_eq,
        abs_of_nonneg (by omega), abs_of_nonneg (by omega)]
      omega

theorem Position.inClass_unique {p : Position} {k c : String} (left : NoCapitals k)
    (right : NoCapitals c) (first : p.inClass k = true) (second : p.inClass c = true) : k = c :=
  left.eq right (eqIgnoreAsciiCase_trans (eqIgnoreAsciiCase_symm first) second)

variable [UnicodeCase]

theorem Updated.order_keeps_caps {account : AccountView} {order : ProposedOrder}
    {rule : Option InstrumentVenueRule} {held notional : Dec} {after : Guard.After}
    (updated : Updated m quantity value account.positions ps')
    (symbol : trimmed order.symbol = m.symbol) (lower : lowerName order.assetClass = m.assetClass)
    (change : value.atto = Side.signed order.side notional.atto)
    (classes : ∀ p' ∈ traded m.symbol ps', p'.inClass m.assetClass = true)
    (projects : Guard.Projects account order notional (lowerName order.assetClass) after)
    (exposure : Guard.ExposureWithin limits held order rule base notional after)
    (caps : WithinCaps limits base account.positions) : WithinCaps limits base ps' := by
  have book : ∃ p', traded m.symbol ps' = [p'] ∧ p'.value =
      Side.signed order.side notional.atto +
        total Position.value (traded m.symbol account.positions) := by
    obtain ⟨none, new⟩ | ⟨p, p', old, new, -, -, -, worth⟩ := updated.traded_eq
    · refine ⟨_, new, ?_⟩
      rw [none]
      simpa [Position.value] using change
    · refine ⟨p', new, ?_⟩
      rw [old, worth, change]
      simp
      omega
  obtain ⟨p', new, worth⟩ := book
  have ours : p'.inClass m.assetClass = true := classes p' (by simp [new])
  obtain ⟨position, gross, net, classGross, -⟩ := projects
  rw [symbol] at position gross net classGross
  rw [← worth] at position net
  have size : after.positionValue.atto = p'.size := position
  constructor
  case position =>
      intro q inside
      obtain mine | other := mem_traded_or_others (s := m.symbol) inside
      · rw [new, List.mem_singleton] at mine
        rw [mine, ← size]
        exact exposure.position.underCap
      · rw [updated.others_eq] at other
        exact caps.position q (List.mem_filter.1 other).1
  case assetClass =>
      intro k cap known
      rw [total_class_of_traded new, updated.others_eq]
      split
      next inside =>
          -- The class of the order: the guard has checked it.
          have named : k = m.assetClass := by
            apply Position.inClass_unique _ _ inside ours
            · exact limits.classes_lower k (Std.ExtTreeMap.mem_iff_isSome_getElem?.2 (by simp [known]))
            · rw [← lower]
              exact noCapitals_lowerName _
          rw [named, ← lower] at known
          have within := (exposure.assetClass cap known).underCap
          rw [classGross, size, lower, ← named] at within
          rwa [add_comm]
      next =>
          refine (caps.assetClass k cap known).mono ?_
          rw [zero_add]
          exact total_le_of_filter
  case gross =>
      have within := exposure.gross.underCap
      rw [gross, size] at within
      rw [total_of_traded new, updated.others_eq, add_comm]
      exact within
  case net =>
      obtain ⟨net', magnitude, inside⟩ := exposure.net
      have within := inside.underCap
      rw [DecMath.abs_ok magnitude, net] at within
      rw [total_of_traded new, updated.others_eq, add_comm]
      exact within

end Caps

end RebalancerCore
