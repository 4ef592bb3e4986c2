import SignalEngine.ExecutionHandler.PositionTracker
import Mathlib.Algebra.BigOperators.Group.Finset.Basic
import Mathlib.Tactic.NormNum

/-! # Fills the tracker acknowledges

Every call is answered with success, so the quantities agree with the acknowledged
fills as long as no fill is turned away by its position, or none that would have
changed a quantity.
-/

namespace ExecutionHandler

/-! ## What a call does to the quantities -/

def TrackerCall.fills (key : String × String) : TrackerCall → Prop
  | updateFill symbol exchange _ _ _ _ => (symbol, exchange) = key
  | updateMarketPrice _ _ _ => False

/-- The call brings no fill that its position turns away, unless it is one of nothing. -/
def TrackerCall.Recorded : TrackerCall → Prop
  | updateFill _ _ fillQuantity fillPrice fees _ => ValidFill fillQuantity fillPrice fees ∨ fillQuantity = .finite 0
  | updateMarketPrice _ _ _ => True

namespace PositionTracker

variable (t : PositionTracker) (symbol : String)

theorem getPosition_updateFill (exchange : String) (fillQuantity fillPrice fees : FloatArg) (timestamp : Nat)
    (key : String × String) :
    ∃ position, (t.updateFill symbol exchange fillQuantity fillPrice fees timestamp).1.positions.get key =
        (if key = (symbol, exchange) then some position else t.positions.get key) ∧
      (((t.positions.get (symbol, exchange)).getD (.new symbol exchange timestamp)).updateFill fillQuantity fillPrice
          fees timestamp = .ok position ∨
        ¬ ValidFill fillQuantity fillPrice fees ∧
          position = (t.positions.get (symbol, exchange)).getD (.new symbol exchange timestamp)) := by
  refine ⟨_, Registry.get_insert _ _ _ _, ?_⟩
  generalize (t.positions.get (symbol, exchange)).getD (.new symbol exchange timestamp) = pos
  cases answered : pos.updateFill fillQuantity fillPrice fees timestamp with
  | ok updated => exact .inl rfl
  | error message =>
      refine .inr ⟨?_, rfl⟩
      rintro ⟨q, p, f, rfl, rfl, rfl, valid⟩
      have accepted := (Position.updateFill_ok_iff pos timestamp).2
        ⟨q, p, f, ⟨rfl, rfl, rfl, valid⟩, rfl⟩
      cases answered.symm.trans accepted

theorem stored_getD (exchange : String) (timestamp : Nat) :
    ((t.positions.get (symbol, exchange)).getD (.new symbol exchange timestamp)).quantity =
      t.stored (symbol, exchange) := by
  unfold stored getPosition
  cases t.positions.get (symbol, exchange) <;> rfl

theorem stored_fill (exchange : String) {fillQuantity fillPrice fees : FloatArg} {timestamp : Nat} {quantity : ℚ}
    (valid : ValidFill fillQuantity fillPrice fees) (filled : fillQuantity = .finite quantity) :
    (t.updateFill symbol exchange fillQuantity fillPrice fees timestamp).1.stored (symbol, exchange) =
      t.stored (symbol, exchange) + quantity := by
  obtain ⟨position, there, accepted | ⟨invalid, -⟩⟩ :=
    t.getPosition_updateFill symbol exchange fillQuantity fillPrice fees timestamp (symbol, exchange)
  · obtain ⟨q, p, f, ⟨same, -⟩, rfl⟩ := (Position.updateFill_ok_iff _ _).1 accepted
    obtain rfl := FloatArg.finite.inj (filled.symm.trans same)
    rw [← stored_getD t symbol exchange timestamp, ← Position.fill_quantity _ quantity p timestamp]
    simp only [stored, getPosition, there, if_true, Option.map_some, Option.getD_some]
  · exact absurd valid invalid

theorem stored_refused (exchange : String) {fillQuantity fillPrice fees : FloatArg} {timestamp : Nat}
    (invalid : ¬ ValidFill fillQuantity fillPrice fees) :
    (t.updateFill symbol exchange fillQuantity fillPrice fees timestamp).1.stored (symbol, exchange) =
      t.stored (symbol, exchange) := by
  obtain ⟨position, there, accepted | ⟨-, kept⟩⟩ :=
    t.getPosition_updateFill symbol exchange fillQuantity fillPrice fees timestamp (symbol, exchange)
  · obtain ⟨q, p, f, ⟨quantity, price, fee, valid⟩, -⟩ := (Position.updateFill_ok_iff _ _).1 accepted
    exact absurd ⟨q, p, f, quantity, price, fee, valid⟩ invalid
  · rw [← stored_getD t symbol exchange timestamp, ← kept]
    simp only [stored, getPosition, there, if_true, Option.map_some, Option.getD_some]

theorem stored_other {call : TrackerCall} {key : String × String} (other : ¬ call.fills key) :
    (t.after call).stored key = t.stored key := by
  cases call with
  | updateFill symbol exchange fillQuantity fillPrice fees timestamp =>
      obtain ⟨position, there, -⟩ :=
        t.getPosition_updateFill symbol exchange fillQuantity fillPrice fees timestamp key
      rw [if_neg (Ne.symm other)] at there
      simp only [after, step, stored, getPosition, there]
  | updateMarketPrice symbol price timestamp =>
      simp only [after, step, updateMarketPrice, stored, getPosition, Registry.get_modifyAll, Option.map_map]
      cases t.positions.get key with
      | none => rfl
      | some position =>
          simp only [Option.map_some, Option.getD_some, Function.comp_apply]
          split
          · split
            next marked => exact Position.updateUnrealizedPnl_quantity marked
            next => rfl
          · rfl

theorem step_ok (call : TrackerCall) : (t.step call).2 = .ok () := by
  cases call with
  | updateFill => rfl
  | updateMarketPrice => rfl

theorem acknowledged_append (key : String × String) {first second : List TrackerCall} : ∀ {t : PositionTracker},
    acknowledged key t (first ++ second) = acknowledged key t first ++ acknowledged key (t.run first) second := by
  induction first with
  | nil => exact rfl
  | cons call first ih =>
      intro t
      rw [List.cons_append, acknowledged, acknowledged, ih, List.append_assoc]
      rfl

end PositionTracker

/-! ## The sum of the positions of a symbol -/

/-- The values of a list without repetitions are those of every longer one, where the
    others have none. -/
theorem sum_filterMap_eq {α : Type} [DecidableEq α] {f : α → Option ℚ} (part whole : List α) (nodup : part.Nodup)
    (nodup' : whole.Nodup) (listed : ∀ a ∈ part, a ∈ whole) (covered : ∀ a ∈ whole, (f a).isSome → a ∈ part) :
    (part.filterMap f).sum = (whole.map fun a => (f a).getD 0).sum := by
  have spelled (l : List α) : (l.filterMap f).sum = (l.map fun a => (f a).getD 0).sum := by
    induction l with
    | nil => rfl
    | cons a l ih =>
        cases value : f a with
        | none => simp [List.filterMap_cons_none value, value, ih]
        | some q => simp [List.filterMap_cons_some value, value, ih]
  rw [spelled, ← List.sum_toFinset _ nodup, ← List.sum_toFinset _ nodup']
  apply Finset.sum_subset
  · intro a member
    exact List.mem_toFinset.2 (listed a (List.mem_toFinset.1 member))
  · intro a member absent
    have none : f a = none := by
      rw [← Option.not_isSome_iff_eq_none]
      intro some
      exact absent (List.mem_toFinset.2 (covered a (List.mem_toFinset.1 member) some))
    rw [none, Option.getD_none]

namespace PositionTracker

/-- The net position is the sum of the stored quantities of any exchanges that
    include those with a position. -/
theorem getNetPosition_eq (t : PositionTracker) {symbol : String} {exchanges : List String} (nodup : exchanges.Nodup)
    (covered : ∀ exchange, (t.getPosition symbol exchange).isSome → exchange ∈ exchanges) :
    t.getNetPosition symbol = (exchanges.map fun exchange => t.stored (symbol, exchange)).sum := by
  have keyed : (exchanges.map (Prod.mk symbol)).Nodup := nodup.map fun a b same => (Prod.mk.inj same).2
  have total := sum_filterMap_eq (f := fun key => (t.positions.get key).map Position.quantity)
    (t.positions.keys.filter (·.1 = symbol)) (exchanges.map (Prod.mk symbol))
    (t.positions.nodup.filter _) keyed ?_ ?_
  · rw [getNetPosition, getPositionsForSymbol, List.map_filterMap, total, List.map_map]
    rfl
  · rintro ⟨symbol', exchange⟩ member
    obtain ⟨known, same⟩ := List.mem_filter.1 member
    obtain rfl : symbol' = symbol := by simpa using same
    exact List.mem_map_of_mem (covered exchange ((t.positions.mem_keys _).1 known))
  · intro key member known
    obtain ⟨exchange, -, rfl⟩ := List.mem_map.1 member
    rw [Option.isSome_map] at known
    exact List.mem_filter.2 ⟨(t.positions.mem_keys _).2 known, by simp⟩

end PositionTracker

/-! ## Runs that lose nothing -/

namespace PositionTracker

/-- The quantities after some calls are those of the acknowledged fills. -/
structure Accounts (calls : List TrackerCall) : Prop where
  stored : ∀ key, .finite ((new.run calls).stored key) = FloatArg.sum (acknowledged key new calls)
  net : ∀ symbol (exchanges : List String), exchanges.Nodup →
    (∀ exchange, ((new.run calls).getPosition symbol exchange).isSome → exchange ∈ exchanges) →
      .finite ((new.run calls).getNetPosition symbol) =
        FloatArg.sum (exchanges.map fun exchange => FloatArg.sum (acknowledged (symbol, exchange) new calls))
  /-- One more call changes the quantity of the position it fills only, and nothing if
      it is answered with an error. -/
  next : ∀ call, (∀ key, ¬ call.fills key → ((new.run calls).after call).stored key = (new.run calls).stored key) ∧
    ∀ message, ((new.run calls).step call).2 = .error message → (new.run calls).after call = new.run calls

theorem accounts_of_stored {calls : List TrackerCall}
    (stored : ∀ key, .finite ((new.run calls).stored key) = FloatArg.sum (acknowledged key new calls)) :
    Accounts calls where
  stored := stored
  net symbol exchanges nodup covered := by
    rw [getNetPosition_eq _ nodup covered, ← FloatArg.sum_finite, List.map_map]
    exact congrArg FloatArg.sum (List.map_congr_left fun exchange _ => stored (symbol, exchange))
  next call := by
    refine ⟨fun key other => stored_other _ other, ?_⟩
    intro message refused
    rw [step_ok] at refused
    cases refused

theorem accounts_append_iff {calls : List TrackerCall} {call : TrackerCall} (accounts : Accounts calls) :
    Accounts (calls ++ [call]) ↔ call.Recorded := by
  have before := accounts.stored
  have grown (key : String × String) : acknowledged key new (calls ++ [call]) =
      acknowledged key new calls ++ call.acknowledged key (.ok ()) := by
    rw [acknowledged_append, acknowledged, step_ok, acknowledged, List.append_nil]
  have later : new.run (calls ++ [call]) = (new.run calls).after call := Runs.run_append _ _ _ _
  -- a position the call brings no fill to
  have others (key : String × String) (other : ¬ call.fills key) :
      .finite ((new.run (calls ++ [call])).stored key) = FloatArg.sum (acknowledged key new (calls ++ [call])) := by
    have none : call.acknowledged key (.ok ()) = [] := by
      cases call with
      | updateFill symbol exchange fillQuantity fillPrice fees timestamp => exact if_neg other
      | updateMarketPrice symbol price timestamp => rfl
    rw [grown, none, List.append_nil, later, stored_other _ other, before]
  cases call with
  | updateMarketPrice symbol price timestamp =>
      exact iff_of_true (accounts_of_stored fun key => others key id) trivial
  | updateFill symbol exchange fillQuantity fillPrice fees timestamp =>
      have own : FloatArg.sum (acknowledged (symbol, exchange) new
          (calls ++ [.updateFill symbol exchange fillQuantity fillPrice fees timestamp])) =
            FloatArg.add (.finite ((new.run calls).stored (symbol, exchange))) fillQuantity := by
        have one : (TrackerCall.updateFill symbol exchange fillQuantity fillPrice fees timestamp).acknowledged
            (symbol, exchange) (.ok ()) = [fillQuantity] := if_pos rfl
        rw [grown, one, FloatArg.sum_append_singleton, ← before]
      constructor
      · intro accounts'
        have after := accounts'.stored (symbol, exchange)
        rw [own] at after
        have brought := FloatArg.finite_of_add after.symm
        by_cases valid : ValidFill fillQuantity fillPrice fees
        · exact .inl valid
        · right
          rw [brought, later]
          change FloatArg.finite (((new.run calls).updateFill symbol exchange fillQuantity fillPrice fees
            timestamp).1.stored (symbol, exchange) - _) = _
          rw [stored_refused _ symbol exchange valid, sub_self]
      · intro recorded
        apply accounts_of_stored
        intro key
        by_cases here : (symbol, exchange) = key
        · subst here
          rw [own, later]
          change FloatArg.finite (((new.run calls).updateFill symbol exchange fillQuantity fillPrice fees
            timestamp).1.stored (symbol, exchange)) = _
          by_cases valid : ValidFill fillQuantity fillPrice fees
          · obtain ⟨quantity, _, _, rfl, _⟩ := id valid
            rw [stored_fill _ symbol exchange valid rfl, FloatArg.finite_add_finite]
          · obtain rfl := recorded.resolve_left valid
            rw [stored_refused _ symbol exchange valid, FloatArg.finite_add_finite, add_zero]
        · exact others key here

theorem accounts_nil : Accounts [] := accounts_of_stored fun _ => rfl

/-- At every moment of a run the quantities are those of the acknowledged fills,
    exactly when no position turned a fill away, or none of a quantity. -/
theorem acknowledged_recorded_iff (calls : List TrackerCall) :
    (∀ n, Accounts (calls.take n)) ↔ ∀ call ∈ calls, call.Recorded := by
  induction calls using List.reverseRecOn with
  | nil => simp [accounts_nil]
  | append_singleton calls call ih =>
      have early (n : Nat) (within : n ≤ calls.length) : (calls ++ [call]).take n = calls.take n :=
        List.take_append_of_le_length within
      have whole (l : List TrackerCall) (n : Nat) (beyond : l.length ≤ n) : l.take n = l := List.take_of_length_le beyond
      have first : (∀ n, Accounts (calls.take n)) ↔ ∀ n ≤ calls.length, Accounts (calls.take n) := by
        constructor
        · exact fun all n _ => all n
        · intro all n
          rcases le_total n calls.length with within | beyond
          · exact all n within
          · rw [whole calls n beyond, ← whole calls calls.length le_rfl]
            exact all _ le_rfl
      simp only [List.mem_append, List.mem_singleton, or_imp, forall_and, forall_eq]
      rw [← ih]
      constructor
      · intro all
        have before : ∀ n, Accounts (calls.take n) := first.2 fun n within => early n within ▸ all n
        have now := before calls.length
        rw [whole calls _ le_rfl] at now
        have after := all (calls ++ [call]).length
        rw [whole _ _ le_rfl] at after
        exact ⟨before, (accounts_append_iff now).1 after⟩
      · rintro ⟨before, recorded⟩ n
        have now := before calls.length
        rw [whole calls _ le_rfl] at now
        rcases Nat.lt_or_ge calls.length n with later | within
        · rw [whole _ n (by simp only [List.length_append, List.length_singleton]; exact later)]
          exact (accounts_append_iff now).2 recorded
        · rw [early n within]
          exact before n

/-! ## A fill that is too large -/

/-- Two million units are acknowledged and not recorded. -/
theorem large_fill_dropped :
    ¬ ∀ (calls : List TrackerCall) (n : Nat), Accounts (calls.take n) := by
  intro all
  have stored := (all [.updateFill "SHIB" "kraken" (.finite 2000000) (.finite (1 / 50000)) (.finite 0) 0] 1).stored
    ("SHIB", "kraken")
  revert stored
  decide +kernel

end PositionTracker

end ExecutionHandler
