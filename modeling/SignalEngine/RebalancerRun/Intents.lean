import SignalEngine.RebalancerCore.PlanTags
import SignalEngine.RebalancerRun.Flatten

/-! # Intents of orders

The intents of planned orders and of flatten orders together. Their tags carry
the prefix of this program, and two orders with one tag are for one intent.
-/

open BrokerAdapters Outcome Text RebalancerCore

namespace RebalancerRun

/-! ## Flatten orders -/

structure FlattenIntent where
  account : String
  attemptKey : String
  symbol : String
  /-- Buys a short back instead of selling. -/
  cover : Bool
  k : Nat

structure FlattenIntent.Plain (i : FlattenIntent) : Prop where
  account : PlainId i.account
  attemptKey : ∀ c ∈ i.attemptKey.toList, c.isAlphanum = true

def FlattenIntent.leg (i : FlattenIntent) : String := if i.cover then "cover" else "sell"

def FlattenIntent.identity (i : FlattenIntent) : String :=
  s!"flatten:{i.account}:{i.attemptKey}:{i.symbol}:{i.leg}:{i.k}"

private def legWord (cover : Bool) : List Char := (":" ++ if cover then "cover" else "sell").toList

private theorem legWord_free : ∀ c c' : Bool, legWord c <:+ legWord c' → c = c' := by decide

private theorem digits_free (k : Nat) : ':' ∉ (Nat.repr k).toList := by
  intro member
  rw [Nat.toList_repr] at member
  have digit := Nat.isDigit_of_mem_toDigits (by decide) (by decide) member
  simp at digit

private theorem flatten_identity_chars (i : FlattenIntent) : i.identity.toList = "flatten:".toList ++
    (i.account.toList ++ ':' :: (i.attemptKey.toList ++ ':' :: ((i.symbol.toList ++ legWord i.cover) ++
      ':' :: (Nat.repr i.k).toList))) := by
  have text : i.identity = "flatten:" ++ i.account ++ ":" ++ i.attemptKey ++ ":" ++ i.symbol ++ ":" ++ i.leg ++ ":" ++
      Nat.repr i.k := rfl
  have colon : ":".toList = [':'] := rfl
  rw [text]
  simp only [String.toList_append, colon, legWord, FlattenIntent.leg, List.append_assoc, List.cons_append,
    List.nil_append]

theorem FlattenIntent.identity_inj {i j : FlattenIntent} (plain : i.Plain) (plain' : j.Plain)
    (same : i.identity = j.identity) : i = j := by
  have chars := congrArg String.toList same
  rw [flatten_identity_chars, flatten_identity_chars] at chars
  have key : ∀ i : FlattenIntent, i.Plain → ':' ∉ i.attemptKey.toList := by
    intro i plain member
    have letter := plain.attemptKey _ member
    simp at letter
  obtain ⟨accounts, chars⟩ := Separated.before_inj plain.account.1 plain'.account.1 (List.append_cancel_left chars)
  obtain ⟨keys, chars⟩ := Separated.before_inj (key i plain) (key j plain') chars
  -- the symbol may hold anything: the rest is read from the end
  obtain ⟨chars, numbers⟩ := Separated.after_inj (digits_free i.k) (digits_free j.k) chars
  obtain ⟨symbols, legs⟩ := Separated.word_inj legWord_free chars
  have k : i.k = j.k := by
    have value := congrArg (fun cs => Nat.ofDigitChars 10 cs 0) numbers
    simpa [Nat.ofDigitChars_ten_toDigits] using value
  obtain ⟨⟩ := i
  obtain ⟨⟩ := j
  simp only at accounts keys symbols legs k
  rw [String.toList_injective accounts, String.toList_injective keys, String.toList_injective symbols, legs, k]

section Tags

variable [UnicodeCase] [Sha256]

def FlattenIntent.tag (i : FlattenIntent) : String :=
  if i.cover then flattenCoverTag i.account i.attemptKey i.symbol i.k
  else flattenTag i.account i.attemptKey i.symbol i.k

/-- A flatten tag: the flatten prefix, readable parts, then the hash of the identity. -/
theorem FlattenIntent.tag_chars (i : FlattenIntent) : ∃ readable : List Char,
    i.tag.toList = flattenTagPrefix.toList ++ (readable ++ truncatedHash 16 i.identity) := by
  have text : i.tag = flattenTagPrefix ++ String.ofList ((i.attemptKey.toList.filter Char.isAlphanum).take 20) ++ ":" ++
      readableSymbol i.symbol ++ ":" ++ Nat.repr i.k ++ ":" ++ String.ofList (truncatedHash 16 i.identity) := by
    unfold FlattenIntent.tag FlattenIntent.identity FlattenIntent.leg
    split
    · rfl
    · rfl
  refine ⟨(i.attemptKey.toList.filter Char.isAlphanum).take 20 ++ (":".toList ++ ((readableSymbol i.symbol).toList ++
    (":".toList ++ ((Nat.repr i.k).toList ++ ":".toList)))), ?_⟩
  rw [text]
  simp only [String.toList_append, String.toList_ofList, List.append_assoc]

theorem FlattenIntent.hash_of_tag {i j : FlattenIntent} (full : FullHashes) (same : i.tag = j.tag) :
    truncatedHash 16 i.identity = truncatedHash 16 j.identity := by
  obtain ⟨readable, left⟩ := i.tag_chars
  obtain ⟨readable', right⟩ := j.tag_chars
  rw [same, right] at left
  simp only [← List.append_assoc] at left
  refine (List.append_inj_right' left ?_).symm
  rw [truncatedHash_length full (by decide), truncatedHash_length full (by decide)]

variable [InstantText]

theorem trade_tag_ne_flatten_tag (dates : CompactDates) (i : TradeIntent) (j : FlattenIntent) : i.tag ≠ j.tag := by
  intro same
  obtain ⟨readable, left⟩ := i.tag_chars
  obtain ⟨readable', right⟩ := j.tag_chars
  have mark : flattenTagPrefix.toList = "rb1:".toList ++ ['f', 'l', ':'] := rfl
  rw [same, right, mark, List.append_assoc] at left
  have rest := List.append_cancel_left left
  have unmarked := dates.free (c := 'f') (by decide) (by decide) i.scheduledFor
  cases date : (InstantText.compact i.scheduledFor).toList with
  | nil =>
      rw [date] at rest
      simp at rest
  | cons c cs =>
      rw [date] at rest unmarked
      obtain ⟨rfl, -⟩ := List.cons.inj rest
      simp at unmarked

end Tags

/-! ## All orders -/

inductive Intent where
  | trade (i : TradeIntent)
  | flatten (i : FlattenIntent)

namespace Intent

def Plain : Intent → Prop
  | trade i => i.Plain
  | flatten i => i.Plain

variable [UnicodeCase] [InstantText] [Sha256]

def tag : Intent → String
  | trade i => i.tag
  | flatten i => i.tag

def identity : Intent → String
  | trade i => i.identity
  | flatten i => i.identity

/-- The part of the hash of the identity that is in the tag. -/
def hash : Intent → List Char
  | trade i => truncatedHash 20 i.identity
  | flatten i => truncatedHash 16 i.identity

/-- The truncated hash is injective on the identities of the set. -/
def HashInjective (used : Set Intent) : Prop :=
  ∀ i ∈ used, ∀ j ∈ used, i.hash = j.hash → i.identity = j.identity

theorem own (i : Intent) : ownTagPrefix.toList <+: i.tag.toList := by
  cases i with
  | trade i =>
      obtain ⟨readable, chars⟩ := i.tag_chars
      rw [tag, chars]
      exact List.prefix_append _ _
  | flatten i =>
      obtain ⟨readable, chars⟩ := i.tag_chars
      have mark : flattenTagPrefix.toList = ownTagPrefix.toList ++ ['f', 'l', ':'] := rfl
      rw [tag, chars, mark, List.append_assoc]
      exact List.prefix_append _ _

theorem tag_inj (full : FullHashes) (dates : CompactDates) {used : Set Intent} (apart : HashInjective used)
    {i j : Intent} (known : i ∈ used) (known' : j ∈ used) (plain : i.Plain) (plain' : j.Plain) (same : i.tag = j.tag) :
    i = j := by
  cases i with
  | trade i =>
      cases j with
      | trade j =>
          have identity := apart _ known _ known' (TradeIntent.hash_of_tag full same)
          rw [TradeIntent.identity_inj dates plain plain' identity]
      | flatten j => exact absurd same (trade_tag_ne_flatten_tag dates i j)
  | flatten i =>
      cases j with
      | trade j => exact absurd same.symm (trade_tag_ne_flatten_tag dates j i)
      | flatten j =>
          have identity := apart _ known _ known' (FlattenIntent.hash_of_tag full same)
          rw [FlattenIntent.identity_inj plain plain' identity]

end Intent

/-- Tags identify intents, as far as the hash does: every tag is one of ours, plain intents
    with one tag are equal, no planner tag is a flatten tag, no plan over plain ids gives one
    tag to two orders, and an order of a plan has the tag of an intent of it. -/
theorem tags_identify_intents [UnicodeCase] [InstantText] [Sha256] (full : FullHashes) (dates : CompactDates)
    (used : Set Intent) (apart : Intent.HashInjective used) :
    (∀ i : Intent, ownTagPrefix.toList <+: i.tag.toList) ∧
    (∀ i ∈ used, ∀ j ∈ used, i.Plain → j.Plain → i.tag = j.tag → i = j) ∧
    (∀ (i : TradeIntent) (j : FlattenIntent), i.tag ≠ j.tag) ∧
    ∀ (targets : List SleeveTarget) (account : AccountView) (prices : Std.ExtTreeMap String PricePoint)
      (book : VenueRuleBook) (policy : Policy) (cfg : PlanConfig), PlainId account.accountId →
      (∀ t ∈ targets, PlainId t.sleeve) → (∀ i ∈ intentsOf targets account cfg, .trade i ∈ used) →
      (∀ tag, plan targets account prices book policy cfg ≠ .error (.duplicateTag tag)) ∧
        ∀ p, plan targets account prices book policy cfg = .ok p → ∀ o ∈ p.orders,
          ∃ i ∈ intentsOf targets account cfg, o.tag = i.tag ∧ o.symbol = i.symbol ∧ o.side = i.side := by
  refine ⟨Intent.own, ?_, trade_tag_ne_flatten_tag dates, ?_⟩
  · intro i known j known' plain plain' same
    exact Intent.tag_inj full dates apart known known' plain plain' same
  · intro targets account prices book policy cfg plainAccount plainSleeves within
    refine ⟨fun tag failed => ?_, fun p planned => plan_order_intent planned⟩
    have tells : TellsApart (intentsOf targets account cfg) :=
      fun i member j member' same => apart _ (within i member) _ (within j member') same
    have tagless : Tagless (planTraced targets account prices book policy cfg) :=
      planTraced_tagless full dates plainAccount plainSleeves tells
    obtain failed | ⟨traced, -, done⟩ := bind_eq_error.1 failed
    · rw [failed] at tagless
      exact tagless tag rfl
    · cases done

namespace TwoBuys

open OrderPlanner.TightCash Amount

/-- The epoch as the date library writes it; other instants by their number. -/
@[reducible] def countedDates : InstantText :=
  { epochText with
    compact := fun t =>
      if t = 0 then "19700101T000000Z" else (if t < 0 then "-" else "+") ++ Nat.repr t.natAbs }

/-- The identities of the orders below, with their hashes. -/
def hashes : List (String × String) :=
  [("rebalance:acct:19700101T000000Z:trend:ADA:buy",
      "654e1eee1e6d123b9204213251503ed20fe997724e72da20e50207b4df6de253"),
    ("rebalance:acct:19700101T000000Z:trend:ADA:buy:close",
      "4f05ae04a9a69bb3a90c691fec817e36fb7cc5c96e5c2d2ca31c7cde65c89057"),
    ("rebalance:acct:19700101T000000Z:trend:ADA:sell",
      "e480e47f23d35ca2fd3aaa455da44fba3072decaa3aa8796591cfa06afbd8670"),
    ("rebalance:acct:19700101T000000Z:trend:ADA:sell:close",
      "550fbccacf4b5ddaa205b03ab370379ab866ca0cea85db1abd40448f0ad06de3"),
    ("rebalance:acct:19700101T000000Z:trend:XRP:buy",
      "c3f534d18a5abecd9abb6b0379a24c5ffafc160a1b93308507a210e904084a97"),
    ("rebalance:acct:19700101T000000Z:trend:XRP:buy:close",
      "8b84fb366cf713d5840e8f4f7f711500ab9122d272b9cd44f35b91a38b811c46"),
    ("rebalance:acct:19700101T000000Z:trend:XRP:sell",
      "dc2e884fd648b185ececcaec8ca3de2b0a2389f9111f523d5b06cfb891894719"),
    ("rebalance:acct:19700101T000000Z:trend:XRP:sell:close",
      "2f4beca4e02e98c424aea7761b7e164c634371e03dae528aa49bd5cfab67e397"),
    ("flatten:acct:19700101T000000Z:ADA:sell:0",
      "278e058c20a5bfe486c7383f1816f922bcaab9ed3a9b32c2b724fe07a267005e"),
    ("flatten:acct:19700101T000000Z:ADA:cover:0",
      "4dd1f4fc1324991efbbb721a6ecd63c9d078022962b67168b61b459f5978e98c")]

@[reducible] def orderHashes : Sha256 where
  hexDigest text :=
    (hashes.lookup text).getD "e3b0c44298fc1c149afbf4c8996fb92427ae41e4649b934ca495991b7852b855"

attribute [local instance] asciiCase countedDates orderHashes

private theorem orderHashes_eq (text : String) : Sha256.hexDigest text =
    (hashes.lookup text).getD "e3b0c44298fc1c149afbf4c8996fb92427ae41e4649b934ca495991b7852b855" := rfl

private theorem spelled {s : String} {cs head : List Char} (text : s.toList = cs) (full : cs.length = 64) (front : cs.take 2 = head) :
    s.toList.length = 64 ∧ s.toList.take 2 = head := by
  rw [text]
  exact ⟨full, front⟩

private theorem hashes_spelled : (∀ row ∈ hashes, row.2.toList.length = 64) ∧ (hashes.map fun row => row.2.toList.take 2) =
    [['6', '5'], ['4', 'f'], ['e', '4'], ['5', '5'], ['c', '3'], ['8', 'b'], ['d', 'c'], ['2', 'f'], ['2', '7'], ['4', 'd']] := by
  have both : ∀ {rows : List (String × String)} {heads : List (List Char)},
      List.Forall₂ (fun row head => row.2.toList.length = 64 ∧ row.2.toList.take 2 = head) rows heads →
        (∀ row ∈ rows, row.2.toList.length = 64) ∧ (rows.map fun row => row.2.toList.take 2) = heads := by
    intro rows heads each
    induction each with
    | nil => exact ⟨by simp, rfl⟩
    | cons one _ ih => exact ⟨List.forall_mem_cons.2 ⟨one.1, ih.1⟩, by rw [List.map_cons, one.2, ih.2]⟩
  apply both
  repeat refine .cons (spelled String.toList_ofList rfl rfl) ?_
  exact .nil

theorem orderHashes_full : FullHashes := by
  have each := hashes_spelled.1
  intro text
  rw [orderHashes_eq]
  generalize hashes = rows at each
  induction rows with
  | nil => exact (spelled String.toList_ofList rfl rfl).1
  | cons row rows ih =>
      obtain ⟨first, rest⟩ := List.forall_mem_cons.1 each
      rw [List.lookup_cons]
      split
      · exact first
      · exact ih rest

private theorem epoch_chars : (InstantText.compact 0).toList =
    ['1', '9', '7', '0', '0', '1', '0', '1', 'T', '0', '0', '0', '0', '0', '0', 'Z'] := String.toList_ofList

private theorem counted_chars {t : Int} (later : t ≠ 0) : (InstantText.compact t).toList =
    (if t < 0 then '-' else '+') :: (Nat.repr t.natAbs).toList := by
  have text : InstantText.compact t = if t = 0 then "19700101T000000Z"
      else (if t < 0 then "-" else "+") ++ Nat.repr t.natAbs := rfl
  rw [text, if_neg later]
  split
  · simp
  · simp

private theorem counted_epoch {t : Int} (same : InstantText.compact 0 = InstantText.compact t) : 0 = t := by
  by_contra later
  have epoch : (InstantText.compact 0).toList.head? = some '1' := by rw [epoch_chars, List.head?_cons]
  rw [same, counted_chars (Ne.symm later)] at epoch
  split at epoch
  · simp at epoch
  · simp at epoch

private theorem counted_inj {s t : Int} (same : InstantText.compact s = InstantText.compact t) : s = t := by
  by_cases first : s = 0
  · subst first
    exact counted_epoch same
  by_cases second : t = 0
  · subst second
    exact (counted_epoch same.symm).symm
  have chars := congrArg String.toList same
  rw [counted_chars first, counted_chars second, Nat.toList_repr, Nat.toList_repr] at chars
  obtain ⟨signs, digits⟩ := List.cons.inj chars
  have size : s.natAbs = t.natAbs := by
    have value := congrArg (fun cs => Nat.ofDigitChars 10 cs 0) digits
    simpa only [Nat.ofDigitChars_ten_toDigits] using value
  have signed : s < 0 ↔ t < 0 := by
    by_cases below : s < 0 <;> by_cases below' : t < 0 <;> simp [below, below'] at signs ⊢
  omega

theorem countedDates_compact : CompactDates where
  chars t c member := by
    by_cases epoch : t = 0
    · subst epoch
      have each : ((InstantText.compact 0).toList.all fun c => c.isDigit || decide (c ∈ ['+', '-', 'T', 'Z'])) = true := by
        rw [epoch_chars]
        decide
      rw [List.all_eq_true] at each
      simpa using each c member
    · rw [counted_chars epoch, List.mem_cons, Nat.toList_repr] at member
      obtain rfl | digit := member
      · split
        · simp
        · simp
      · exact .inl (Nat.isDigit_of_mem_toDigits (by decide) (by decide) digit)
  seconds _ _ _ _ same := counted_inj same

def orders : Set Intent := {i | i.identity ∈ hashes.map Prod.fst}

private theorem rows_apart {n : Nat} (long : 2 ≤ n) : ∀ a ∈ hashes.map Prod.fst, ∀ b ∈ hashes.map Prod.fst,
    truncatedHash n a = truncatedHash n b → a = b := by
  have found : ∀ row ∈ hashes, Sha256.hexDigest row.1 = row.2 := by decide +kernel
  have heads : (hashes.map fun row => row.2.toList.take 2).Nodup := by
    rw [hashes_spelled.2]
    decide
  intro a known b known' same
  obtain ⟨row, listed, rfl⟩ := List.mem_map.1 known
  obtain ⟨row', listed', rfl⟩ := List.mem_map.1 known'
  have front := congrArg (List.take 2) same
  rw [truncatedHash, truncatedHash, found row listed, found row' listed', List.take_take, List.take_take,
    min_eq_left long] at front
  rw [List.inj_on_of_nodup_map heads listed listed' front]

theorem orders_apart : Intent.HashInjective orders := by
  have trades := rows_apart (show 2 ≤ 20 by decide)
  have flattens := rows_apart (show 2 ≤ 16 by decide)
  have lengths : ∀ a b, truncatedHash 20 a ≠ truncatedHash 16 b := by
    intro a b same
    have length := congrArg List.length same
    rw [truncatedHash_length orderHashes_full (by decide), truncatedHash_length orderHashes_full (by decide)] at length
    simp at length
  intro i known j known' same
  cases i with
  | trade i =>
      cases j with
      | trade j => exact trades _ known _ known' same
      | flatten j => exact absurd same (lengths _ _)
  | flatten i =>
      cases j with
      | trade j => exact absurd same.symm (lengths _ _)
      | flatten j => exact flattens _ known _ known' same

theorem trades_known :
    ∀ i ∈ intentsOf (hundredths ["ADA", "XRP"]) (cashOf (cents 100)) (feeRun Dec.zero), .trade i ∈ orders := by
  have evaluated : (aggregate (hundredths ["ADA", "XRP"]) (feeRun Dec.zero)).map (fun managed =>
      (inSymbolOrder managed).map fun m => (m.sleeveLabel, m.symbol)) =
        .ok [("trend", "ADA"), ("trend", "XRP")] := by decide +kernel
  rintro ⟨account, scheduledFor, sleeves, symbol, side, close⟩ ⟨managed, m, named, known, whole⟩
  rw [named] at evaluated
  have labels : (m.sleeveLabel, m.symbol) ∈ [("trend", "ADA"), ("trend", "XRP")] := by
    rw [← Except.ok.inj evaluated]
    exact List.mem_map.2 ⟨m, known, rfl⟩
  let ending := if close then ":close" else ""
  have identity : (Intent.trade ⟨account, scheduledFor, sleeves, symbol, side, close⟩).identity =
      s!"rebalance:acct:19700101T000000Z:{m.sleeveLabel}:{m.symbol}:{side.asStr}{ending}" := by
    rw [whole]
    rfl
  rw [orders, Set.mem_ofPred_eq, identity]
  generalize m.sleeveLabel = label, m.symbol = name at labels
  simp only [List.mem_cons, Prod.mk.injEq, List.not_mem_nil, or_false] at labels
  obtain ⟨rfl, rfl⟩ | ⟨rfl, rfl⟩ := labels
  · cases side <;> cases close <;> decide +kernel
  · cases side <;> cases close <;> decide +kernel

/-- The orders of a plan for two instruments and of a flatten of one of them. -/
theorem two_buys_identified :
    (∀ i ∈ orders, ∀ j ∈ orders, i.Plain → j.Plain → i.tag = j.tag → i = j) ∧
      ∀ tag, plan (hundredths ["ADA", "XRP"]) (cashOf (cents 100)) (quotes (cents 50)) market openMandate
        (feeRun Dec.zero) ≠ .error (.duplicateTag tag) := by
  obtain ⟨-, identified, -, plans⟩ :=
    tags_identify_intents orderHashes_full countedDates_compact orders orders_apart
  refine ⟨identified, (plans _ _ _ _ _ _ ?_ ?_ trades_known).1⟩
  · unfold PlainId
    decide +kernel
  · unfold PlainId
    decide +kernel

end TwoBuys

end RebalancerRun
