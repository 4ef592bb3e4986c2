import SignalEngine.Lib.Separated
import SignalEngine.RebalancerCore.BudgetFit

/-! # Tags of planned orders

What an order of a plan is for, and the tag it gets. The tag ends in a hash of
the whole intent, so tags are told apart as far as the hash tells texts apart.
The orders one plan tries are for different intents.
-/

open BrokerAdapters Outcome Text

namespace RebalancerCore

/-! ## Hashes and dates -/

/-- The first `n` characters of the hash. -/
def truncatedHash [Sha256] (n : Nat) (text : String) : List Char := (Sha256.hexDigest text).toList.take n

/-- Hashes are 64 characters long. -/
def FullHashes [Sha256] : Prop := ∀ text, (Sha256.hexDigest text).toList.length = 64

theorem truncatedHash_length [Sha256] (full : FullHashes) {n : Nat} (short : n ≤ 64) (text : String) :
    (truncatedHash n text).length = n := by
  rw [truncatedHash, List.length_take, full text]
  omega

def WholeSecond (t : Instant) : Prop := (10 ^ 9 : Int) ∣ t

/-- The compact form of an instant: digits, a sign, `T` and `Z`; it tells the seconds apart. -/
structure CompactDates [InstantText] : Prop where
  chars : ∀ t, ∀ c ∈ (InstantText.compact t).toList, c.isDigit = true ∨ c ∈ ['+', '-', 'T', 'Z']
  seconds : ∀ s t, WholeSecond s → WholeSecond t → InstantText.compact s = InstantText.compact t → s = t

theorem CompactDates.free [InstantText] (dates : CompactDates) {c : Char} (other : c.isDigit = false)
    (unused : c ∉ ['+', '-', 'T', 'Z']) (t : Instant) : c ∉ (InstantText.compact t).toList := by
  intro member
  obtain digit | listed := dates.chars t c member
  · rw [other] at digit
    cases digit
  · exact unused listed

/-! ## Intents -/

structure TradeIntent where
  account : String
  scheduledFor : Instant
  sleeves : Std.ExtTreeSet String
  symbol : String
  side : Side
  /-- The close leg of a trade that crosses zero. -/
  close : Bool

def PlainId (id : String) : Prop := ':' ∉ id.toList ∧ '+' ∉ id.toList

structure TradeIntent.Plain (i : TradeIntent) : Prop where
  account : PlainId i.account
  second : WholeSecond i.scheduledFor
  sleeves : i.sleeves.toList ≠ []
  ids : ∀ sleeve ∈ i.sleeves.toList, PlainId sleeve

def TradeIntent.sleeveLabel (i : TradeIntent) : String := "+".intercalate i.sleeves.toList

def TradeIntent.suffix (i : TradeIntent) : String := if i.close then ":close" else ""

section Identity

variable [InstantText]

def TradeIntent.identity (i : TradeIntent) : String :=
  s!"rebalance:{i.account}:{InstantText.compact i.scheduledFor}:{i.sleeveLabel}:{i.symbol}:{i.side.asStr}{i.suffix}"

private def ending (e : Side × Bool) : List Char :=
  (":" ++ e.1.asStr ++ if e.2 then ":close" else "").toList

omit [InstantText] in
private theorem ending_free : ∀ e e' : Side × Bool, ending e <:+ ending e' → e = e' := by
  rintro ⟨side, close⟩ ⟨side', close'⟩
  cases side <;> cases side' <;> cases close <;> cases close' <;> decide

private theorem identity_chars (i : TradeIntent) : i.identity.toList = "rebalance:".toList ++ (i.account.toList ++
    ':' :: ((InstantText.compact i.scheduledFor).toList ++ ':' :: (i.sleeveLabel.toList ++
      ':' :: (i.symbol.toList ++ ending (i.side, i.close))))) := by
  have text : i.identity = "rebalance:" ++ i.account ++ ":" ++ InstantText.compact i.scheduledFor ++ ":" ++
      i.sleeveLabel ++ ":" ++ i.symbol ++ ":" ++ i.side.asStr ++ i.suffix := rfl
  have colon : ":".toList = [':'] := rfl
  rw [text]
  simp only [String.toList_append, colon, ending, TradeIntent.suffix, List.append_assoc, List.cons_append,
    List.nil_append]

omit [InstantText] in
private theorem sleeveLabel_free {i : TradeIntent} (plain : ∀ sleeve ∈ i.sleeves.toList, PlainId sleeve) :
    ':' ∉ i.sleeveLabel.toList := by
  rw [TradeIntent.sleeveLabel, String.toList_intercalate]
  intro member
  obtain joint | ⟨w, known, inside⟩ := Separated.mem_joined member
  · simp at joint
  · obtain ⟨sleeve, listed, rfl⟩ := List.mem_map.1 known
    exact (plain sleeve listed).1 inside

/-- Equal identities on one account and one date: the label, the symbol, the side and the leg. -/
private theorem identity_parts {i j : TradeIntent} (account : ':' ∉ i.account.toList) (account' : ':' ∉ j.account.toList)
    (dates : CompactDates) (label : ':' ∉ i.sleeveLabel.toList) (label' : ':' ∉ j.sleeveLabel.toList)
    (same : i.identity = j.identity) : i.account = j.account ∧
      InstantText.compact i.scheduledFor = InstantText.compact j.scheduledFor ∧ i.sleeveLabel = j.sleeveLabel ∧
      i.symbol = j.symbol ∧ i.side = j.side ∧ i.close = j.close := by
  have chars := congrArg String.toList same
  rw [identity_chars, identity_chars] at chars
  have undated : ∀ t, ':' ∉ (InstantText.compact t).toList := dates.free (by decide) (by decide)
  obtain ⟨accounts, chars⟩ := Separated.before_inj account account' (List.append_cancel_left chars)
  obtain ⟨sched, chars⟩ := Separated.before_inj (undated _) (undated _) chars
  obtain ⟨labels, chars⟩ := Separated.before_inj label label' chars
  -- the symbol may hold anything: it is read from the end
  obtain ⟨symbols, ends⟩ := Separated.word_inj ending_free chars
  obtain ⟨sides, legs⟩ := Prod.mk.inj ends
  exact ⟨String.toList_injective accounts, String.toList_injective sched, String.toList_injective labels,
    String.toList_injective symbols, sides, legs⟩

theorem TradeIntent.identity_inj {i j : TradeIntent} (dates : CompactDates) (plain : i.Plain) (plain' : j.Plain)
    (same : i.identity = j.identity) : i = j := by
  obtain ⟨account, sched, label, symbol, side, close⟩ := identity_parts plain.account.1 plain'.account.1 dates
    (sleeveLabel_free plain.ids) (sleeveLabel_free plain'.ids) same
  have second := dates.seconds _ _ plain.second plain'.second sched
  have listed : i.sleeves.toList = j.sleeves.toList :=
    Separated.joined_inj plain.sleeves plain'.sleeves (fun w known => (plain.ids w known).2)
      (fun w known => (plain'.ids w known).2) label
  have sleeves : i.sleeves = j.sleeves := Std.ExtTreeSet.toList_inj.1 listed
  obtain ⟨⟩ := i
  obtain ⟨⟩ := j
  simp only at account second sleeves symbol side close
  rw [account, second, sleeves, symbol, side, close]

variable [UnicodeCase] [Sha256]

def TradeIntent.tag (i : TradeIntent) : String :=
  if i.close then clientTagCloseLeg i.account i.scheduledFor i.sleeveLabel i.symbol i.side
  else clientTag i.account i.scheduledFor i.sleeveLabel i.symbol i.side

/-- A tag: its date, then readable parts, then the hash of the identity. -/
theorem TradeIntent.tag_chars (i : TradeIntent) : ∃ readable : List Char,
    i.tag.toList = "rb1:".toList ++ ((InstantText.compact i.scheduledFor).toList ++ ':' :: (readable ++
      truncatedHash 20 i.identity)) := by
  have text : i.tag = "rb1:" ++ InstantText.compact i.scheduledFor ++ ":" ++ readableSymbol i.symbol ++ ":" ++
      i.side.asStr ++ ":" ++ String.ofList (truncatedHash 20 i.identity) := by
    unfold TradeIntent.tag TradeIntent.identity TradeIntent.suffix
    split
    · rfl
    · rfl
  have colon : ":".toList = [':'] := rfl
  refine ⟨(readableSymbol i.symbol).toList ++ ':' :: (i.side.asStr.toList ++ [':']), ?_⟩
  rw [text]
  simp only [String.toList_append, colon, String.toList_ofList, List.append_assoc, List.cons_append,
    List.nil_append]

theorem TradeIntent.hash_of_tag {i j : TradeIntent} (full : FullHashes) (same : i.tag = j.tag) :
    truncatedHash 20 i.identity = truncatedHash 20 j.identity := by
  obtain ⟨readable, left⟩ := i.tag_chars
  obtain ⟨readable', right⟩ := j.tag_chars
  rw [same, right] at left
  simp only [← List.cons_append, ← List.append_assoc] at left
  refine (List.append_inj_right' left ?_).symm
  rw [truncatedHash_length full (by decide), truncatedHash_length full (by decide)]

end Identity

/-! ## Failures of a plan -/

section Failures

/-- A failure other than a duplicate tag. -/
def NotDuplicate (e : PlanError) : Prop := ∀ tag, e ≠ .duplicateTag tag

/-- A step of the planner that never reports a duplicate tag. -/
abbrev Tagless {α : Type} (x : Except PlanError α) : Prop := Gives NotDuplicate (fun _ => True) x

variable {α β : Type}

theorem Tagless.ok (a : α) : Tagless (.ok a) := trivial

theorem Tagless.lift (x : Except MathError α) : Tagless (liftM x : Except PlanError α) := by
  cases x with
  | ok a => trivial
  | error e =>
      intro tag
      simp

theorem Tagless.bind {x : Except PlanError α} {f : α → Except PlanError β} (first : Tagless x)
    (second : ∀ a, Tagless (f a)) : Tagless (x >>= f) :=
  Gives.bind first fun a _ => second a

theorem Tagless.lift_bind {x : Except MathError α} {f : α → Except PlanError β} (second : ∀ a, Tagless (f a)) :
    Tagless ((liftM x : Except PlanError α) >>= f) :=
  .bind (.lift x) second

theorem Tagless.foldlM {f : β → α → Except PlanError β} (step : ∀ b a, Tagless (f b a)) (as : List α) (start : β) :
    Tagless (as.foldlM f start) :=
  Gives.foldlM (fun a _ b _ => step b a) as start trivial

theorem Tagless.mapM {f : α → Except PlanError β} (each : ∀ a, Tagless (f a)) (as : List α) : Tagless (as.mapM f) :=
  (Gives.mapM each as).mono fun _ _ => trivial

theorem Tagless.keep {x : Except PlanError α} (h : Tagless x) : Gives NotDuplicate (fun a => x = .ok a) x := by
  cases x with
  | ok a => rfl
  | error e => exact h

end Failures

section Stages

variable [UnicodeCase]

omit [UnicodeCase] in
theorem validateParams_tagless (account : AccountView) (cfg : PlanConfig) : Tagless (validateParams account cfg) := by
  unfold validateParams
  repeat' split
  all_goals simp [Gives, NotDuplicate]

omit [UnicodeCase] in
theorem validateWeight_tagless (sleeve : String) (bounds : WeightBounds) (w : TargetWeight) :
    Tagless (validateWeight sleeve bounds w) := by
  unfold validateWeight
  split
  next =>
    split
    · simp [Gives, NotDuplicate]
    · trivial
  next =>
    refine .lift_bind fun size => ?_
    split
    · simp [Gives, NotDuplicate]
    · trivial

theorem validateWeights_tagless (sleeve : String) (bounds : WeightBounds) (ws : List TargetWeight)
    (seen : Std.ExtTreeSet String) (total : Dec) : Tagless (validateWeights sleeve bounds seen total ws) := by
  induction ws generalizing seen total with
  | nil => trivial
  | cons w ws ih =>
      refine .bind (validateWeight_tagless sleeve bounds w) fun _ => ?_
      split
      · simp [Gives, NotDuplicate]
      · exact .lift_bind fun total => ih _ total

theorem validateSleeve_tagless (cfg : PlanConfig) (t : SleeveTarget) : Tagless (validateSleeve cfg t) := by
  refine .bind (validateWeights_tagless ..) fun total => ?_
  split
  · simp [Gives, NotDuplicate]
  · trivial

theorem validateSleeves_tagless (cfg : PlanConfig) (ts : List SleeveTarget) (seen : Std.ExtTreeSet String)
    (total : Dec) : Tagless (validateSleeves cfg seen total ts) := by
  induction ts generalizing seen total with
  | nil => trivial
  | cons t ts ih =>
      unfold validateSleeves
      split
      · simp [Gives, NotDuplicate]
      split
      · simp [Gives, NotDuplicate]
      refine .lift_bind fun total => ?_
      exact .bind (validateSleeve_tagless cfg t) fun _ => ih _ total

omit [UnicodeCase] in
theorem validateSigned_tagless (targets : List SleeveTarget) (entries : List (String × Dec)) :
    Tagless (entries.forM (validateSigned targets)) := by
  induction entries with
  | nil => trivial
  | cons entry entries ih =>
      refine .bind ?_ fun _ => ih
      unfold validateSigned
      repeat' split
      all_goals simp [Gives, NotDuplicate]

theorem validate_tagless (targets : List SleeveTarget) (account : AccountView) (cfg : PlanConfig) :
    Tagless (validate targets account cfg) := by
  refine .bind (validateParams_tagless account cfg) fun _ => ?_
  refine .bind (validateSigned_tagless targets _) fun _ => ?_
  refine .bind (validateSleeves_tagless ..) fun total => ?_
  split
  · simp [Gives, NotDuplicate]
  · trivial

theorem aggregate_tagless (targets : List SleeveTarget) (cfg : PlanConfig) : Tagless (aggregate targets cfg) := by
  refine .foldlM (fun managed t => .foldlM (fun managed w => ?_) _ _) _ _
  refine .lift_bind fun contribution => ?_
  simp only
  split
  next =>
    split
    · simp [Gives, NotDuplicate]
    · exact .lift_bind fun weight => .ok _
  next => trivial

omit [UnicodeCase] in
theorem sizeLegs_tagless (m : Managed) (rules : VenueRules) (price : PricePoint) (ws : List LegWish) (residual : Dec)
    (skipped : List SkippedTrade) (pending : List Candidate) :
    Tagless (sizeLegs m rules price residual skipped pending ws) := by
  induction ws generalizing residual skipped pending with
  | nil => trivial
  | cons w ws ih =>
      refine .lift_bind fun wished => ?_
      split
      next =>
        simp only
        split
        · trivial
        · exact ih ..
      next =>
        split
        · simp [Gives, NotDuplicate]
        · exact .lift_bind fun residual => ih ..

omit [UnicodeCase] in
theorem proposeTrade_tagless (cfg : PlanConfig) (m : Managed) (rules : VenueRules) (price : PricePoint)
    (held current target : Dec) : Tagless (proposeTrade cfg m rules price held current target) := by
  refine .lift_bind fun delta => ?_
  split
  · trivial
  refine .lift_bind fun absDelta => ?_
  split
  · trivial
  refine .lift_bind fun reference => .lift_bind fun pctMin => ?_
  split
  · trivial
  exact .lift_bind fun legs => sizeLegs_tagless ..

theorem propose_tagless (cfg : PlanConfig) (book : VenueRuleBook) (account : AccountView)
    (prices : Std.ExtTreeMap String PricePoint) (capitalBase : Dec) (m : Managed) :
    Tagless (propose cfg book account prices capitalBase m) := by
  unfold propose
  split
  · trivial
  split
  · trivial
  simp only
  split
  · trivial
  refine .lift_bind fun current => .lift_bind fun target => ?_
  exact .bind (proposeTrade_tagless ..) fun trade => .ok _

theorem marginReport_tagless (policy : Policy) (cfg : PlanConfig) (equity capitalBase : Dec) (positions : List Position)
    (lines : List InstrumentLine) : Tagless (marginReport policy cfg equity capitalBase positions lines) := by
  unfold marginReport
  split
  · trivial
  refine .lift_bind fun gross => .lift_bind fun projected => .bind ?_ fun _ => ?_
  · unfold checkTargetGross
    split
    · trivial
    refine .lift_bind fun cap => ?_
    split
    · simp [Gives, NotDuplicate]
    · trivial
  · simp only
    split
    · simp [Gives, NotDuplicate]
    · trivial

variable [InstantText] [Sha256] (ctx : PlanContext)

theorem tryOrder_tagless (st : Placing) (c : Candidate) (qty : Dec) : Tagless (ctx.tryOrder st c qty) := by
  refine .lift_bind fun notional => .lift_bind fun fee => .lift_bind fun usesMargin => ?_
  simp only
  split
  · exact .lift_bind fun sim => .lift_bind fun left => .ok _
  · trivial

theorem placeReducer_tagless (st : Placing) (c : Candidate) : Tagless (ctx.placeReducer st c) := by
  refine .bind (tryOrder_tagless ctx st c c.qty) fun ⟨tried, accepted⟩ => ?_
  simp only
  split
  · trivial
  · trivial

theorem placeBuy_tagless (available : Dec) (st : Placing) (sized : Candidate × Dec) :
    Tagless (ctx.placeBuy available st sized) := by
  unfold PlanContext.placeBuy
  simp only
  split
  · trivial
  · exact .bind (tryOrder_tagless ctx st _ _) fun tried => .ok _

omit [InstantText] [Sha256] in
theorem sizeBuys_tagless (available : Dec) (buys : List Candidate) : Tagless (ctx.sizeBuys available buys) := by
  unfold PlanContext.sizeBuys
  split
  · trivial
  refine .lift_bind fun costs => .lift_bind fun total => ?_
  split
  next =>
    refine .lift_bind fun factor => .mapM (fun c => ?_) buys
    refine .lift_bind fun product => .lift_bind fun scaled => ?_
    split
    · trivial
    split
    · trivial
    split
    · trivial
    split
    · trivial
    · simp [Gives, NotDuplicate]
  next => trivial

end Stages

/-! ## The tags of one plan -/

section Tried

variable [UnicodeCase] [InstantText] [Sha256] {ctx : PlanContext}

def PlanContext.intent (ctx : PlanContext) (c : Candidate) : TradeIntent where
  account := ctx.accountId
  scheduledFor := ctx.cfg.scheduledFor
  sleeves := c.m.sleeves
  symbol := c.m.symbol
  side := c.side
  close := decide (c.leg = .close)

theorem intent_tag (ctx : PlanContext) (c : Candidate) : (ctx.intent c).tag = ctx.tag c := by
  simp [TradeIntent.tag, PlanContext.intent, PlanContext.tag, TradeIntent.sleeveLabel, Managed.sleeveLabel]

def Placing.tags (st : Placing) : List String := st.tried.map PlannedOrder.tag

theorem tryOrder_tags {st st' : Placing} {c : Candidate} {qty : Dec} {accepted : Bool}
    (h : ctx.tryOrder st c qty = .ok (st', accepted)) : st'.tags.Perm (ctx.tag c :: st.tags) := by
  obtain ⟨cost, -, tried⟩ := tryOrder_tried h
  exact tried.map PlannedOrder.tag

/-- The tags tried in a run over the candidates: those before and one for each that was tried. -/
def TriesOf (ctx : PlanContext) (cs : List Candidate) (st st' : Placing) : Prop :=
  st'.tags.Subperm (cs.map ctx.tag ++ st.tags)

theorem TriesOf.step {c : Candidate} {cs : List Candidate} {st next st' : Placing} (later : TriesOf ctx cs next st')
    (now : next.tags.Subperm (ctx.tag c :: st.tags)) : TriesOf ctx (c :: cs) st st' := by
  have grown : (cs.map ctx.tag ++ next.tags).Subperm (cs.map ctx.tag ++ ctx.tag c :: st.tags) :=
    (List.subperm_append_left _).2 now
  exact (later.trans grown).trans List.perm_middle.subperm

theorem placeReducers_tries {reducers : List Candidate} {st st' : Placing}
    (h : reducers.foldlM ctx.placeReducer st = .ok st') : TriesOf ctx reducers st st' := by
  induction reducers generalizing st with
  | nil =>
      obtain rfl := Except.ok.inj h
      exact List.Subperm.refl _
  | cons c reducers ih =>
      rw [List.foldlM_cons] at h
      obtain ⟨next, step, rest⟩ := bind_eq_ok.1 h
      obtain ⟨⟨tried, accepted⟩, attempt, step⟩ := bind_eq_ok.1 step
      have same : next.tags = tried.tags := by
        simp only at step
        split at step
        · obtain rfl := Except.ok.inj step
          rfl
        · obtain rfl := Except.ok.inj step
          rfl
      exact (ih rest).step (same ▸ (tryOrder_tags attempt).subperm)

theorem placeBuys_tries {available : Dec} {sized : List (Candidate × Dec)} {st st' : Placing}
    (h : sized.foldlM (ctx.placeBuy available) st = .ok st') : TriesOf ctx (sized.map Prod.fst) st st' := by
  induction sized generalizing st with
  | nil =>
      obtain rfl := Except.ok.inj h
      exact List.Subperm.refl _
  | cons e sized ih =>
      rw [List.foldlM_cons] at h
      obtain ⟨next, step, rest⟩ := bind_eq_ok.1 h
      obtain ⟨c, q⟩ := e
      unfold PlanContext.placeBuy at step
      simp only at step
      refine (ih rest).step ?_
      split at step
      · obtain rfl := Except.ok.inj step
        exact (List.sublist_cons_self _ _).subperm
      · obtain ⟨⟨tried, accepted⟩, attempt, step⟩ := bind_eq_ok.1 step
        obtain rfl := Except.ok.inj step
        exact (tryOrder_tags attempt).subperm

theorem place_tries {capitalBase cash : Dec} {start finish : Placing} {reducers increasers : List Candidate}
    (fresh : start.tags = []) (h : ctx.place capitalBase cash start reducers increasers = .ok finish) :
    finish.tags.Subperm ((reducers ++ increasers).map ctx.tag) := by
  obtain ⟨reduced, reductions, h⟩ := bind_eq_ok.1 h
  obtain ⟨reserve, -, h⟩ := bind_eq_ok.1 h
  obtain ⟨available, -, h⟩ := bind_eq_ok.1 h
  obtain ⟨quantities, -, h⟩ := bind_eq_ok.1 h
  have first : reduced.tags.Subperm (reducers.map ctx.tag) := by
    have tries := placeReducers_tries reductions
    rwa [TriesOf, fresh, List.append_nil] at tries
  have bought : (((increasers.filter (mayFollow reduced.closed)).zip quantities).map Prod.fst).Sublist increasers :=
    (map_fst_zip_sublist _ _).trans List.filter_sublist
  have tried : finish.tags.Subperm (increasers.map ctx.tag ++ reducers.map ctx.tag) :=
    (placeBuys_tries h).trans
      (((List.subperm_append_right _).2 (bought.map ctx.tag).subperm).trans ((List.subperm_append_left _).2 first))
  rw [List.map_append]
  exact tried.trans List.perm_append_comm.subperm

omit [UnicodeCase] [InstantText] [Sha256] in
theorem duplicateTag_eq_none {seen : Std.ExtTreeSet String} {tags : List String} (nodup : tags.Nodup)
    (fresh : ∀ tag ∈ tags, tag ∉ seen) : duplicateTag seen tags = none := by
  induction tags generalizing seen with
  | nil => rfl
  | cons tag tags ih =>
      obtain ⟨once, nodup⟩ := List.nodup_cons.1 nodup
      have unseen : seen.contains tag = false := by
        rw [Bool.eq_false_iff, Ne, ← Std.ExtTreeSet.mem_iff_contains]
        exact fresh tag (by simp)
      simp only [duplicateTag, unseen, Bool.false_eq_true, if_false]
      refine ih nodup fun later member seen => ?_
      rw [Std.ExtTreeSet.mem_insert] at seen
      obtain same | old := seen
      · obtain rfl := Std.LawfulEqCmp.eq_of_compare same
        exact once member
      · exact fresh later (by simp [member]) old

end Tried

theorem Steps.legs_nodup {h price C T : Int} {cs : List Candidate} (steps : Steps h price C T cs) :
    (cs.map fun c => decide (c.leg = .close)).Nodup := by
  cases steps with
  | none => simp
  | whole c => simp
  | close c => simp
  | flip c o leg reduces opens => simp [leg, opens]

theorem candidates_nodup [UnicodeCase] {cfg : PlanConfig} {account : AccountView} {prices : Std.ExtTreeMap String PricePoint}
    {base : Dec} {ms : List Managed} {prs : List Proposal} (each : List.Forall₂ (Proposed cfg account prices base) ms prs)
    (distinct : (ms.map fun m => m.symbol).Nodup) :
    ((candidatesOf prs).map fun c => (c.m.symbol, decide (c.leg = .close))).Nodup := by
  induction each with
  | nil => simp [candidatesOf]
  | @cons m pr ms prs proposed each ih =>
      obtain ⟨fresh, distinct⟩ := List.nodup_cons.1 distinct
      have later : ∀ c ∈ candidatesOf prs, c.m.symbol ∈ ms.map fun m => m.symbol := by
        intro c member
        obtain ⟨pr', inside, mine⟩ := List.mem_flatMap.1 member
        obtain ⟨i, bound, rfl⟩ := List.getElem_of_mem inside
        have within : i < ms.length := each.length_eq ▸ bound
        exact List.mem_map.2 ⟨ms[i], List.getElem_mem within, by rw [(each.get within bound).own c mine]; rfl⟩
      have own : (pr.candidates.map fun c => (c.m.symbol, decide (c.leg = .close))).Nodup := by
        have legs : (pr.candidates.map fun c => decide (c.leg = .close)).Nodup := by
          cases lined : pr.line with
          | none => simp [proposed.unlined lined]
          | some line =>
              obtain ⟨-, -, -, px, -, -, -, sized⟩ := proposed.lined line lined
              exact sized.steps.legs_nodup
        refine List.Nodup.of_map Prod.snd ?_
        rwa [List.map_map]
      rw [candidatesOf, List.flatMap_cons, List.map_append, List.nodup_append]
      refine ⟨own, ih distinct, ?_⟩
      rintro _ left _ right rfl
      obtain ⟨c, mine, rfl⟩ := List.mem_map.1 left
      obtain ⟨c', other, same⟩ := List.mem_map.1 right
      have symbol := (Prod.mk.inj same).1
      rw [proposed.own c mine] at symbol
      have inside := later c' other
      rw [symbol] at inside
      exact fresh inside

/-! ## The intents of a plan -/

theorem plainId_trimmed {id : String} (plain : PlainId id) : PlainId (trimmed id) := by
  have kept : ∀ c ∈ (trimmed id).toList, c ∈ id.toList := by
    intro c member
    rw [trimmed, String.toList_ofList, trim, List.mem_reverse] at member
    have inside := (List.dropWhile_sublist _).subset member
    rw [List.mem_reverse] at inside
    exact (List.dropWhile_sublist _).subset inside
  exact ⟨fun member => plain.1 (kept _ member), fun member => plain.2 (kept _ member)⟩

/-- The sleeves of an instrument: at least one, and each a sleeve of the targets. -/
structure SleevesOf (targets : List SleeveTarget) (m : Managed) : Prop where
  some : m.sleeves.toList ≠ []
  known : ∀ sleeve ∈ m.sleeves.toList, ∃ t ∈ targets, sleeve = trimmed t.sleeve

section Sleeves

variable {targets : List SleeveTarget}

private theorem sleevesOf_insert {t : SleeveTarget} (target : t ∈ targets) (sleeves : Std.ExtTreeSet String)
    (known : ∀ sleeve ∈ sleeves.toList, ∃ t ∈ targets, sleeve = trimmed t.sleeve) :
    (sleeves.insert (trimmed t.sleeve)).toList ≠ [] ∧
      ∀ sleeve ∈ (sleeves.insert (trimmed t.sleeve)).toList, ∃ t ∈ targets, sleeve = trimmed t.sleeve := by
  have own : trimmed t.sleeve ∈ (sleeves.insert (trimmed t.sleeve)).toList :=
    Std.ExtTreeSet.mem_toList.2 (Std.ExtTreeSet.mem_insert_self)
  refine ⟨List.ne_nil_of_mem own, fun sleeve member => ?_⟩
  rw [Std.ExtTreeSet.mem_toList, Std.ExtTreeSet.mem_insert] at member
  obtain same | old := member
  · exact ⟨t, target, (Std.LawfulEqCmp.eq_of_compare same).symm⟩
  · exact known sleeve (Std.ExtTreeSet.mem_toList.2 old)

variable [UnicodeCase] {cfg : PlanConfig}

theorem aggregate_sleeves {managed : Std.ExtTreeMap String Managed} (h : aggregate targets cfg = .ok managed) :
    ∀ (k : String) (m : Managed), managed[k]? = some m → SleevesOf targets m := by
  refine aggregate_entries (P := fun _ m => SleevesOf targets m) h ?_ ?_
  · rintro t target w _ m weight ⟨-, known⟩
    obtain ⟨some, each⟩ := sleevesOf_insert target m.sleeves known
    exact ⟨some, each⟩
  · intro t target w _ contribution
    have single : (Managed.wanted cfg t w contribution).sleeves = (∅ : Std.ExtTreeSet String).insert (trimmed t.sleeve) := by
      simp [Managed.wanted]
    obtain ⟨some, each⟩ := sleevesOf_insert target ∅ (by simp)
    exact ⟨single ▸ some, single ▸ each⟩

end Sleeves

section Plans

variable [UnicodeCase] [InstantText]

/-- The intents an order of the plan can have: an instrument of the targets, either side,
    either leg. -/
def intentsOf (targets : List SleeveTarget) (account : AccountView) (cfg : PlanConfig) : Set TradeIntent :=
  {i | ∃ managed m, aggregate targets cfg = .ok managed ∧ m ∈ inSymbolOrder managed ∧
    i = ⟨account.accountId, cfg.scheduledFor, m.sleeves, m.symbol, i.side, i.close⟩}

variable [Sha256] {targets : List SleeveTarget} {account : AccountView} {prices : Std.ExtTreeMap String PricePoint}
  {book : VenueRuleBook} {policy : Policy} {cfg : PlanConfig}

/-- No two identities of the set have one truncated hash. -/
def TellsApart (used : Set TradeIntent) : Prop :=
  ∀ i ∈ used, ∀ j ∈ used, truncatedHash 20 i.identity = truncatedHash 20 j.identity → i.identity = j.identity

theorem candidate_tags_nodup {managed : Std.ExtTreeMap String Managed} {prs : List Proposal} {base : Dec}
    (full : FullHashes) (dates : CompactDates) (plainAccount : PlainId account.accountId)
    (plainSleeves : ∀ t ∈ targets, PlainId t.sleeve) (apart : TellsApart (intentsOf targets account cfg))
    (named : aggregate targets cfg = .ok managed)
    (each : List.Forall₂ (Proposed cfg account prices base) (inSymbolOrder managed) prs) :
    ((candidatesOf prs).map (PlanContext.tag ⟨account.accountId, policy, book, cfg⟩)).Nodup := by
  let ctx : PlanContext := ⟨account.accountId, policy, book, cfg⟩
  have origin : ∀ c ∈ candidatesOf prs, c.m ∈ inSymbolOrder managed := by
    intro c member
    obtain ⟨pr, inside, mine⟩ := List.mem_flatMap.1 member
    obtain ⟨i, bound, rfl⟩ := List.getElem_of_mem inside
    have within : i < (inSymbolOrder managed).length := each.length_eq ▸ bound
    rw [(each.get within bound).own c mine]
    exact List.getElem_mem within
  have label : ∀ c ∈ candidatesOf prs, ':' ∉ (ctx.intent c).sleeveLabel.toList := by
    intro c member
    obtain ⟨k, known⟩ := mem_inSymbolOrder (origin c member)
    refine sleeveLabel_free fun sleeve listed => ?_
    obtain ⟨t, target, rfl⟩ := (aggregate_sleeves named k c.m known).known sleeve listed
    exact plainId_trimmed (plainSleeves t target)
  have used : ∀ c ∈ candidatesOf prs, ctx.intent c ∈ intentsOf targets account cfg :=
    fun c member => ⟨managed, c.m, named, origin c member, rfl⟩
  have keyed : ∀ (k : String) (m : Managed), managed[k]? = some m → m.symbol = k :=
    fun k m known => (aggregate_named named k m known).symbol_eq
  have distinct := candidates_nodup each (inSymbolOrder_nodup keyed)
  rw [List.Nodup, List.pairwise_map] at distinct ⊢
  refine distinct.imp_of_mem fun {c d} first second differ same => differ ?_
  rw [← intent_tag, ← intent_tag] at same
  have identities := apart _ (used c first) _ (used d second) (TradeIntent.hash_of_tag full same)
  obtain ⟨-, -, -, symbol, -, close⟩ :=
    identity_parts plainAccount.1 plainAccount.1 dates (label c first) (label d second) identities
  exact Prod.ext symbol close

theorem place_tagless (ctx : PlanContext) (capitalBase cash : Dec) (start : Placing)
    (reducers increasers : List Candidate) : Tagless (ctx.place capitalBase cash start reducers increasers) := by
  refine .bind (.foldlM (placeReducer_tagless ctx) _ _) fun reduced => ?_
  refine .lift_bind fun reserve => .lift_bind fun available => ?_
  refine .bind (sizeBuys_tagless ctx ..) fun quantities => ?_
  exact .foldlM (placeBuy_tagless ctx available) _ _

theorem planTraced_tagless (full : FullHashes) (dates : CompactDates) (plainAccount : PlainId account.accountId)
    (plainSleeves : ∀ t ∈ targets, PlainId t.sleeve) (apart : TellsApart (intentsOf targets account cfg)) :
    Tagless (planTraced targets account prices book policy cfg) := by
  refine Tagless.bind (validate_tagless ..) fun _ => ?_
  refine Gives.bind (aggregate_tagless ..).keep fun managed named => ?_
  refine Tagless.lift_bind fun sim => ?_
  refine Gives.bind (Tagless.mapM (propose_tagless cfg book account _ _) _).keep fun prs proposals => ?_
  refine Tagless.bind (marginReport_tagless ..) fun margin => ?_
  refine Gives.bind (place_tagless ..).keep fun placing placed => ?_
  have each := (mapM_eq_ok.1 proposals).imp fun _ _ => propose_ok
  have sorted : (reducersOf (candidatesOf prs) ++ increasersOf (candidatesOf prs)).Perm (candidatesOf prs) :=
    ((List.perm_insertionSort ..).append (List.perm_insertionSort ..)).trans
      (List.filter_append_perm Candidate.reducing _)
  have nodup : ((candidatesOf prs).map (PlanContext.tag ⟨account.accountId, policy, book, cfg⟩)).Nodup :=
    candidate_tags_nodup full dates plainAccount plainSleeves apart named each
  have tried : placing.tags.Nodup := by
    obtain ⟨kept, same, sub⟩ := place_tries rfl placed
    exact same.nodup_iff.1 (sub.nodup ((sorted.map _).nodup_iff.2 nodup))
  have none : duplicateTag ∅ placing.tags = none := duplicateTag_eq_none tried (by simp)
  simp only
  split
  next tag found =>
    rw [← Placing.tried, ← Placing.tags, none] at found
    cases found
  next => trivial

theorem Accepts.tags {ctx : PlanContext} {s s' : SimState} {ps : List Placed} (accepts : Accepts ctx s ps s') :
    ∀ pl ∈ ps, pl.order.tag = ctx.tag pl.candidate := by
  induction accepts with
  | nil => simp
  | cons admits _ ih =>
      intro pl member
      obtain rfl | tail := List.mem_cons.1 member
      · rw [admits.order]
        rfl
      · exact ih pl tail

theorem plan_order_intent {p : OrderPlan} (planned : plan targets account prices book policy cfg = .ok p) :
    ∀ o ∈ p.orders, ∃ i ∈ intentsOf targets account cfg, o.tag = i.tag ∧ o.symbol = i.symbol ∧ o.side = i.side := by
  obtain ⟨placed, traced⟩ := plan_ok planned
  obtain ⟨managed, sim, proposals, ps, qs, mid, finish, parts⟩ := planTraced_ok traced
  intro o member
  rw [parts.orders_eq] at member
  obtain ⟨pl, known, rfl⟩ := List.mem_map.1 member
  obtain ⟨pr, origin, -⟩ := parts.order_origin known
  have drawn := (parts.cut known).toDrawn
  have tag : pl.order.tag = PlanContext.tag ⟨account.accountId, policy, book, cfg⟩ pl.candidate := by
    rw [parts.placed_eq, List.mem_append] at known
    obtain reduction | increase := known
    · exact parts.ordered.reductions.tags pl reduction
    · exact parts.ordered.increases.tags pl increase
  refine ⟨PlanContext.intent ⟨account.accountId, policy, book, cfg⟩ pl.candidate, ?_, ?_, drawn.symbol, drawn.side⟩
  · exact ⟨managed, pl.candidate.m, parts.managed_eq, (List.of_mem_zip origin).1, rfl⟩
  · rw [tag, intent_tag]

end Plans

end RebalancerCore
