import SignalEngine.RebalancerRun.Driver

/-! # One runner an account

Two processes are inside the same account only when the second came after the lease of
the first had run out, no lock outlasts a lease, and every candidate is reported once, in
its place.
-/

open BrokerAdapters Text Interaction

namespace RebalancerRun

open RebalancerCore (Instant InstantText Sha256 MandateEnvelope MandateStatus)
open RebalancerRisk (NaiveDate nanosPerSecond nanosPerDay dateNaive)
open Leases

namespace Driver

def World.guardOf (w : World) (i : Nat) : Option LockGuard := (w.procs i).bind fun p => p.phase.guard

def Apart (g g' : LockGuard) : Prop := g.since + lease < g'.since ∨ g'.since + lease < g.since

/-! ## Due runs -/

/-- A run in its slot, of an account that may run. -/
structure Scheduled (spec : RunSpec) : Prop where
  active : spec.envelope.status = .active
  slot : runSlotOn spec.sleeves spec.tradingDay = some spec.scheduledFor

theorem slot_in_day {slot : Nat × Nat} {h m : Nat} (hour : h < 24) (minute : m < 60) (same : slot = (h, m)) (date : NaiveDate) :
    dateNaive (date * nanosPerDay + ((slot.1 * 3600 + slot.2 * 60 : Nat) : Int) * nanosPerSecond) = date := by
  subst same
  have within : 0 ≤ ((h * 3600 + m * 60 : Nat) : Int) ∧ ((h * 3600 + m * 60 : Nat) : Int) < 86400 := by omega
  have whole : ∀ d s : Int, 0 ≤ s ∧ s < 86400 → (d * 86400000000000 + s * 1000000000) / 86400000000000 = d := by omega
  exact whole date _ within

theorem accountRunSlot_mem {sleeves : List SleeveSpec} {slot : Nat × Nat} (found : accountRunSlotUtc sleeves = some slot) :
    slot = (0, 10) ∨ slot = (15, 0) := by
  have later : ∀ (slots : List (Nat × Nat)) (a : Nat × Nat), (a = (0, 10) ∨ a = (15, 0)) →
      (∀ b ∈ slots, b = (0, 10) ∨ b = (15, 0)) → slots.foldl laterSlot a = (0, 10) ∨ slots.foldl laterSlot a = (15, 0) := by
    intro slots
    induction slots with
    | nil => exact fun a here _ => here
    | cons b slots ih =>
        intro a here all
        refine ih _ ?_ fun c member => all c (List.mem_cons_of_mem _ member)
        unfold laterSlot
        split
        · exact all b List.mem_cons_self
        · exact here
  have kinds : ∀ b ∈ sleeves.map (fun s => runSlotUtc s.kind), b = (0, 10) ∨ b = (15, 0) := by
    intro b member
    obtain ⟨s, -, rfl⟩ := List.mem_map.1 member
    cases s.kind <;> simp [runSlotUtc]
  unfold accountRunSlotUtc at found
  split at found
  · cases found
  next first rest slots =>
    obtain rfl := Option.some.inj found
    rw [slots] at kinds
    exact later rest first (kinds first List.mem_cons_self) fun c member => kinds c (List.mem_cons_of_mem _ member)

theorem dateNaive_runSlotOn {sleeves : List SleeveSpec} {date : NaiveDate} {slot : Instant}
    (found : runSlotOn sleeves date = some slot) : dateNaive slot = date := by
  obtain ⟨hm, known, rfl⟩ := Option.map_eq_some_iff.1 found
  rcases accountRunSlot_mem known with same | same
  · exact slot_in_day (by decide) (by decide) same date
  · exact slot_in_day (by decide) (by decide) same date

theorem scheduled_of_due {accounts : List ActiveAccount} {now : Instant} {spec : RunSpec}
    (due : spec ∈ findDueRuns accounts now) : Scheduled spec := by
  obtain ⟨a, -, found⟩ := List.mem_filterMap.1 due
  unfold dueRun at found
  split at found
  · cases found
  next may =>
    obtain ⟨slot, slotted, rfl⟩ := Option.map_eq_some_iff.1 found
    refine ⟨by simpa using fun inactive => may (.inl inactive), ?_⟩
    unfold slotFor at slotted
    dsimp only at slotted
    split at slotted
    · cases slotted
    next slot' known =>
      split at slotted
      · cases slotted
      split at slotted
      · cases slotted
      · obtain rfl := Option.some.inj slotted
        exact (dateNaive_runSlotOn known).symm ▸ known

theorem Scheduled.same_key {spec spec' : RunSpec} (scheduled : Scheduled spec) (scheduled' : Scheduled spec')
    (account : spec.accountId = spec'.accountId) (sleeves : spec.sleeves = spec'.sleeves)
    (day : spec.tradingDay = spec'.tradingDay) (rt rt' : AccountRuntime) (config config' : RunConfig) :
    (spec.context rt config).key = (spec'.context rt' config').key := by
  have slot : spec.scheduledFor = spec'.scheduledFor := by
    have found := scheduled.slot
    rw [sleeves, day, scheduled'.slot] at found
    exact (Option.some.inj found).symm
  simp only [RunContext.key, RunSpec.context, account, slot, sleeves]

/-! ## What every step keeps -/

/-- The candidates a process was given, each in its place. -/
structure Process.Orderly (p : Process) : Prop where
  told : p.out.map DueOutcome.spec ++ p.phase.spec.toList ++ p.due = p.given
  scheduled : ∀ spec ∈ p.given, Scheduled spec

structure Sound (w : World) : Prop where
  drawn : ∀ i g, w.guardOf i = some g → g.token ∈ w.drawn
  distinct : ∀ i j g g', i ≠ j → w.guardOf i = some g → w.guardOf j = some g' → g.token ≠ g'.token
  covered : ∀ i g, w.guardOf i = some g → Covered w.locks w.now lease g.accountId g.token g.since
  apart : ∀ i j g g', i ≠ j → w.guardOf i = some g → w.guardOf j = some g' → g.accountId = g'.accountId → Apart g g'
  bounded : Bounded w.locks w.now lease
  orderly : ∀ i p, w.procs i = some p → p.Orderly

variable {w : World} {i : Nat} {p : Process}

theorem guardOf_put (j : Nat) : (w.put i p).guardOf j = if j = i then p.phase.guard else w.guardOf j := by
  unfold World.guardOf World.put
  by_cases same : j = i
  · simp [same]
  · simp [same]

theorem orderly_put (orderly : ∀ j q, w.procs j = some q → q.Orderly) (own : p.Orderly) :
    ∀ j q, (w.put i p).procs j = some q → q.Orderly := by
  intro j q found
  change Function.update w.procs i (some p) j = some q at found
  by_cases same : j = i
  · rw [same, Function.update_self, Option.some.injEq] at found
    exact found ▸ own
  · rw [Function.update_of_ne same] at found
    exact orderly j q found

namespace Sound

variable {w : World} {i : Nat} {p : Process}

/-- The locks and the clock move on; the processes stay where they are. -/
theorem moved (sound : Sound w) {w' : World} (procs : w'.procs = w.procs) (drawn : w.drawn ⊆ w'.drawn)
    (bounded : Bounded w'.locks w'.now lease)
    (covered : ∀ i g, w.guardOf i = some g → Covered w'.locks w'.now lease g.accountId g.token g.since) : Sound w' := by
  have guards : w'.guardOf = w.guardOf := by
    funext j
    rw [World.guardOf, World.guardOf, procs]
  refine ⟨?_, ?_, ?_, ?_, bounded, ?_⟩
  · rw [guards]
    exact fun j g held => drawn (sound.drawn j g held)
  · rw [guards]
    exact sound.distinct
  · rw [guards]
    exact covered
  · rw [guards]
    exact sound.apart
  · rw [procs]
    exact sound.orderly

theorem held (sound : Sound w) {procs : Nat → Option Process}
    (guards : ∀ j g, World.guardOf { w with procs } j = some g → w.guardOf j = some g)
    (orderly : ∀ j q, procs j = some q → q.Orderly) : Sound { w with procs } where
  drawn j g found := sound.drawn j g (guards j g found)
  distinct j k g g' ne found found' := sound.distinct j k g g' ne (guards j g found) (guards k g' found')
  covered j g found := sound.covered j g (guards j g found)
  apart j k g g' ne found found' := sound.apart j k g g' ne (guards j g found) (guards k g' found')
  bounded := sound.bounded
  orderly := orderly

theorem put (sound : Sound w) (orderly : p.Orderly) (guard : ∀ g, p.phase.guard = some g → w.guardOf i = some g) :
    Sound (w.put i p) := by
  refine sound.held (fun j g found => ?_) (orderly_put sound.orderly orderly)
  have found : (w.put i p).guardOf j = some g := found
  rw [guardOf_put] at found
  split at found
  next same => exact same ▸ guard g found
  next => exact found

theorem enter (sound : Sound w) {account token : String} (none : w.guardOf i = none) (fresh : token ∉ w.drawn)
    (acquired : (w.locks.acquire account token w.now lease).1 = true) (orderly : p.Orderly)
    (guard : p.phase.guard = some ⟨account, token, w.now⟩) :
    Sound (World.put { w with locks := (w.locks.acquire account token w.now lease).2, drawn := insert token w.drawn } i p) := by
  generalize world : ({ w with locks := (w.locks.acquire account token w.now lease).2, drawn := insert token w.drawn } : World) = w'
  have locks : w'.locks = (w.locks.acquire account token w.now lease).2 := world ▸ rfl
  have now : w'.now = w.now := world ▸ rfl
  have drawn : w'.drawn = insert token w.drawn := world ▸ rfl
  have procs : w'.procs = w.procs := world ▸ rfl
  have guards : w'.guardOf = w.guardOf := by
    funext j
    rw [World.guardOf, World.guardOf, procs]
  have moved : Sound w' := by
    refine sound.moved procs (drawn ▸ Set.subset_insert ..) ?_ fun j g held => ?_
    · rw [locks, now]
      exact sound.bounded.acquire
    · rw [locks, now]
      exact (sound.covered j g held).acquire
  have old : ∀ j g, j ≠ i → (w'.put i p).guardOf j = some g → w.guardOf j = some g := by
    intro j g other found
    rwa [guardOf_put, if_neg other, guards] at found
  have new : ∀ g, (w'.put i p).guardOf i = some g → g = ⟨account, token, w.now⟩ := by
    intro g found
    rw [guardOf_put, if_pos rfl, guard, Option.some.injEq] at found
    exact found.symm
  -- the others were let in at least a lease before
  have before : ∀ j g, w.guardOf j = some g → g.accountId = account → g.since + lease < w.now := by
    rintro j g held rfl
    exact (sound.covered j g held).ended_of_acquired acquired
  refine ⟨fun j g found => ?_, fun j k g g' ne found found' => ?_, fun j g found => ?_,
    fun j k g g' ne found found' same => ?_, moved.bounded, orderly_put moved.orderly orderly⟩
  · by_cases here : j = i
    · subst here
      rw [new g found]
      exact drawn ▸ Set.mem_insert ..
    · exact moved.drawn j g (guards ▸ old j g here found)
  · have unlike : ∀ m g, w.guardOf m = some g → g.token ≠ token := by
      rintro m g held rfl
      exact fresh (sound.drawn m g held)
    by_cases here : j = i
    · subst here
      rw [new g found]
      exact (unlike k g' (old k g' ne.symm found')).symm
    · by_cases there : k = i
      · subst there
        rw [new g' found']
        exact unlike j g (old j g here found)
      · exact sound.distinct j k g g' ne (old j g here found) (old k g' there found')
  · by_cases here : j = i
    · subst here
      rw [new g found]
      have covered := covered_of_acquired acquired
      rw [← locks, ← now] at covered
      exact now ▸ covered
    · exact moved.covered j g (guards ▸ old j g here found)
  · by_cases here : j = i
    · subst here
      obtain rfl := new g found
      exact .inr (before k g' (old k g' ne.symm found') same.symm)
    · by_cases there : k = i
      · subst there
        obtain rfl := new g' found'
        exact .inl (before j g (old j g here found) same)
      · exact sound.apart j k g g' ne (old j g here found) (old k g' there found') same

theorem asked (sound : Sound w) {locks : AccountLocks} {account token : String}
    (effect : locks = w.locks ∨ locks = (w.locks.acquire account token w.now lease).2) :
    Sound { w with locks, drawn := insert token w.drawn } := by
  refine sound.moved rfl (Set.subset_insert ..) ?_ fun j g held => ?_
  · rcases effect with rfl | rfl
    · exact sound.bounded
    · exact sound.bounded.acquire
  · rcases effect with rfl | rfl
    · exact sound.covered j g held
    · exact (sound.covered j g held).acquire

/-- A guard is dropped: no other process loses its lock. -/
theorem dropped (sound : Sound w) {guard : LockGuard} {locks : AccountLocks} (own : w.guardOf i = some guard)
    (effect : locks = w.locks ∨ locks = w.locks.release guard.accountId guard.token) (orderly : p.Orderly)
    (idle : p.phase.guard = none) : Sound (World.put { w with locks } i p) := by
  have first : Sound (w.put i p) := by
    refine sound.put orderly fun g impossible => ?_
    rw [idle] at impossible
    cases impossible
  refine first.moved rfl Set.Subset.rfl ?_ fun j g held => ?_
  · rcases effect with rfl | rfl
    · exact sound.bounded
    · exact sound.bounded.release
  · have other : j ≠ i := by
      rintro rfl
      rw [guardOf_put, if_pos rfl, idle] at held
      cases held
    have held' : w.guardOf j = some g := by rwa [guardOf_put, if_neg other] at held
    rcases effect with rfl | rfl
    · exact sound.covered j g held'
    · exact (sound.covered j g held').release (sound.distinct j i g guard other held' own)

end Sound

theorem guardOf_some (here : w.procs i = some p) : w.guardOf i = p.phase.guard := by
  rw [World.guardOf, here]
  rfl

theorem Process.Orderly.skip {spec : RunSpec} {due : List RunSpec} (orderly : p.Orderly) (idle : p.phase = .idle)
    (next : p.due = spec :: due) (e : DueRunError) : (p.skip spec due e).Orderly := by
  obtain ⟨told, scheduled⟩ := orderly
  refine ⟨?_, scheduled⟩
  rw [idle, next] at told
  simpa [Process.skip, idle, Phase.spec] using told

theorem Process.Orderly.goes {phase : Phase} (orderly : p.Orderly) (same : phase.spec = p.phase.spec) :
    Process.Orderly { p with phase } := ⟨by simpa [same] using orderly.told, orderly.scheduled⟩

section Steps

variable [InstantText] [UnicodeCase] [DebugText] [DateText] [Sha256] [FloatFloor]
  {runtimes : String → Option AccountRuntime} {config : RunConfig} {w w' : World}

theorem Process.Orderly.enter {p : Process} {spec : RunSpec} {due : List RunSpec} {guard : LockGuard} (orderly : p.Orderly)
    (idle : p.phase = .idle) (next : p.due = spec :: due) (rt : Option AccountRuntime) :
    (p.enter spec due guard rt config).Orderly ∧ (p.enter spec due guard rt config).phase.guard = some guard := by
  obtain ⟨told, scheduled⟩ := orderly
  rw [idle, next] at told
  cases rt with
  | none => exact ⟨⟨by simpa [Process.enter, Phase.spec] using told, scheduled⟩, rfl⟩
  | some rt => exact ⟨⟨by simpa [Process.enter, Phase.spec] using told, scheduled⟩, rfl⟩

theorem Sound.step (sound : Sound w) (step : Step runtimes config w w') : Sound w' := by
  cases step with
  | clock later => exact sound.moved rfl Set.Subset.rfl (sound.bounded.later later) fun i g held => (sound.covered i g held).later later
  | start accounts at' free =>
      refine sound.put ⟨rfl, fun spec given => scheduled_of_due given⟩ fun g impossible => ?_
      cases impossible
  | @locked i p spec due token here idle next fresh acquired =>
      obtain ⟨orderly, guard⟩ := (sound.orderly i p here).enter idle next (runtimes spec.accountId)
      refine sound.enter ?_ fresh acquired orderly guard
      rw [guardOf_some here, idle]
      rfl
  | @busy i p spec due token here idle next fresh refused =>
      have asked : Sound { w with locks := w.locks, drawn := insert token w.drawn } :=
        sound.asked (.inl rfl : w.locks = w.locks ∨ w.locks = (w.locks.acquire spec.accountId token w.now lease).2)
      refine asked.put ((sound.orderly i p here).skip idle next _) fun g held => ?_
      exact (guardOf_some here).trans held
  | @unavailable i p spec due token locks e here idle next fresh effect =>
      have asked : Sound { w with locks, drawn := insert token w.drawn } := sound.asked effect
      refine asked.put ((sound.orderly i p here).skip idle next _) fun g held => ?_
      exact (guardOf_some here).trans held
  | @asked i p spec guard op rest answer here inside =>
      refine sound.put ((sound.orderly i p here).goes ?_) fun g held => ?_
      · rw [inside]
        rfl
      · rw [guardOf_some here, inside]
        exact held
  | @returned i p spec guard record here inside =>
      refine sound.put ((sound.orderly i p here).goes ?_) fun g held => ?_
      · rw [inside]
        rfl
      · rw [guardOf_some here, inside]
        exact held
  | @panicked i p spec guard rest message here inside =>
      refine sound.put ((sound.orderly i p here).goes ?_) fun g held => ?_
      · rw [inside]
        rfl
      · rw [guardOf_some here, inside]
        exact held
  | @released i p spec guard result locks here leaving effect =>
      have own : w.guardOf i = some guard := by
        rw [guardOf_some here, leaving]
        rfl
      obtain ⟨told, scheduled⟩ := sound.orderly i p here
      refine sound.dropped own effect ⟨?_, scheduled⟩ rfl
      rw [leaving] at told
      simpa [Phase.spec] using told
  | @died i =>
      refine sound.held (fun j g found => ?_) fun j q found => ?_
      · unfold World.guardOf at found
        dsimp only at found
        by_cases same : j = i
        · rw [same, Function.update_self] at found
          cases found
        · rwa [Function.update_of_ne same] at found
      · by_cases same : j = i
        · rw [same, Function.update_self] at found
          cases found
        · rw [Function.update_of_ne same] at found
          exact sound.orderly j q found

theorem sound_of_reached {start : Int} (reached : Relation.ReflTransGen (Step runtimes config) (World.empty start) w) :
    Sound w := by
  induction reached with
  | refl =>
      refine ⟨?_, ?_, ?_, ?_, ?_, ?_⟩ <;> simp [World.empty, World.guardOf, Bounded]
  | tail _ step sound => exact sound.step step

/-- Whatever the processes do, and whenever they die: two that are inside one account came
    in more than a lease apart, every candidate is reported once and in its place, the
    runs of an account on one day have one key, and a lock that nobody takes for longer
    than a lease may be taken. -/
theorem one_runner {start : Int} (reached : Relation.ReflTransGen (Step runtimes config) (World.empty start) w) :
    (∀ i j g g', i ≠ j → w.guardOf i = some g → w.guardOf j = some g' → g.accountId = g'.accountId →
        g.since + lease < g'.since ∨ g'.since + lease < g.since) ∧
      (∀ i p, w.procs i = some p → p.out.map DueOutcome.spec ++ p.phase.spec.toList ++ p.due = p.given) ∧
      (∀ i j p p' spec spec' rt rt', w.procs i = some p → w.procs j = some p' → spec ∈ p.given → spec' ∈ p'.given →
        spec.accountId = spec'.accountId → spec.sleeves = spec'.sleeves → spec.tradingDay = spec'.tradingDay →
        spec.envelope.status = .active ∧ (spec.context rt config).key = (spec'.context rt' config).key) ∧
      ∀ account token later, w.now + lease < later → (w.locks.acquire account token later lease).1 = true := by
  have sound := sound_of_reached reached
  refine ⟨sound.apart, fun i p here => (sound.orderly i p here).told, ?_, ?_⟩
  · intro i j p p' spec spec' rt rt' here here' given given' account sleeves day
    have scheduled := (sound.orderly i p here).scheduled spec given
    have scheduled' := (sound.orderly j p' here').scheduled spec' given'
    exact ⟨scheduled.active, scheduled.same_key scheduled' account sleeves day rt rt' config config⟩
  · intro account token later long
    refine acquire_of_ended fun l found => ?_
    have := sound.bounded account l found
    omega

end Steps

section Sample

open RebalancerCore (epochText)

attribute [local instance] asciiCase epochText Fund.planHash Fund.dayText Fund.plainQuotes Fund.sameFloat

private def fundAccount : ActiveAccount where
  accountId := "fund"
  tenantId := "house"
  mandate := Fund.mandate
  envelope := ⟨1, .active, 0, 31536000000000000⟩
  planApproved := true
  sleeves := [Fund.trend]
  mode := .paper

private def fundSpec : RunSpec where
  accountId := "fund"
  tenantId := "house"
  scheduledFor := 600000000000
  tradingDay := 0
  mode := .paper
  sleeves := [Fund.trend]
  mandate := Fund.mandate
  envelope := ⟨1, .active, 0, 31536000000000000⟩

private def fundRuntime : AccountRuntime := ⟨"kraken", (Fund.context .paper).venueRules⟩

private def fundConfig : RunConfig := (Fund.context .paper).config

private def waiting : Process := ⟨[fundSpec], [fundSpec], .idle, []⟩

private def inside (token : String) (now : Int) : Process :=
  waiting.enter fundSpec [] ⟨"fund", token, now⟩ (some fundRuntime) fundConfig

/-- At ten past midnight both processes have found the fund due. -/
private def bothWaiting : World := ((World.empty 0).put 0 waiting).put 1 waiting

private def oneInside : World :=
  World.put { bothWaiting with locks := (bothWaiting.locks.acquire "fund" "t1" 0 lease).2, drawn := insert "t1" ∅ } 0
    (inside "t1" 0)

/-- The first one was never heard of again, and its lease ran out. -/
private def ranOut : World := { oneInside with now := 3600000001 }

private def bothInside : World :=
  World.put { ranOut with locks := (ranOut.locks.acquire "fund" "t2" 3600000001 lease).2, drawn := insert "t2" ranOut.drawn } 1
    (inside "t2" 3600000001)

private theorem both_inside_reached :
    Relation.ReflTransGen (Step (fun _ => some fundRuntime) fundConfig) (World.empty 0) bothInside := by
  have first : Step (fun _ => some fundRuntime) fundConfig (World.empty 0) ((World.empty 0).put 0 waiting) :=
    .start [fundAccount] 600000000000 rfl
  have second : Step (fun _ => some fundRuntime) fundConfig ((World.empty 0).put 0 waiting) bothWaiting :=
    .start [fundAccount] 600000000000 rfl
  have entered : Step (fun _ => some fundRuntime) fundConfig bothWaiting oneInside :=
    .locked (p := waiting) rfl rfl rfl (by simp [bothWaiting, World.put, World.empty]) rfl
  have later : Step (fun _ => some fundRuntime) fundConfig oneInside ranOut := .clock (by decide)
  have followed : Step (fun _ => some fundRuntime) fundConfig ranOut bothInside :=
    .locked (p := waiting) rfl rfl rfl (by simp [ranOut, oneInside, World.put]) rfl
  exact ((((Relation.ReflTransGen.single first).tail second).tail entered).tail later).tail followed

/-- Both are inside the fund, a lease apart. -/
theorem second_after_lease : ∃ g g', bothInside.guardOf 0 = some g ∧ bothInside.guardOf 1 = some g' ∧
    (g.since + lease < g'.since ∨ g'.since + lease < g.since) :=
  ⟨⟨"fund", "t1", 0⟩, ⟨"fund", "t2", 3600000001⟩, rfl, rfl,
    (one_runner both_inside_reached).1 0 1 _ _ (by decide) rfl rfl rfl⟩

end Sample

end Driver

end RebalancerRun
