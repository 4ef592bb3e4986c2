import SignalEngine.Lib.CountRing
import SignalEngine.Lib.Runs
import Mathlib.Algebra.Order.Group.Nat

/-! # The sliding window limiter

Requests are counted in the segments of a ring that is rotated by the calls
themselves. A rotation starts the current segment anew at the time of the call, so
what is left of the last segment is lost.
-/

namespace ExecutionHandler

structure RateLimiterConfig where
  ratePerSecond : UInt32
  burstSize : UInt32
  windowSegments : UInt32

/-- Times are in nanoseconds since the limiter was made. -/
structure SlidingWindowLimiter where
  segments : List Nat
  currentSegment : Nat
  lastRotationNs : Nat
  config : RateLimiterConfig
  nsPerSegment : Nat

namespace SlidingWindowLimiter

def oneSecond : Nat := 1000000000

/-- No segments are a division by zero. -/
def new (config : RateLimiterConfig) : Option SlidingWindowLimiter :=
  if config.windowSegments.toNat = 0 then none else
    some {
      segments := List.replicate config.windowSegments.toNat 0
      currentSegment := 0
      lastRotationNs := 0
      config := config
      nsPerSegment := oneSecond / config.windowSegments.toNat }

/-- Segments shorter than a nanosecond are a division by zero. -/
def rotateIfNeeded (limiter : SlidingWindowLimiter) (nowNs : Nat) : Option SlidingWindowLimiter :=
  if limiter.nsPerSegment = 0 then none else
    let segmentsToAdvance := (nowNs - limiter.lastRotationNs) / limiter.nsPerSegment
    if 0 < segmentsToAdvance then
      let segmentCount := limiter.segments.length
      some { limiter with
        segments := CountRing.clear segmentCount limiter.currentSegment (min segmentsToAdvance segmentCount) limiter.segments
        currentSegment := (limiter.currentSegment + segmentsToAdvance) % segmentCount
        lastRotationNs := nowNs }
    else some limiter

def tryAcquire (limiter : SlidingWindowLimiter) (nowNs : Nat) : Option (SlidingWindowLimiter × Bool) := do
  let limiter ← limiter.rotateIfNeeded nowNs
  if limiter.config.ratePerSecond.toNat ≤ limiter.segments.sum then
    return (limiter, false)
  else
    return ({ limiter with segments := limiter.segments.modify limiter.currentSegment (· + 1) }, true)

end SlidingWindowLimiter

/-! ## The calls and what they got -/

/-- A granted request: its time, the segment it was counted in since the first, and its
    time in it. -/
structure Grant where
  time : Nat
  segment : Nat
  offset : Nat

def Grant.activeNs (limiter : SlidingWindowLimiter) (g : Grant) : Nat := g.segment * limiter.nsPerSegment + g.offset

/-- A refused request: its time of active rotation, and the grants before it. -/
structure Refusal where
  active : Nat
  earlier : List Grant

structure WindowWorld where
  limiter : SlidingWindowLimiter
  /-- The times of the calls so far. -/
  calls : List Nat
  /-- How many segments the rotations have advanced by. -/
  rotations : Nat
  grants : List Grant
  refusals : List Refusal

namespace WindowWorld

open SlidingWindowLimiter

def init (limiter : SlidingWindowLimiter) : WindowWorld := ⟨limiter, [], 0, [], []⟩

def advance (w : WindowWorld) (nowNs : Nat) : Nat := (nowNs - w.limiter.lastRotationNs) / w.limiter.nsPerSegment

/-- Time of active rotation: whole segments, and the time in the current one. -/
def activeNs (limiter : SlidingWindowLimiter) (rotations nowNs : Nat) : Nat :=
  rotations * limiter.nsPerSegment + (nowNs - limiter.lastRotationNs)

/-- A call; one that panics leaves everything as it was. -/
def step (w : WindowWorld) (nowNs : Nat) : WindowWorld :=
  match w.limiter.tryAcquire nowNs with
  | none => { w with calls := w.calls ++ [nowNs] }
  | some (limiter, true) =>
      { limiter := limiter
        calls := w.calls ++ [nowNs]
        rotations := w.rotations + w.advance nowNs
        grants := w.grants ++ [⟨nowNs, w.rotations + w.advance nowNs, nowNs - limiter.lastRotationNs⟩]
        refusals := w.refusals }
  | some (limiter, false) =>
      { limiter := limiter
        calls := w.calls ++ [nowNs]
        rotations := w.rotations + w.advance nowNs
        grants := w.grants
        refusals := w.refusals ++ [⟨activeNs limiter (w.rotations + w.advance nowNs) nowNs, w.grants⟩] }

def Limited (w : WindowWorld) : Prop :=
  ∀ t, (w.grants.countP fun g => t ≤ g.time ∧ g.time < t + oneSecond) ≤ w.limiter.config.ratePerSecond.toNat

/-- Who was refused had as many grants before it as the rate, in the last segments and one more. -/
def Unstarved (w : WindowWorld) : Prop :=
  ∀ r ∈ w.refusals, w.limiter.config.ratePerSecond.toNat ≤ r.earlier.countP fun g =>
    r.active < g.activeNs w.limiter + (w.limiter.segments.length + 1) * w.limiter.nsPerSegment

/-- The grants that a call does not find counted are a second old, or there were fewer calls
    than the rate in the second before it. -/
def Spares (w : WindowWorld) (nowNs : Nat) : Prop :=
  (∀ g ∈ w.grants, g.segment + w.limiter.segments.length ≤ w.rotations + w.advance nowNs → g.time + oneSecond ≤ nowNs) ∨
    (w.calls.countP fun t => nowNs < t + oneSecond) < w.limiter.config.ratePerSecond.toNat

instance (w : WindowWorld) (nowNs : Nat) : Decidable (Spares w nowNs) :=
  inferInstanceAs (Decidable ((∀ g ∈ w.grants, g.segment + w.limiter.segments.length ≤ w.rotations + w.advance nowNs →
    g.time + oneSecond ≤ nowNs) ∨ _ < _))

/-! ## What a call does -/

variable {w : WindowWorld} {nowNs : Nat} {limiter : SlidingWindowLimiter}

/-- The segments count the grants of the last positions. -/
structure Counted (w : WindowWorld) : Prop where
  positive : 0 < w.limiter.segments.length
  segments : w.limiter.segments =
    CountRing.counts w.limiter.segments.length w.rotations (w.grants.map Grant.segment)
  current : w.limiter.currentSegment = w.rotations % w.limiter.segments.length
  behind : ∀ g ∈ w.grants, g.segment ≤ w.rotations

structure Rotated (w : WindowWorld) (nowNs : Nat) (limiter : SlidingWindowLimiter) : Prop where
  segments : limiter.segments =
    CountRing.counts w.limiter.segments.length (w.rotations + w.advance nowNs) (w.grants.map Grant.segment)
  current : limiter.currentSegment = (w.rotations + w.advance nowNs) % w.limiter.segments.length
  recent : nowNs - limiter.lastRotationNs < w.limiter.nsPerSegment
  config : limiter.config = w.limiter.config
  nsPerSegment : limiter.nsPerSegment = w.limiter.nsPerSegment

theorem Rotated.length (rotated : Rotated w nowNs limiter) : limiter.segments.length = w.limiter.segments.length := by
  rw [rotated.segments, CountRing.length_counts]

def counted (w : WindowWorld) (nowNs : Nat) : Nat :=
  w.grants.countP fun g => w.rotations + w.advance nowNs < g.segment + w.limiter.segments.length

theorem Counted.rotated (counted : Counted w) (positive : 0 < w.limiter.nsPerSegment) (nowNs : Nat) :
    ∃ limiter, w.limiter.rotateIfNeeded nowNs = some limiter ∧ Rotated w nowNs limiter := by
  rw [rotateIfNeeded, if_neg positive.ne']
  by_cases turns : 0 < w.advance nowNs
  · refine ⟨_, if_pos turns, ?_⟩
    have passed : ∀ p ∈ w.grants.map Grant.segment, p ≤ w.rotations := by
      intro p member
      obtain ⟨g, inside, rfl⟩ := List.mem_map.1 member
      exact counted.behind g inside
    constructor
    case segments =>
      have cleared := CountRing.clear_counts (n := w.limiter.segments.length) passed (w.advance nowNs)
      rw [← counted.segments, ← CountRing.clear_mod, ← counted.current] at cleared
      exact cleared
    case current =>
      simp only [counted.current, Nat.mod_add_mod]
      rfl
    case recent => simpa using positive
    case config => rfl
    case nsPerSegment => rfl
  · refine ⟨_, if_neg turns, ?_⟩
    have still : w.advance nowNs = 0 := Nat.eq_zero_of_not_pos turns
    constructor
    case segments =>
      rw [still, Nat.add_zero]
      exact counted.segments
    case current =>
      rw [still, Nat.add_zero]
      exact counted.current
    case recent =>
      rcases Nat.div_eq_zero_iff.1 still with none | short
      · omega
      · exact short
    case config => rfl
    case nsPerSegment => rfl

/-- A call rotates, and then grants or refuses by the grants that are still counted. -/
theorem Counted.step_cases (invariant : Counted w) (nowNs : Nat) :
    (w.limiter.nsPerSegment = 0 ∧ w.step nowNs = { w with calls := w.calls ++ [nowNs] }) ∨
    ∃ limiter, Rotated w nowNs limiter ∧
      ((w.counted nowNs < w.limiter.config.ratePerSecond.toNat ∧ w.step nowNs =
          { limiter := { limiter with segments := limiter.segments.modify limiter.currentSegment (· + 1) }
            calls := w.calls ++ [nowNs]
            rotations := w.rotations + w.advance nowNs
            grants := w.grants ++ [⟨nowNs, w.rotations + w.advance nowNs, nowNs - limiter.lastRotationNs⟩]
            refusals := w.refusals }) ∨
        (w.limiter.config.ratePerSecond.toNat ≤ w.counted nowNs ∧ w.step nowNs =
          { limiter := limiter
            calls := w.calls ++ [nowNs]
            rotations := w.rotations + w.advance nowNs
            grants := w.grants
            refusals := w.refusals ++ [⟨activeNs limiter (w.rotations + w.advance nowNs) nowNs, w.grants⟩] })) := by
  by_cases short : w.limiter.nsPerSegment = 0
  · left
    refine ⟨short, ?_⟩
    have panics : w.limiter.tryAcquire nowNs = none := by
      rw [tryAcquire, rotateIfNeeded, if_pos short]
      rfl
    rw [step, panics]
  · right
    obtain ⟨limiter, rotates, rotated⟩ := invariant.rotated (Nat.pos_of_ne_zero short) nowNs
    refine ⟨limiter, rotated, ?_⟩
    have total : limiter.segments.sum = w.counted nowNs := by
      rw [rotated.segments, CountRing.sum_counts invariant.positive, List.countP_map]
      rfl
    by_cases full : w.limiter.config.ratePerSecond.toNat ≤ w.counted nowNs
    · right
      refine ⟨full, ?_⟩
      have answer : w.limiter.tryAcquire nowNs = some (limiter, false) := by
        rw [tryAcquire, rotates]
        exact if_pos (by rwa [rotated.config, total])
      rw [step, answer]
    · left
      refine ⟨not_le.1 full, ?_⟩
      have answer : w.limiter.tryAcquire nowNs =
          some ({ limiter with segments := limiter.segments.modify limiter.currentSegment (· + 1) }, true) := by
        rw [tryAcquire, rotates]
        exact if_neg (by rwa [rotated.config, total])
      rw [step, answer]

/-! ## Runs -/

theorem Counted.limiter_step (invariant : Counted w) (nowNs : Nat) :
    (w.step nowNs).limiter.config = w.limiter.config ∧
      (w.step nowNs).limiter.nsPerSegment = w.limiter.nsPerSegment ∧
      (w.step nowNs).limiter.segments.length = w.limiter.segments.length := by
  obtain ⟨-, panics⟩ | ⟨limiter, rotated, ⟨-, granted⟩ | ⟨-, refused⟩⟩ := invariant.step_cases nowNs
  · rw [panics]
    exact ⟨rfl, rfl, rfl⟩
  · rw [granted]
    exact ⟨rotated.config, rotated.nsPerSegment, (List.length_modify ..).trans rotated.length⟩
  · rw [refused]
    exact ⟨rotated.config, rotated.nsPerSegment, rotated.length⟩

theorem Counted.step (invariant : Counted w) (nowNs : Nat) : Counted (w.step nowNs) := by
  obtain ⟨-, panics⟩ | ⟨limiter, rotated, ⟨-, granted⟩ | ⟨-, refused⟩⟩ := invariant.step_cases nowNs
  · rw [panics]
    exact ⟨invariant.positive, invariant.segments, invariant.current, invariant.behind⟩
  · rw [granted]
    constructor
    case positive => simpa only [List.length_modify, rotated.length] using invariant.positive
    case segments =>
      simp only [List.length_modify, rotated.length]
      rw [rotated.segments, rotated.current, CountRing.modify_counts invariant.positive]
      simp
    case current => simpa only [List.length_modify, rotated.length] using rotated.current
    case behind =>
      intro g member
      rcases List.mem_append.1 member with earlier | new
      · exact (invariant.behind g earlier).trans (Nat.le_add_right _ _)
      · obtain rfl := List.mem_singleton.1 new
        exact le_rfl
  · rw [refused]
    constructor
    case positive => simpa only [rotated.length] using invariant.positive
    case segments => simpa only [rotated.length] using rotated.segments
    case current => simpa only [rotated.length] using rotated.current
    case behind => exact fun g member => (invariant.behind g member).trans (Nat.le_add_right _ _)

theorem Rotated.recent_of_counted (rotated : Rotated w nowNs limiter) {g : Grant}
    (counted : w.rotations + w.advance nowNs < g.segment + w.limiter.segments.length) :
    activeNs limiter (w.rotations + w.advance nowNs) nowNs <
      g.activeNs w.limiter + (w.limiter.segments.length + 1) * w.limiter.nsPerSegment := by
  rw [activeNs, rotated.nsPerSegment, Grant.activeNs]
  calc (w.rotations + w.advance nowNs) * w.limiter.nsPerSegment + (nowNs - limiter.lastRotationNs)
      < (w.rotations + w.advance nowNs) * w.limiter.nsPerSegment + w.limiter.nsPerSegment :=
        Nat.add_lt_add_left rotated.recent _
    _ = (w.rotations + w.advance nowNs + 1) * w.limiter.nsPerSegment := (Nat.succ_mul _ _).symm
    _ ≤ (g.segment + (w.limiter.segments.length + 1)) * w.limiter.nsPerSegment :=
        Nat.mul_le_mul_right _ (by omega)
    _ ≤ g.segment * w.limiter.nsPerSegment + g.offset + (w.limiter.segments.length + 1) * w.limiter.nsPerSegment := by
        rw [Nat.add_mul]
        omega

theorem Unstarved.step (unstarved : Unstarved w) (invariant : Counted w) (nowNs : Nat) : Unstarved (w.step nowNs) := by
  obtain ⟨config, ns, length⟩ := invariant.limiter_step nowNs
  intro r member
  simp only [config, ns, length, Grant.activeNs]
  obtain ⟨-, panics⟩ | ⟨limiter, rotated, ⟨-, granted⟩ | ⟨full, refused⟩⟩ := invariant.step_cases nowNs
  · rw [panics] at member
    exact unstarved r member
  · rw [granted] at member
    exact unstarved r member
  · rw [refused] at member
    rcases List.mem_append.1 member with earlier | new
    · exact unstarved r earlier
    · obtain rfl := List.mem_singleton.1 new
      refine full.trans (List.countP_mono_left fun g _ counted => ?_)
      rw [decide_eq_true_eq] at counted ⊢
      exact rotated.recent_of_counted counted

/-- Every grant was a call. -/
def Called (w : WindowWorld) : Prop := (w.grants.map Grant.time).Sublist w.calls

theorem Called.step (called : Called w) (invariant : Counted w) (nowNs : Nat) : Called (w.step nowNs) := by
  obtain ⟨-, panics⟩ | ⟨limiter, -, ⟨-, granted⟩ | ⟨-, refused⟩⟩ := invariant.step_cases nowNs
  · rw [panics]
    exact List.Sublist.trans called (List.sublist_append_left _ _)
  · rw [granted]
    simpa [Called] using List.Sublist.append called (List.Sublist.refl [nowNs])
  · rw [refused]
    exact List.Sublist.trans called (List.sublist_append_left _ _)

/-- A call that is granted is one of at most the rate in every second it lies in. -/
theorem Spares.recent (spares : Spares w nowNs) (called : Called w)
    (below : w.counted nowNs < w.limiter.config.ratePerSecond.toNat) {t : Nat} (within : t ≤ nowNs ∧ nowNs < t + oneSecond) :
    (w.grants.countP fun g => t ≤ g.time ∧ g.time < t + oneSecond) < w.limiter.config.ratePerSecond.toNat := by
  rcases spares with old | sparse
  · -- what is not a second old is still counted
    refine (List.countP_mono_left fun g member inside => ?_).trans_lt below
    rw [decide_eq_true_eq] at inside ⊢
    by_contra out
    have aged := old g member (not_lt.1 out)
    omega
  · calc w.grants.countP (fun g => t ≤ g.time ∧ g.time < t + oneSecond)
        ≤ w.grants.countP (fun g => nowNs < g.time + oneSecond) := by
          refine List.countP_mono_left fun g _ inside => ?_
          rw [decide_eq_true_eq] at inside ⊢
          omega
      _ = (w.grants.map Grant.time).countP fun t => nowNs < t + oneSecond := by
          rw [List.countP_map]
          rfl
      _ ≤ w.calls.countP fun t => nowNs < t + oneSecond := List.Sublist.countP_le called
      _ < w.limiter.config.ratePerSecond.toNat := sparse

theorem Limited.step (limited : Limited w) (invariant : Counted w) (called : Called w) (spares : Spares w nowNs) :
    Limited (w.step nowNs) := by
  intro t
  rw [(invariant.limiter_step nowNs).1]
  obtain ⟨-, panics⟩ | ⟨limiter, -, ⟨below, granted⟩ | ⟨-, refused⟩⟩ := invariant.step_cases nowNs
  · rw [panics]
    exact limited t
  · rw [granted, List.countP_append]
    by_cases inside : t ≤ nowNs ∧ nowNs < t + oneSecond
    · have recent := spares.recent called below inside
      simp only [List.countP_singleton, inside, and_self, decide_true, if_true]
      exact recent
    · simpa [List.countP_singleton, inside] using limited t
  · rw [refused]
    exact limited t

theorem counted_init {config : RateLimiterConfig} (made : SlidingWindowLimiter.new config = some limiter) :
    Counted (init limiter) := by
  rw [SlidingWindowLimiter.new] at made
  split at made
  · cases made
  next some =>
    obtain rfl := Option.some.inj made
    constructor
    case positive => simpa [init] using Nat.pos_of_ne_zero some
    case segments => simp [init]
    case current => simp [init]
    case behind => simp [init]

/-- Nobody is starved in any run, and no second has more grants than the rate in a run
    whose calls are spared. -/
theorem every_second_limited (config : RateLimiterConfig) (limiter : SlidingWindowLimiter)
    (made : SlidingWindowLimiter.new config = some limiter) (times : List Nat) (_ordered : times.Pairwise (· ≤ ·)) :
    Runs.Visits step Unstarved (init limiter) times ∧
      (Runs.Guarded step Spares (init limiter) times →
        Runs.Visits step (fun w => Limited w ∧ Unstarved w) (init limiter) times) := by
  have start := counted_init made
  have fed : Unstarved (init limiter) := by simp [Unstarved, init]
  constructor
  · have visits : Runs.Visits step (fun w => Counted w ∧ Unstarved w) (init limiter) times :=
      Runs.visits_of_guarded (C := fun _ _ => True)
        (fun _ nowNs invariant _ => ⟨invariant.1.step nowNs, invariant.2.step invariant.1 nowNs⟩) ⟨start, fed⟩
        (Runs.guarded_of_forall fun _ _ => trivial)
    exact visits.mono fun _ invariant => invariant.2
  · intro spares
    have visits := Runs.visits_of_guarded (P := fun w => (Counted w ∧ Called w) ∧ Limited w ∧ Unstarved w)
      (fun w nowNs invariant allowed => by
        obtain ⟨⟨counted, called⟩, limited, unstarved⟩ := invariant
        exact ⟨⟨counted.step nowNs, called.step counted nowNs⟩, limited.step counted called allowed,
          unstarved.step counted nowNs⟩)
      ⟨⟨start, by simp [Called, init]⟩, by simp [Limited, init], fed⟩ spares
    exact visits.mono fun _ invariant => invariant.2

/-! ## Two grants in a second -/

namespace LateSegment

def onePerSecond : RateLimiterConfig := ⟨1, 1, 10⟩

def twoPerSecond : RateLimiterConfig := ⟨2, 1, 10⟩

def tenSegments (config : RateLimiterConfig) : SlidingWindowLimiter := ⟨List.replicate 10 0, 0, 0, config, 100000000⟩

/-- A call at the start and one a second later; and, at two a second, a young grant that is
    cleared while there are few calls. -/
theorem second_apart :
    Runs.Visits step (fun w => Limited w ∧ Unstarved w) (init (tenSegments onePerSecond)) [0, oneSecond] ∧
      Runs.Visits step (fun w => Limited w ∧ Unstarved w) (init (tenSegments twoPerSecond))
        [99999999, oneSecond, 2 * oneSecond] :=
  ⟨(every_second_limited onePerSecond _ rfl _ (by decide)).2 (by decide),
    (every_second_limited twoPerSecond _ rfl _ (by decide)).2 (by decide)⟩

/-- The first grant comes at the end of the first segment. -/
theorem late_grant_cleared : ¬ ∀ (config : RateLimiterConfig) (limiter : SlidingWindowLimiter) (times : List Nat),
    1 ≤ config.ratePerSecond → SlidingWindowLimiter.new config = some limiter → times.Pairwise (· ≤ ·) →
      Runs.Visits step (fun w => Limited w ∧ Unstarved w) (init limiter) times := by
  intro always
  have visits := always onePerSecond _ [99999999, oneSecond] (by decide) rfl (by decide)
  have two := visits.2.2.1 99999999
  exact absurd two (by decide)

end LateSegment

end WindowWorld

end ExecutionHandler
