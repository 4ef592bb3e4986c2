import SignalEngine.ExecutionHandler.SlidingWindow
import SignalEngine.Lib.Binary64
import SignalEngine.Lib.UpdateFirst

/-! # The token bucket

Callers take tokens that time puts back. Every load and every exchange of a number
they share is a step of its own, and the steps of the callers come in any order.
-/

namespace ExecutionHandler

/-- Tokens are scaled by 1000, times are in nanoseconds since the bucket was made. -/
structure AtomicTokenBucket where
  tokens : Int
  lastRefillNs : Nat
  config : RateLimiterConfig
  tokensPerNs : ℚ
  maxTokens : Int

namespace AtomicTokenBucket

def scale : Nat := 1000

def new (config : RateLimiterConfig) : AtomicTokenBucket where
  tokens := config.burstSize.toNat * scale
  lastRefillNs := 0
  config := config
  tokensPerNs := Binary64.round (config.ratePerSecond.toNat / 1000000000)
  maxTokens := config.burstSize.toNat * scale

def tokensToAdd (bucket : AtomicTokenBucket) (elapsedNs : Nat) : Int :=
  Binary64.toI64 (Binary64.round (Binary64.round (Binary64.round elapsedNs * bucket.tokensPerNs) * scale))

end AtomicTokenBucket

/-! ## Callers -/

/-- What a call of `try_acquire_n` does next, with what it has read. -/
inductive AcquirePhase where
  | readClock
  | loadLast (nowNs : Nat)
  | exchangeLast (nowNs lastRefill : Nat)
  | loadTokens (tokensToAdd : Int)
  | exchangeAdd (tokensToAdd current : Int)
  | loadCurrent
  | exchangeTake (current : Int)
  | done (granted : Bool)

/-- The times of a refill that is about to set the last one. -/
structure Refill where
  nowNs : Nat
  lastRefill : Nat

def Refill.elapsedNs (r : Refill) : Nat := r.nowNs - r.lastRefill

def AcquirePhase.refill? : AcquirePhase → Option Refill
  | .exchangeLast nowNs lastRefill => some ⟨nowNs, lastRefill⟩
  | _ => none

structure Acquirer where
  n : UInt32
  phase : AcquirePhase

namespace Acquirer

def cost (c : Acquirer) : Int := c.n.toNat * AtomicTokenBucket.scale

/-- One load or one exchange. A weak exchange may fail for no reason; the sum of the
    tokens wraps. -/
def move (bucket : AtomicTokenBucket) (clock : Nat) (spurious : Bool) (c : Acquirer) : AtomicTokenBucket × AcquirePhase :=
  match c.phase with
  | .readClock => (bucket, .loadLast (clock % 2 ^ 64))
  | .loadLast nowNs =>
      let lastRefill := bucket.lastRefillNs
      if nowNs ≤ lastRefill then (bucket, .loadCurrent)
      else if 0 < bucket.tokensToAdd (nowNs - lastRefill) then (bucket, .exchangeLast nowNs lastRefill)
      else (bucket, .loadCurrent)
  | .exchangeLast nowNs lastRefill =>
      -- the outcome of the exchange is not looked at
      (if bucket.lastRefillNs = lastRefill then { bucket with lastRefillNs := nowNs } else bucket,
        .loadTokens (bucket.tokensToAdd (nowNs - lastRefill)))
  | .loadTokens tokensToAdd => (bucket, .exchangeAdd tokensToAdd bucket.tokens)
  | .exchangeAdd tokensToAdd current =>
      if bucket.tokens = current ∧ spurious = false then
        ({ bucket with tokens := min ((current + tokensToAdd).bmod (2 ^ 64)) bucket.maxTokens }, .loadCurrent)
      else (bucket, .loadTokens tokensToAdd)
  | .loadCurrent => (bucket, if bucket.tokens < c.cost then .done false else .exchangeTake bucket.tokens)
  | .exchangeTake current =>
      if bucket.tokens = current ∧ spurious = false then ({ bucket with tokens := current - c.cost }, .done true)
      else (bucket, .loadCurrent)
  | .done granted => (bucket, .done granted)

end Acquirer

structure BucketWorld where
  bucket : AtomicTokenBucket
  clock : Nat
  callers : List Acquirer

inductive BucketEvent where
  | pass (ns : Nat)
  | call (n : UInt32)
  | move (caller : Nat) (spurious : Bool)

namespace BucketWorld

def init (config : RateLimiterConfig) : BucketWorld := ⟨.new config, 0, []⟩

def step (w : BucketWorld) : BucketEvent → BucketWorld
  | .pass ns => { w with clock := w.clock + ns }
  | .call n => { w with callers := w.callers ++ [⟨n, .readClock⟩] }
  | .move i spurious =>
      match w.callers[i]? with
      | none => w
      | some c =>
          let (bucket, phase) := c.move w.bucket w.clock spurious
          { w with bucket, callers := w.callers.set i ⟨c.n, phase⟩ }

def granted (w : BucketWorld) : Nat :=
  (w.callers.map fun c => match c.phase with
    | .done true => c.n.toNat
    | _ => 0).sum

/-- No more was granted than a full bucket and what the time has earned, and the stored
    tokens are in range. -/
structure WithinRate (config : RateLimiterConfig) (w : BucketWorld) : Prop where
  granted : (w.granted : ℚ) ≤ config.burstSize.toNat + config.ratePerSecond.toNat * (w.clock / 1000000000)
  nonneg : 0 ≤ w.bucket.tokens
  most : w.bucket.tokens ≤ config.burstSize.toNat * AtomicTokenBucket.scale

/-- A refill whose amount fits in the stored number. -/
def Fits (config : RateLimiterConfig) (w : BucketWorld) : BucketEvent → Prop
  | .move i _ =>
      ∀ refill ∈ (w.callers[i]?).bind fun c => c.phase.refill?,
        refill.elapsedNs * config.ratePerSecond.toNat ≤ 9 * 10 ^ 24
  | _ => True

/-- A refill that finds the time it has read when it sets it anew, and puts back no more
    than two million tokens, which doubles can still count. -/
def Alone (config : RateLimiterConfig) (w : BucketWorld) : BucketEvent → Prop
  | .move i _ =>
      ∀ refill ∈ (w.callers[i]?).bind fun c => c.phase.refill?,
        w.bucket.lastRefillNs = refill.lastRefill ∧
          min (refill.elapsedNs * config.ratePerSecond.toNat) (config.burstSize.toNat * 10 ^ 9) ≤ 2 * 10 ^ 15
  | _ => True

instance (config : RateLimiterConfig) (w : BucketWorld) : (event : BucketEvent) → Decidable (Fits config w event)
  | .pass _ => isTrue trivial
  | .call _ => isTrue trivial
  | .move i _ => inferInstanceAs (Decidable (∀ refill ∈ (w.callers[i]?).bind fun c => c.phase.refill?, _ ≤ _))

instance (config : RateLimiterConfig) (w : BucketWorld) : (event : BucketEvent) → Decidable (Alone config w event)
  | .pass _ => isTrue trivial
  | .call _ => isTrue trivial
  | .move i _ => inferInstanceAs (Decidable (∀ refill ∈ (w.callers[i]?).bind fun c => c.phase.refill?, _ ∧ _))

def asked (w : BucketWorld) : Nat := (w.callers.map fun c => c.n.toNat).sum

/-- All the tokens that were asked for so far may be given. -/
def Affordable (config : RateLimiterConfig) (w : BucketWorld) : Prop :=
  (w.asked : ℚ) ≤ config.burstSize.toNat + config.ratePerSecond.toNat * (w.clock / 1000000000)

instance (config : RateLimiterConfig) (w : BucketWorld) : Decidable (Affordable config w) :=
  inferInstanceAs (Decidable (_ ≤ _))

end BucketWorld

/-! ## What a refill adds -/

namespace AtomicTokenBucket

variable {bucket : AtomicTokenBucket} {config : RateLimiterConfig}

theorem tokensToAdd_nonneg (perNs : bucket.tokensPerNs = (new config).tokensPerNs) (elapsedNs : Nat) :
    0 ≤ bucket.tokensToAdd elapsedNs := by
  have rate : 0 ≤ bucket.tokensPerNs := perNs ▸ Binary64.round_nonneg (by positivity)
  have elapsed : 0 ≤ Binary64.round elapsedNs := Binary64.round_nonneg (Nat.cast_nonneg _)
  exact Binary64.toI64_nonneg (Binary64.round_nonneg
    (mul_nonneg (Binary64.round_nonneg (mul_nonneg elapsed rate)) (Nat.cast_nonneg _)))

theorem tokensToAdd_near (perNs : bucket.tokensPerNs = (new config).tokensPerNs) (elapsedNs : Nat) :
    (bucket.tokensToAdd elapsedNs : ℚ) * 10 ^ 6 ≤ elapsedNs * config.ratePerSecond.toNat * (1 + 45 / 10 ^ 17) := by
  have u : (0 : ℚ) ≤ 1 + 1 / 2 ^ 53 := by norm_num
  have rate : bucket.tokensPerNs ≤ config.ratePerSecond.toNat / 1000000000 * (1 + 1 / 2 ^ 53) :=
    perNs ▸ Binary64.round_le (by positivity) le_rfl
  have rateNonneg : 0 ≤ bucket.tokensPerNs := perNs ▸ Binary64.round_nonneg (by positivity)
  have elapsed : Binary64.round elapsedNs ≤ elapsedNs * (1 + 1 / 2 ^ 53) :=
    Binary64.round_le (Nat.cast_nonneg _) le_rfl
  have elapsedNonneg : 0 ≤ Binary64.round elapsedNs := Binary64.round_nonneg (Nat.cast_nonneg _)
  have earned : Binary64.round (Binary64.round elapsedNs * bucket.tokensPerNs) ≤
      elapsedNs * (1 + 1 / 2 ^ 53) * (config.ratePerSecond.toNat / 1000000000 * (1 + 1 / 2 ^ 53)) * (1 + 1 / 2 ^ 53) :=
    Binary64.round_le (mul_nonneg elapsedNonneg rateNonneg) (mul_le_mul elapsed rate rateNonneg (by positivity))
  have scaled : Binary64.round (Binary64.round (Binary64.round elapsedNs * bucket.tokensPerNs) * scale) ≤
      elapsedNs * (1 + 1 / 2 ^ 53) * (config.ratePerSecond.toNat / 1000000000 * (1 + 1 / 2 ^ 53)) * (1 + 1 / 2 ^ 53) *
        scale * (1 + 1 / 2 ^ 53) :=
    Binary64.round_le
      (mul_nonneg (Binary64.round_nonneg (mul_nonneg elapsedNonneg rateNonneg)) (Nat.cast_nonneg _))
      (mul_le_mul_of_nonneg_right earned (Nat.cast_nonneg _))
  have product : (0 : ℚ) ≤ elapsedNs * config.ratePerSecond.toNat := by positivity
  calc (bucket.tokensToAdd elapsedNs : ℚ) * 10 ^ 6
      ≤ elapsedNs * (1 + 1 / 2 ^ 53) * (config.ratePerSecond.toNat / 1000000000 * (1 + 1 / 2 ^ 53)) *
          (1 + 1 / 2 ^ 53) * scale * (1 + 1 / 2 ^ 53) * 10 ^ 6 :=
        mul_le_mul_of_nonneg_right ((Binary64.toI64_le _).trans scaled) (by norm_num)
    _ = elapsedNs * config.ratePerSecond.toNat * (1 + 1 / 2 ^ 53) ^ 4 := by
        rw [scale]
        push_cast
        ring
    _ ≤ elapsedNs * config.ratePerSecond.toNat * (1 + 45 / 10 ^ 17) :=
        mul_le_mul_of_nonneg_left (by norm_num) product

theorem added_le_earned (perNs : bucket.tokensPerNs = (new config).tokensPerNs) (elapsedNs : Nat)
    (small : min (elapsedNs * config.ratePerSecond.toNat) (config.burstSize.toNat * 10 ^ 9) ≤ 2 * 10 ^ 15) :
    min (bucket.tokensToAdd elapsedNs) (new config).maxTokens * 10 ^ 6 ≤ elapsedNs * config.ratePerSecond.toNat := by
  have near := tokensToAdd_near perNs elapsedNs
  by_cases few : elapsedNs * config.ratePerSecond.toNat ≤ 2 * 10 ^ 15
  · have error : (elapsedNs * config.ratePerSecond.toNat * (45 / 10 ^ 17) : ℚ) < 1 := by
      have few' : (elapsedNs * config.ratePerSecond.toNat : ℚ) ≤ 2 * 10 ^ 15 := by exact_mod_cast few
      linarith
    have close : (bucket.tokensToAdd elapsedNs : ℚ) * 10 ^ 6 < elapsedNs * config.ratePerSecond.toNat + 1 := by
      linarith
    have whole : bucket.tokensToAdd elapsedNs * 10 ^ 6 < elapsedNs * config.ratePerSecond.toNat + 1 := by
      exact_mod_cast close
    have least := min_le_left (bucket.tokensToAdd elapsedNs) (new config).maxTokens
    omega
  · -- the bucket is full before the doubles are too coarse
    have capped := (min_le_iff.1 small).resolve_left few
    have least := min_le_right (bucket.tokensToAdd elapsedNs) (new config).maxTokens
    have most : (new config).maxTokens = config.burstSize.toNat * 1000 := rfl
    have many : ((2 * 10 ^ 15 : Nat) : Int) < (elapsedNs * config.ratePerSecond.toNat : Nat) := by
      exact_mod_cast not_le.1 few
    push_cast at many
    omega

theorem tokensToAdd_le (perNs : bucket.tokensPerNs = (new config).tokensPerNs) {elapsedNs : Nat}
    (small : elapsedNs * config.ratePerSecond.toNat ≤ 9 * 10 ^ 24) : bucket.tokensToAdd elapsedNs ≤ 91 * 10 ^ 17 := by
  have near := tokensToAdd_near perNs elapsedNs
  have small' : (elapsedNs * config.ratePerSecond.toNat : ℚ) ≤ 9 * 10 ^ 24 := by exact_mod_cast small
  have bound : (bucket.tokensToAdd elapsedNs : ℚ) ≤ 91 * 10 ^ 17 := by linarith
  exact_mod_cast bound

end AtomicTokenBucket

/-! ## Runs -/

/-- What a caller has been given, or is about to put back, in parts of a token. -/
def Acquirer.claimed (maxTokens : Int) (c : Acquirer) : Int :=
  match c.phase with
  | .loadTokens tokensToAdd | .exchangeAdd tokensToAdd _ => min tokensToAdd maxTokens
  | .done true => c.cost
  | _ => 0

/-- What a caller has read is not ahead of the clock, and what it adds and takes is in range. -/
def Acquirer.Timely (clock : Nat) (c : Acquirer) : Prop :=
  match c.phase with
  | .loadLast nowNs => nowNs ≤ clock
  | .exchangeLast nowNs lastRefill => lastRefill < nowNs ∧ nowNs ≤ clock
  | .loadTokens tokensToAdd | .exchangeAdd tokensToAdd _ => 0 ≤ tokensToAdd ∧ tokensToAdd ≤ 91 * 10 ^ 17
  | .exchangeTake current => c.cost ≤ current
  | _ => True

theorem Acquirer.cost_nonneg (c : Acquirer) : 0 ≤ c.cost := by
  rw [Acquirer.cost]
  positivity

theorem Acquirer.Timely.later {c : Acquirer} {clock later : Nat} (timely : c.Timely clock) (le : clock ≤ later) :
    c.Timely later := by
  unfold Timely at timely ⊢
  split at timely
  · exact timely.trans le
  · exact ⟨timely.1, timely.2.trans le⟩
  · exact timely
  · exact timely
  · exact timely
  · trivial

namespace BucketWorld

variable {config : RateLimiterConfig} {w : BucketWorld}

/-- The numbers of the bucket and of the callers are in range. -/
structure Ranged (config : RateLimiterConfig) (w : BucketWorld) : Prop where
  perNs : w.bucket.tokensPerNs = (AtomicTokenBucket.new config).tokensPerNs
  max : w.bucket.maxTokens = (AtomicTokenBucket.new config).maxTokens
  nonneg : 0 ≤ w.bucket.tokens
  most : w.bucket.tokens ≤ w.bucket.maxTokens
  past : w.bucket.lastRefillNs ≤ w.clock
  timely : ∀ c ∈ w.callers, c.Timely w.clock

/-- All that callers hold and may take is backed by the first filling and by the time up
    to the last refill. -/
def Backed (config : RateLimiterConfig) (w : BucketWorld) : Prop :=
  ((w.callers.map (Acquirer.claimed w.bucket.maxTokens)).sum + w.bucket.tokens) * 10 ^ 6 ≤
    w.bucket.maxTokens * 10 ^ 6 + w.bucket.lastRefillNs * config.ratePerSecond.toNat

theorem ranged_init (config : RateLimiterConfig) : Ranged config (init config) where
  perNs := rfl
  max := rfl
  nonneg := Int.mul_nonneg (Int.natCast_nonneg _) (Int.natCast_nonneg _)
  most := le_rfl
  past := le_rfl
  timely := by simp [init]

theorem backed_init (config : RateLimiterConfig) : Backed config (init config) := by
  simp [Backed, init, AtomicTokenBucket.new]

/-- What a move of a caller keeps, and what it keeps when its refill is alone. -/
structure Kept (config : RateLimiterConfig) (w : BucketWorld) (c : Acquirer) (alone : Prop) (bucket : AtomicTokenBucket)
    (phase : AcquirePhase) : Prop where
  perNs : bucket.tokensPerNs = w.bucket.tokensPerNs
  max : bucket.maxTokens = w.bucket.maxTokens
  nonneg : 0 ≤ bucket.tokens
  most : bucket.tokens ≤ bucket.maxTokens
  past : bucket.lastRefillNs ≤ w.clock
  timely : Acquirer.Timely w.clock ⟨c.n, phase⟩
  backed : alone → (Acquirer.claimed w.bucket.maxTokens ⟨c.n, phase⟩ + bucket.tokens) * 10 ^ 6 +
      w.bucket.lastRefillNs * config.ratePerSecond.toNat ≤
    (c.claimed w.bucket.maxTokens + w.bucket.tokens) * 10 ^ 6 + bucket.lastRefillNs * config.ratePerSecond.toNat

section Moves

variable {i : Nat} {c : Acquirer} {alone : Prop} {bucket : AtomicTokenBucket} {phase : AcquirePhase}

theorem Ranged.moved (ranged : Ranged config w) (kept : Kept config w c alone bucket phase) :
    Ranged config { w with bucket, callers := w.callers.set i ⟨c.n, phase⟩ } where
  perNs := kept.perNs.trans ranged.perNs
  max := kept.max.trans ranged.max
  nonneg := kept.nonneg
  most := kept.most
  past := kept.past
  timely := by
    intro c' member
    rcases List.mem_or_eq_of_mem_set member with old | rfl
    · exact ranged.timely c' old
    · exact kept.timely

theorem Backed.moved (backed : Backed config w) (here : w.callers[i]? = some c)
    (kept : Kept config w c alone bucket phase) (holds : alone) :
    Backed config { w with bucket, callers := w.callers.set i ⟨c.n, phase⟩ } := by
  have change := kept.backed holds
  unfold Backed at backed ⊢
  simp only [kept.max]
  rw [sum_map_set _ here]
  linarith

theorem Ranged.read (ranged : Ranged config w) (timely : Acquirer.Timely w.clock ⟨c.n, phase⟩)
    (claims : Acquirer.claimed w.bucket.maxTokens ⟨c.n, phase⟩ ≤ c.claimed w.bucket.maxTokens) :
    Kept config w c alone w.bucket phase where
  perNs := rfl
  max := rfl
  nonneg := ranged.nonneg
  most := ranged.most
  past := ranged.past
  timely := timely
  backed _ := by linarith

theorem Ranged.added (ranged : Ranged config w) {tokensToAdd : Int} (nonneg : 0 ≤ tokensToAdd)
    (le : tokensToAdd ≤ 91 * 10 ^ 17) : (w.bucket.tokens + tokensToAdd).bmod (2 ^ 64) = w.bucket.tokens + tokensToAdd := by
  have nonneg' := ranged.nonneg
  have most := ranged.most
  have size : w.bucket.maxTokens = config.burstSize.toNat * 1000 := ranged.max
  have small := config.burstSize.toNat_lt
  apply Int.bmod_eq_of_le_mul_two <;> push_cast <;> omega

theorem Ranged.move (ranged : Ranged config w) (here : w.callers[i]? = some c) (spurious : Bool)
    (fits : Fits config w (.move i spurious)) :
    Kept config w c (Alone config w (.move i spurious)) (c.move w.bucket w.clock spurious).1
      (c.move w.bucket w.clock spurious).2 := by
  have timely := ranged.timely c (List.mem_of_getElem? here)
  have nonneg := ranged.nonneg
  have most := ranged.most
  obtain ⟨n, phase⟩ := c
  cases phase with
  | readClock => exact ranged.read (Nat.mod_le _ _) le_rfl
  | loadLast nowNs =>
      simp only [Acquirer.move]
      split
      · exact ranged.read trivial le_rfl
      next late =>
        split
        · exact ranged.read ⟨not_le.1 late, timely⟩ le_rfl
        · exact ranged.read trivial le_rfl
  | exchangeLast nowNs lastRefill =>
      have reads : (⟨nowNs, lastRefill⟩ : Refill) ∈ (w.callers[i]?).bind fun c => c.phase.refill? := by
        simp [here, AcquirePhase.refill?]
      obtain ⟨later, past⟩ := timely
      have adds : Acquirer.Timely w.clock ⟨n, .loadTokens (w.bucket.tokensToAdd (nowNs - lastRefill))⟩ :=
        ⟨AtomicTokenBucket.tokensToAdd_nonneg ranged.perNs _, AtomicTokenBucket.tokensToAdd_le ranged.perNs (fits _ reads)⟩
      simp only [Acquirer.move]
      split
      next same =>
        constructor
        case perNs => rfl
        case max => rfl
        case nonneg => exact nonneg
        case most => exact most
        case past => exact past
        case timely => exact adds
        case backed =>
          intro alone
          have earned := AtomicTokenBucket.added_le_earned ranged.perNs (nowNs - lastRefill) (alone _ reads).2
          rw [← ranged.max, Nat.cast_sub later.le, sub_mul] at earned
          simp only [Acquirer.claimed, same]
          linarith
      next lost =>
        constructor
        case perNs => rfl
        case max => rfl
        case nonneg => exact nonneg
        case most => exact most
        case past => exact ranged.past
        case timely => exact adds
        case backed => exact fun alone => absurd (alone _ reads).1 lost
  | loadTokens tokensToAdd => exact ranged.read timely le_rfl
  | exchangeAdd tokensToAdd current =>
      simp only [Acquirer.move]
      split
      next found =>
        obtain ⟨rfl, -⟩ := found
        rw [ranged.added timely.1 timely.2]
        constructor
        case perNs => rfl
        case max => rfl
        case nonneg => exact le_min (add_nonneg nonneg timely.1) (nonneg.trans most)
        case most => exact min_le_right _ _
        case past => exact ranged.past
        case timely => trivial
        case backed =>
          -- a bucket that overflows keeps less than was earned
          have kept : min (w.bucket.tokens + tokensToAdd) w.bucket.maxTokens ≤
              min tokensToAdd w.bucket.maxTokens + w.bucket.tokens := by
            omega
          intro _
          simp only [Acquirer.claimed]
          linarith
      · exact ranged.read timely le_rfl
  | loadCurrent =>
      simp only [Acquirer.move]
      split
      · exact ranged.read trivial le_rfl
      next enough => exact ranged.read (not_lt.1 enough) le_rfl
  | exchangeTake current =>
      have cost := Acquirer.cost_nonneg ⟨n, .exchangeTake current⟩
      simp only [Acquirer.move]
      split
      next found =>
        obtain ⟨rfl, -⟩ := found
        constructor
        case perNs => rfl
        case max => rfl
        case nonneg => exact sub_nonneg.2 timely
        case most => exact (sub_le_self _ cost).trans most
        case past => exact ranged.past
        case timely => trivial
        case backed =>
          intro _
          simp only [Acquirer.claimed, Acquirer.cost]
          linarith
      · exact ranged.read trivial le_rfl
  | done granted => exact ranged.read timely le_rfl

end Moves

theorem Ranged.step (ranged : Ranged config w) (event : BucketEvent) (fits : Fits config w event) :
    Ranged config (w.step event) := by
  cases event with
  | pass ns =>
      exact { ranged with
        past := ranged.past.trans (Nat.le_add_right _ _)
        timely := fun c member => (ranged.timely c member).later (Nat.le_add_right _ _) }
  | call n =>
      refine { ranged with timely := ?_ }
      intro c member
      rcases List.mem_append.1 member with old | new
      · exact ranged.timely c old
      · obtain rfl := List.mem_singleton.1 new
        trivial
  | move i spurious =>
      rw [BucketWorld.step]
      split
      next => exact ranged
      next c here => exact ranged.moved (ranged.move here spurious fits)

theorem Backed.step (backed : Backed config w) (ranged : Ranged config w) (event : BucketEvent)
    (fits : Fits config w event) (alone : Alone config w event) : Backed config (w.step event) := by
  cases event with
  | pass ns => exact backed
  | call n => simpa [Backed, BucketWorld.step, Acquirer.claimed] using backed
  | move i spurious =>
      rw [BucketWorld.step]
      split
      next => exact backed
      next c here => exact backed.moved here (ranged.move here spurious fits) alone

theorem granted_le (ranged : Ranged config w) :
    (w.granted : Int) * 1000 ≤ (w.callers.map (Acquirer.claimed w.bucket.maxTokens)).sum := by
  have most := ranged.nonneg.trans ranged.most
  have each := ranged.timely
  rw [granted]
  generalize w.callers = callers at each
  induction callers with
  | nil => simp
  | cons c rest ih =>
      have later := ih fun c' member => each c' (.tail _ member)
      have first : ((match c.phase with
          | .done true => c.n.toNat
          | _ => 0 : Nat) : Int) * 1000 ≤ c.claimed w.bucket.maxTokens := by
        have timely := each c (.head _)
        obtain ⟨n, phase⟩ := c
        cases phase with
        | done granted => cases granted <;> simp [Acquirer.claimed, Acquirer.cost, AtomicTokenBucket.scale]
        | loadTokens tokensToAdd => simpa [Acquirer.claimed] using ⟨timely.1, most⟩
        | exchangeAdd tokensToAdd current => simpa [Acquirer.claimed] using ⟨timely.1, most⟩
        | readClock | loadLast | exchangeLast | loadCurrent | exchangeTake => simp [Acquirer.claimed]
      simp only [List.map_cons, List.sum_cons]
      push_cast at later first ⊢
      linarith

theorem granted_le_asked (w : BucketWorld) : w.granted ≤ w.asked := by
  apply List.sum_le_sum
  intro c _
  split
  · exact le_rfl
  · exact Nat.zero_le _

theorem Backed.affords (backed : Backed config w) (ranged : Ranged config w) :
    (w.granted : ℚ) ≤ config.burstSize.toNat + config.ratePerSecond.toNat * (w.clock / 1000000000) := by
  have some := granted_le ranged
  have nonneg := ranged.nonneg
  have size : w.bucket.maxTokens = config.burstSize.toNat * 1000 := ranged.max
  have past : (w.bucket.lastRefillNs : Int) * config.ratePerSecond.toNat ≤ w.clock * config.ratePerSecond.toNat := by
    exact_mod_cast Nat.mul_le_mul_right config.ratePerSecond.toNat ranged.past
  unfold Backed at backed
  have whole : (w.granted : Int) * 10 ^ 9 ≤ config.burstSize.toNat * 10 ^ 9 + config.ratePerSecond.toNat * w.clock := by
    linarith
  have exact' : (w.granted : ℚ) * 10 ^ 9 ≤ config.burstSize.toNat * 10 ^ 9 + config.ratePerSecond.toNat * w.clock := by
    exact_mod_cast whole
  linarith

/-- In every order of steps whose refills fit, the stored tokens are in range, and no more is
    granted than a full bucket and the rate while the refills do not get in each other's
    way or no more was asked for. -/
theorem bucket_within_rate (config : RateLimiterConfig) (events : List BucketEvent)
    (fits : Runs.Guarded step (Fits config) (init config) events)
    (each : ∀ k ≤ events.length, Runs.Guarded step (Alone config) (init config) (events.take k) ∨
      Affordable config (Runs.run step (init config) (events.take k))) :
    Runs.Visits step (WithinRate config) (init config) events := by
  rw [Runs.visits_iff_take]
  intro k
  have here := each (min k events.length) (Nat.min_le_right _ _)
  rw [← List.take_eq_take_min] at here
  rw [← List.take_append_drop k events, Runs.guarded_append] at fits
  have ranged : Ranged config (Runs.run step (init config) (events.take k)) :=
    Runs.run_of_guarded (fun _ event kept allowed => kept.step event allowed) (ranged_init config) fits.1
  refine ⟨?_, ranged.nonneg, ranged.most.trans_eq ranged.max⟩
  rcases here with alone | affordable
  · have kept := Runs.run_of_guarded (P := fun w => Ranged config w ∧ Backed config w)
      (fun _ event kept allowed => ⟨kept.1.step event allowed.1, kept.2.step kept.1 event allowed.1 allowed.2⟩)
      ⟨ranged_init config, backed_init config⟩ (fits.1.and alone)
    exact kept.2.affords kept.1
  · exact (Nat.cast_le.2 (granted_le_asked _)).trans affordable

/-! ## Two refills at once -/

namespace TwoRefills

def onePerSecond : RateLimiterConfig := ⟨1, 2, 10⟩

def moves (caller n : Nat) : List BucketEvent := List.replicate n (.move caller false)

/-- The bucket is emptied, and two callers put the same two seconds back, of which each
    takes one. -/
def sharedRefill : List BucketEvent :=
  [.call 2] ++ moves 0 4 ++ [.pass 2000000000, .call 1, .call 1] ++ moves 1 2 ++ moves 2 2 ++ moves 1 5 ++ moves 2 5

/-- The refills collide, but the two seconds pay for both callers. -/
theorem one_comes_back : Runs.Visits step (WithinRate onePerSecond) (init onePerSecond) sharedRefill :=
  bucket_within_rate onePerSecond sharedRefill (by decide +kernel) (by decide +kernel)

/-- Two callers read the same last refill, and each puts the same second back. -/
theorem second_counted_twice : ¬ ∀ (config : RateLimiterConfig) (events : List BucketEvent),
    Runs.Visits step (WithinRate config) (init config) events := by
  intro always
  have visits := always onePerSecond
    ([.call 2] ++ moves 0 4 ++ [.pass 1000000000, .call 1, .call 1] ++ moves 1 2 ++ moves 2 2 ++ moves 1 5 ++ moves 2 5)
  have final := (Runs.visits_iff_take.1 visits 25).granted
  exact absurd final (by decide +kernel)

end TwoRefills

end BucketWorld

end ExecutionHandler
