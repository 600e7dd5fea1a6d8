/-
  Backoff: how the delay between two attempts of a wait grows.

  Each delay is the one before it times a factor of at least one, at most a minute, and never
  shorter than the one before it unless that exceeded the minute (`min_le_next`). The product is
  one of doubles; the result is rounded to the nearest nanosecond.
-/
import Rollout.Duration

namespace Rollout

/-- The first delay and the factor between delays. -/
structure Backoff where
  initial : Duration
  multiplier : Binary64
deriving DecidableEq, Repr

namespace Backoff

/-- The longest delay that `next` answers. -/
def maxDelay : Duration := .ofSeconds 60

/-- Five milliseconds, doubling. -/
def default : Backoff := ⟨.ofMillis 5, .ofNat 2⟩

/-- The factor that is applied: at least one, and one if it is no number. -/
def factor (b : Backoff) : Binary64 :=
  if b.multiplier.isNaN then Binary64.one else b.multiplier.max Binary64.one

/-- The delay after `current`. -/
def next (b : Backoff) (current : Duration) : Duration :=
  let seconds := (current.toSeconds.mul b.factor).min maxDelay.toSeconds
  ((Duration.ofDouble? seconds).getD maxDelay).max (current.min maxDelay)

/-- The delays that follow `current`. -/
def delays (b : Backoff) : Nat → Duration → List Duration
  | 0, _ => []
  | n + 1, current => b.next current :: b.delays n (b.next current)

theorem min_le_next (b : Backoff) (current : Duration) :
    current.min maxDelay ≤ b.next current := Duration.le_max_right _ _

end Backoff

end Rollout
