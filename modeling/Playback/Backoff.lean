import Playback.Duration

/-! Bounded exponential backoff.

Pauses start at a least period, double after every pause up to a ceiling, and end when their sum has
reached a budget: the last pause is cut so that the sum is the budget exactly. Spans are in
nanoseconds.
-/

set_option autoImplicit false

namespace Playback

structure BackoffLimits where
  leastPeriod : Nat := Duration.ofMicroseconds 50
  greatestPeriod : Nat := Duration.ofMilliseconds 10
  /-- The sum of all pauses. -/
  budget : Nat := Duration.ofSeconds 60
  deriving DecidableEq, Repr

structure Backoff where
  limits : BackoffLimits
  /-- The next pause, before it is cut to what is left of the budget. -/
  period : Nat
  waited : Nat
  steps : UInt32
  period_pos : 0 < period
  waited_le : waited ≤ limits.budget
  deriving Repr

namespace Backoff

/-- A backoff before its first pause. A least period below a microsecond counts as one. -/
def start (limits : BackoffLimits) : Backoff where
  limits := limits
  period := max limits.leastPeriod (Duration.ofMicroseconds 1)
  waited := 0
  steps := 0
  period_pos := Nat.lt_of_lt_of_le (by decide) (Nat.le_max_right ..)
  waited_le := Nat.zero_le _

def remaining (backoff : Backoff) : Nat :=
  backoff.limits.budget - backoff.waited

def pause (backoff : Backoff) : Nat :=
  min backoff.period backoff.remaining

/-- The backoff after that pause. A period that is above the ceiling stays as it is. -/
def advance (backoff : Backoff) : Backoff where
  limits := backoff.limits
  period := min (2 * backoff.period) (max backoff.limits.greatestPeriod backoff.period)
  waited := backoff.waited + backoff.pause
  steps := backoff.steps + 1
  period_pos := by
    have := backoff.period_pos
    omega
  waited_le := by
    have := backoff.waited_le
    simp only [pause, remaining]
    omega

def next? (backoff : Backoff) : Option (Nat × Backoff) :=
  if backoff.remaining = 0 then none else some (backoff.pause, backoff.advance)

-- Every pause uses some of the budget.
theorem remaining_lt_of_next? {backoff later : Backoff} {pause : Nat}
    (h : backoff.next? = some (pause, later)) : later.remaining < backoff.remaining := by
  unfold next? at h
  split at h
  · cases h
  · cases h
    have := backoff.period_pos
    have := backoff.waited_le
    simp only [remaining, advance, Backoff.pause] at *
    omega

end Backoff

end Playback
