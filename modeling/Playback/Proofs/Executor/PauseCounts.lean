import Mathlib.Algebra.BigOperators.Group.Finset.Basic
import Mathlib.Algebra.Order.BigOperators.Group.Finset
import Playback.Proofs.Executor.Pauses
import Playback.Settings

/-! What a backoff counts.

A backoff knows how long it has paused, how long its next period is and how often it has paused.
The first two never leave the spans of their limits. The third has 32 bits, and how many pauses
there are is up to the ratio of two spans: the count is kept modulo `2 ^ 32`, and is exact for
limits that spend the budget in fewer pauses than that.
-/

set_option autoImplicit false

namespace Playback

namespace Duration

/-- The last span with a number of whole seconds that 64 bits hold. -/
def longest : Nat :=
  ofSeconds (2 ^ 64 - 1) + 999999999

def doubled (d : Nat) : Nat :=
  min (2 * d) longest

end Duration

/-- Limits of which none is beyond the longest span. -/
structure BackoffLimits.Bounded (limits : BackoffLimits) : Prop where
  leastPeriod_le : limits.leastPeriod ≤ Duration.longest
  greatestPeriod_le : limits.greatestPeriod ≤ Duration.longest
  budget_le : limits.budget ≤ Duration.longest

namespace Backoff

def Answer.spans : Answer → List Nat
  | pause span => [span]
  | spent _ => []

def given (calls : Nat) (backoff : Backoff) : List Nat :=
  (List.range calls).flatMap fun call => (backoff.answer call).spans

/-- A backoff that has made these pauses from its start. -/
structure Paused (limits : BackoffLimits) (spans : List Nat) (backoff : Backoff) : Prop where
  own : backoff.limits = limits
  waited : backoff.waited = spans.sum
  period : backoff.period = limits.period spans.length
  spent : spans.sum = min limits.budget (∑ k ∈ Finset.range spans.length, limits.period k)
  steps : backoff.steps = UInt32.ofNat spans.length

variable {limits : BackoffLimits} {spans : List Nat} {backoff : Backoff} {calls : Nat}

theorem given_succ (calls : Nat) (backoff : Backoff) :
    backoff.given (calls + 1) = backoff.given calls ++ (backoff.answer calls).spans := by
  simp [given, List.range_succ]

theorem after_ask (calls : Nat) (backoff : Backoff) :
    backoff.after (calls + 1) = (backoff.after calls).ask.2 := by
  induction calls generalizing backoff with
  | zero => rfl
  | succ calls ih => exact ih backoff.ask.2

theorem waited_add_pause_le (backoff : Backoff) :
    backoff.waited + backoff.pause ≤ backoff.limits.budget := by
  have := backoff.waited_le
  simp only [pause, remaining]
  omega

theorem period_advance (ceiling : backoff.limits.greatestPeriod ≤ Duration.longest)
    (within : backoff.period ≤ Duration.longest) :
    backoff.advance.period =
      min (Duration.doubled backoff.period) (max backoff.limits.greatestPeriod backoff.period) := by
  simp only [advance, Duration.doubled]
  omega

theorem paused_start (limits : BackoffLimits) : Paused limits [] (start limits) where
  own := rfl
  waited := rfl
  period := limits.period_zero.symm
  spent := by simp
  steps := rfl

namespace Paused

theorem remaining_eq_zero_iff (paused : Paused limits spans backoff) :
    backoff.remaining = 0 ↔
      limits.budget ≤ ∑ k ∈ Finset.range spans.length, limits.period k := by
  rw [remaining, paused.own, paused.waited, paused.spent]
  omega

theorem advance (paused : Paused limits spans backoff) (left : backoff.remaining ≠ 0) :
    Paused limits (spans ++ [backoff.pause]) backoff.advance where
  own := paused.own
  waited := by
    rw [List.sum_append, List.sum_singleton, ← paused.waited]
    rfl
  period := by
    rw [List.length_append, List.length_singleton, limits.period_succ, ← paused.period,
      ← paused.own]
    rfl
  spent := by
    have more := mt paused.remaining_eq_zero_iff.2 left
    have whole := paused.spent
    rw [List.sum_append, List.sum_singleton, List.length_append, List.length_singleton,
      Finset.sum_range_succ, pause, remaining, paused.own, paused.waited, paused.period]
    omega
  steps := by
    rw [List.length_append, List.length_singleton, UInt32.ofNat_add, ← paused.steps]
    rfl

theorem ask (paused : Paused limits spans backoff) :
    Paused limits (spans ++ backoff.ask.1.spans) backoff.ask.2 := by
  by_cases spent : backoff.remaining = 0
  · rw [ask_of_spent spent]
    simpa [Answer.spans] using paused
  · rw [ask_of_left spent]
    exact paused.advance spent

theorem toNat_steps (paused : Paused limits spans backoff) :
    backoff.steps.toNat = spans.length % 2 ^ 32 := by
  rw [paused.steps, UInt32.toNat_ofNat']

end Paused

theorem paused_after (limits : BackoffLimits) (calls : Nat) :
    Paused limits ((start limits).given calls) ((start limits).after calls) := by
  induction calls with
  | zero => exact paused_start limits
  | succ calls ih =>
    rw [given_succ, after_ask]
    exact ih.ask

-- Every call pauses whose predecessors cannot have spent the budget.
theorem length_given_of_left
    (left : ∑ k ∈ Finset.range (calls - 1), limits.period k < limits.budget) :
    ((start limits).given calls).length = calls := by
  induction calls with
  | zero => rfl
  | succ calls ih =>
    rw [Nat.add_sub_cancel] at left
    have early : ((start limits).given calls).length = calls := ih <|
      (Finset.sum_le_sum_of_subset (Finset.range_subset_range.2 (Nat.sub_le calls 1))).trans_lt left
    have paused := paused_after limits calls
    have more : ((start limits).after calls).remaining ≠ 0 := by
      rw [ne_eq, paused.remaining_eq_zero_iff, early]
      exact Nat.not_le.2 left
    rw [given_succ, answer, ask_of_left more, List.length_append, early]
    rfl

theorem length_given_le {most : Nat}
    (enough : limits.budget ≤ ∑ k ∈ Finset.range most, limits.period k) (calls : Nat) :
    ((start limits).given calls).length ≤ most := by
  induction calls with
  | zero => exact Nat.zero_le most
  | succ calls ih =>
    have paused := paused_after limits calls
    rw [given_succ, answer, List.length_append]
    by_cases spent : ((start limits).after calls).remaining = 0
    · rw [ask_of_spent spent]
      exact ih
    · rw [ask_of_left spent]
      rw [paused.remaining_eq_zero_iff] at spent
      refine Nat.lt_of_le_of_ne ih fun full => spent ?_
      rw [full]
      exact enough

end Backoff

namespace BackoffLimits

variable {limits : BackoffLimits}

theorem Bounded.period_le (bounded : limits.Bounded) (k : Nat) :
    limits.period k ≤ Duration.longest := by
  have first : limits.firstPeriod ≤ Duration.longest :=
    Nat.max_le.2 ⟨bounded.leastPeriod_le, by decide⟩
  exact (limits.period_le k).trans (Nat.max_le.2 ⟨first, bounded.greatestPeriod_le⟩)

-- What a backoff knows after any number of calls. Neither the sum of its pauses nor its period
-- leaves the spans there are, and it makes no difference that doubling stops at the longest of
-- them. The count of pauses is kept modulo `2 ^ 32`. It is exact after every number of calls if and
-- only if fewer periods than that are worth the budget.
theorem counters_of_calls (limits : BackoffLimits) (bounded : limits.Bounded) :
    let start := Backoff.start limits
    (∀ calls,
      let backoff := start.after calls
      let spans := start.given calls
      backoff.waited = spans.sum ∧
        backoff.waited = min limits.budget (∑ k ∈ Finset.range spans.length, limits.period k) ∧
        backoff.waited + backoff.pause ≤ limits.budget ∧ limits.budget ≤ Duration.longest ∧
        backoff.period = limits.period spans.length ∧ backoff.period ≤ Duration.longest ∧
        backoff.advance.period =
          min (Duration.doubled backoff.period) (max limits.greatestPeriod backoff.period) ∧
        backoff.steps.toNat = spans.length % 2 ^ 32) ∧
    ((∀ calls, (start.after calls).steps.toNat = (start.given calls).length) ↔
      limits.budget ≤ ∑ k ∈ Finset.range (2 ^ 32 - 1), limits.period k) := by
  intro start
  refine ⟨fun calls => ?_, fun exact => ?_, fun enough calls => ?_⟩
  · have paused := Backoff.paused_after limits calls
    have own := paused.own
    have room := (start.after calls).waited_add_pause_le
    have within := bounded.period_le (start.given calls).length
    rw [own] at room
    rw [← paused.period] at within
    have doubles := Backoff.period_advance (by rw [own]; exact bounded.greatestPeriod_le) within
    rw [own] at doubles
    exact ⟨paused.waited, paused.waited.trans paused.spent, room, bounded.budget_le, paused.period,
      within, doubles, paused.toNat_steps⟩
  · by_contra short
    rw [Nat.not_le] at short
    have wrapped := exact (2 ^ 32)
    rw [(Backoff.paused_after limits (2 ^ 32)).toNat_steps,
      Backoff.length_given_of_left short] at wrapped
    omega
  · have few : (start.given calls).length < 2 ^ 32 :=
      Nat.lt_of_le_of_lt (Backoff.length_given_le enough calls) (by decide)
    rw [(Backoff.paused_after limits calls).toNat_steps, Nat.mod_eq_of_lt few]

-- The longest budget there is takes few pauses, as the period doubles without a ceiling.
theorem longest_budget_counted :
    let limits : BackoffLimits := ⟨0, Duration.longest, Duration.longest⟩
    limits.Bounded ∧ ∀ calls, ((Backoff.start limits).after calls).steps.toNat =
      ((Backoff.start limits).given calls).length := by
  intro limits
  have bounded : limits.Bounded := ⟨Nat.zero_le _, Nat.le_refl _, Nat.le_refl _⟩
  have last : limits.period 84 = limits.budget := by decide
  refine ⟨bounded, (counters_of_calls limits bounded).2.2 ?_⟩
  rw [← last]
  exact Finset.single_le_sum (fun k _ => Nat.zero_le (limits.period k))
    (Finset.mem_range.2 (by decide))

end BackoffLimits

namespace Settings

theorem bounded_executeOptions (settings : Settings) : settings.executeOptions.limits.Bounded := by
  have within (us : UInt64) : Duration.ofMicroseconds us.toNat ≤ Duration.longest :=
    calc Duration.ofMicroseconds us.toNat
      _ ≤ Duration.ofMicroseconds (2 ^ 64) := Nat.mul_le_mul_right _ us.toNat_lt.le
      _ ≤ Duration.longest := by decide
  exact ⟨within _, within _, within _⟩

def singleMicroseconds : Settings where
  minWaitPeriodUs := 0
  maxWaitPeriodUs := 0
  maxWaitUs := 4294967296

end Settings

-- The last pause of such a budget takes the count of pauses back to zero.
theorem BackoffLimits.not_always_counted :
    let limits := Settings.singleMicroseconds.executeOptions.limits
    let start := Backoff.start limits
    limits.Bounded ∧ (start.given 4294967296).length = 4294967296 ∧
      (start.after 4294967296).steps.toNat = 0 := by
  intro limits start
  have each (k : Nat) : limits.period k = 1000 := if_pos (Nat.zero_le _)
  have left : ∑ k ∈ Finset.range (4294967296 - 1), limits.period k < limits.budget := by
    rw [Finset.sum_const_nat fun k _ => each k, Finset.card_range]
    decide
  have all := Backoff.length_given_of_left left
  refine ⟨Settings.bounded_executeOptions _, all, ?_⟩
  rw [(Backoff.paused_after limits 4294967296).toNat_steps, all]
  rfl

end Playback
