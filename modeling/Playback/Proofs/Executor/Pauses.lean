import Mathlib.Algebra.Ring.Nat
import Mathlib.Order.Monotone.Basic
import Playback.Backoff

/-! How a backoff spends its budget.

Every pause is one period long, or what is left of the budget if that is less. Such a cut can only
happen at the last pause, so the number of pauses before it fixes the state of a backoff.
-/

set_option autoImplicit false

namespace Playback

namespace BackoffLimits

variable (limits : BackoffLimits)

def firstPeriod : Nat :=
  max limits.leastPeriod (Duration.ofMicroseconds 1)

/-- The period after `k` doublings. One that starts at the ceiling or above it stays as it is. -/
def period (k : Nat) : Nat :=
  if limits.greatestPeriod ≤ limits.firstPeriod then limits.firstPeriod
  else min (2 ^ k * limits.firstPeriod) limits.greatestPeriod

theorem period_zero : limits.period 0 = limits.firstPeriod := by
  unfold period
  split
  · rfl
  · rw [pow_zero, one_mul]
    omega

theorem period_succ (k : Nat) :
    limits.period (k + 1) =
      min (2 * limits.period k) (max limits.greatestPeriod (limits.period k)) := by
  unfold period
  split
  · omega
  · rw [pow_succ', mul_assoc]
    omega

theorem period_mono : Monotone limits.period := by
  refine monotone_nat_of_le_succ fun k => ?_
  rw [period_succ]
  omega

theorem period_le (k : Nat) :
    limits.period k ≤ max limits.firstPeriod limits.greatestPeriod := by
  unfold period
  split <;> omega

end BackoffLimits

namespace Backoff

inductive Answer where
  | pause (span : Nat)
  | spent (waited : Nat)
  deriving DecidableEq, Repr

/-- Asks for the next pause. A backoff that is spent stays as it is. -/
def ask (backoff : Backoff) : Answer × Backoff :=
  match backoff.next? with
  | some (span, later) => (.pause span, later)
  | none => (.spent backoff.waited, backoff)

def after : Nat → Backoff → Backoff
  | 0, backoff => backoff
  | calls + 1, backoff => after calls backoff.ask.2

def answer (calls : Nat) (backoff : Backoff) : Answer :=
  (backoff.after calls).ask.1

def pauses (backoff : Backoff) : List Nat :=
  if _spent : backoff.remaining = 0 then [] else backoff.pause :: backoff.advance.pauses
termination_by backoff.remaining
decreasing_by exact remaining_lt_of_next? (if_neg _spent)

variable {backoff : Backoff}

theorem next?_of_spent (spent : backoff.remaining = 0) : backoff.next? = none :=
  if_pos spent

theorem next?_of_left (left : backoff.remaining ≠ 0) :
    backoff.next? = some (backoff.pause, backoff.advance) :=
  if_neg left

theorem waited_of_spent (spent : backoff.remaining = 0) :
    backoff.waited = backoff.limits.budget := by
  have := backoff.waited_le
  unfold remaining at spent
  omega

theorem ask_of_spent (spent : backoff.remaining = 0) :
    backoff.ask = (.spent backoff.limits.budget, backoff) := by
  rw [ask, next?_of_spent spent, waited_of_spent spent]

theorem ask_of_left (left : backoff.remaining ≠ 0) :
    backoff.ask = (.pause backoff.pause, backoff.advance) := by
  rw [ask, next?_of_left left]

theorem pauses_of_spent (spent : backoff.remaining = 0) : backoff.pauses = [] := by
  rw [pauses, dif_pos spent]

theorem pause_pos (left : backoff.remaining ≠ 0) : 0 < backoff.pause := by
  have := backoff.period_pos
  unfold pause
  omega

theorem remaining_advance : backoff.advance.remaining + backoff.pause = backoff.remaining := by
  have := backoff.waited_le
  simp only [remaining, advance, pause]
  omega

theorem pause_eq_period (more : backoff.advance.remaining ≠ 0) :
    backoff.pause = backoff.period := by
  have := backoff.remaining_advance
  unfold pause at *
  omega

theorem after_spent (spent : backoff.remaining = 0) (calls : Nat) :
    backoff.after calls = backoff := by
  induction calls with
  | zero => rfl
  | succ calls ih => rw [after, ask_of_spent spent, ih]

theorem after_succ (left : backoff.remaining ≠ 0) (calls : Nat) :
    backoff.after (calls + 1) = backoff.advance.after calls := by
  rw [after, ask_of_left left]

theorem sum_pauses (backoff : Backoff) : backoff.pauses.sum = backoff.remaining := by
  fun_induction pauses backoff with
  | case1 backoff spent => rw [spent, List.sum_nil]
  | case2 backoff left ih =>
    rw [List.sum_cons, ih]
    have := backoff.remaining_advance
    omega

theorem answer_eq (backoff : Backoff) (calls : Nat) :
    backoff.answer calls =
      match backoff.pauses[calls]? with
      | some span => .pause span
      | none => .spent backoff.limits.budget := by
  fun_induction pauses backoff generalizing calls with
  | case1 backoff spent => rw [answer, after_spent spent, ask_of_spent spent, List.getElem?_nil]
  | case2 backoff left ih =>
    cases calls with
    | zero => rw [answer, after, ask_of_left left, List.getElem?_cons_zero]
    | succ calls =>
      rw [answer, after_succ left, List.getElem?_cons_succ]
      exact ih calls

-- The state after a number of pauses, from any state that some pauses have led to.
theorem period_after {limits : BackoffLimits} {earlier : Nat} (own : backoff.limits = limits)
    (here : backoff.period = limits.period earlier) {k : Nat} (more : k < backoff.pauses.length) :
    (backoff.after k).period = limits.period (earlier + k) := by
  fun_induction pauses backoff generalizing earlier k with
  | case1 backoff spent => cases more
  | case2 backoff left ih =>
    cases k with
    | zero => exact here
    | succ k =>
      have next : backoff.advance.period = limits.period (earlier + 1) := by
        rw [limits.period_succ, ← here, ← own]
        rfl
      rw [after_succ left, ih own next (Nat.lt_of_succ_lt_succ more), Nat.add_assoc,
        Nat.add_comm 1 k]

theorem pause_bounds {k span : Nat} (found : backoff.pauses[k]? = some span) :
    0 < span ∧ span ≤ (backoff.after k).period ∧
      (k + 1 < backoff.pauses.length → span = (backoff.after k).period) := by
  fun_induction pauses backoff generalizing k with
  | case1 backoff spent => cases found
  | case2 backoff left ih =>
    cases k with
    | zero =>
      cases found
      refine ⟨pause_pos left, Nat.min_le_left .., fun more => pause_eq_period fun spent => ?_⟩
      rw [pauses_of_spent spent] at more
      exact Nat.lt_irrefl _ more
    | succ k =>
      rw [after_succ left]
      obtain ⟨positive, within, whole⟩ := ih found
      exact ⟨positive, within, fun more => whole (Nat.lt_of_succ_lt_succ more)⟩

end Backoff

namespace BackoffLimits

def pauses (limits : BackoffLimits) : List Nat :=
  (Backoff.start limits).pauses

variable {limits : BackoffLimits}

theorem period_after_start {k : Nat} (more : k < limits.pauses.length) :
    ((Backoff.start limits).after k).period = limits.period k := by
  have first : (Backoff.start limits).period = limits.period 0 := limits.period_zero.symm
  have same := Backoff.period_after rfl first more
  rwa [Nat.zero_add] at same

-- A backoff pauses until the budget is spent to the last nanosecond, and then says so for ever. Its
-- pauses are as long as its periods, but for the last one, which may be cut.
theorem pauses_spend_budget (limits : BackoffLimits) :
    let start := Backoff.start limits
    (∀ calls, start.answer calls =
      match limits.pauses[calls]? with
      | some span => .pause span
      | none => .spent limits.budget) ∧
    limits.pauses.sum = limits.budget ∧
    (∀ k, k < limits.pauses.length → (start.after k).period = limits.period k) ∧
    (∀ k span, limits.pauses[k]? = some span →
      span ≠ 0 ∧ span ≤ limits.period k ∧
        (k + 1 < limits.pauses.length → span = limits.period k)) ∧
    limits.pauses.dropLast.Pairwise (· ≤ ·) ∧
    ∀ span ∈ limits.pauses, span ≤ max limits.firstPeriod limits.greatestPeriod := by
  intro start
  have each {k span : Nat} (found : limits.pauses[k]? = some span) :
      span ≠ 0 ∧ span ≤ limits.period k ∧
        (k + 1 < limits.pauses.length → span = limits.period k) := by
    have inside : k < limits.pauses.length := (List.getElem?_eq_some_iff.1 found).1
    obtain ⟨positive, within, whole⟩ := Backoff.pause_bounds found
    rw [period_after_start inside] at within whole
    exact ⟨Nat.pos_iff_ne_zero.1 positive, within, whole⟩
  refine ⟨start.answer_eq, start.sum_pauses, fun k => period_after_start, fun k span => each,
    List.pairwise_iff_getElem.2 fun i j first second earlier => ?_, fun span member => ?_⟩
  · have inside : j + 1 < limits.pauses.length := by
      rw [List.length_dropLast] at second
      omega
    have early : limits.pauses[i] = limits.period i :=
      (each (List.getElem?_eq_getElem _)).2.2 (by omega)
    have late : limits.pauses[j] = limits.period j :=
      (each (List.getElem?_eq_getElem _)).2.2 inside
    simp only [List.getElem_dropLast, early, late]
    exact limits.period_mono (Nat.le_of_lt earlier)
  · obtain ⟨k, found⟩ := List.mem_iff_getElem?.1 member
    exact (each found).2.1.trans (limits.period_le k)

-- In microseconds; the ceiling is no doubling of the first period.
example : (BackoffLimits.mk 50000 300000 1000000).pauses =
    [50000, 100000, 200000, 300000, 300000, 50000] := by
  cbv

end BackoffLimits

end Playback
