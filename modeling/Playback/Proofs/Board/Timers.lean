import Mathlib.Order.Bounds.Defs
import Playback.Proofs.Board.Interpreter
import Playback.Proofs.Container.RegisterMap

/-! The clock of a board and its timers.

A timer reads the clock less its base, the clock value at which it was zero. There is one clock: a
wait for one timer moves it on, and so does a write to a timer that is ahead of it, and then every
other timer moves with it. No base is ever ahead of the clock (`Machine.Based`). Each instruction
keeps that whatever the bases were before, so it holds from a fresh board on at any point of any
sequence of programs.
-/

set_option autoImplicit false

namespace Playback

def Instruction.sets? (timer : TimerOnChip) : Instruction → Option Nat
  | write access => if access.address ∈ Timer.addresses timer then some access.word.raw else none
  | read _ | wait _ _ | barrier _ => none

namespace Board

open Instruction

namespace Machine

/-- The machine behind programs that it plays one after the other, each with annotation or
without. -/
def playAll (machine : Machine) (programs : List (Bool × List Instruction)) : Machine :=
  programs.foldl (fun machine (annotate, instructions) => (machine.play annotate instructions).2)
    machine

/-- No timer was zero later than now. -/
def Based (machine : Machine) : Prop :=
  ∀ timer, machine.timerBase timer ≤ machine.clock

/-- The law of a timer for an instruction between two states of a machine. -/
structure Advances (before : Machine) (instruction : Instruction) (next : Machine)
    (timer : TimerOnChip) : Prop where
  ticks : before.clock + 1 ≤ next.clock
  based : before.timerBase timer ≤ before.clock ∧ next.timerBase timer ≤ next.clock
  set : ∀ value, instruction.sets? timer = some value → next.timerReading timer = value
  waited : ∀ value, instruction = .wait timer value → value.toNat ≤ next.timerReading timer
  soonest : ∀ value, instruction = .wait timer value →
    IsLeast { clock | before.clock < clock ∧
      value.toNat ≤ { before with clock }.timerReading timer } next.clock
  rises : instruction.sets? timer = none → before.timerReading timer < next.timerReading timer

theorem timerAt?_eq_some_iff {address : Address} {timer : TimerOnChip} :
    timerAt? address = some timer ↔ address ∈ Timer.addresses timer := by
  have owns {other : TimerOnChip} (found : timerAt? address = some other) :
      address ∈ Timer.addresses other := by
    unfold timerAt? at found
    have contained := (List.find?_eq_some_iff_append.1 found).1
    exact List.contains_iff_mem.1 contained
  refine ⟨owns, fun member => ?_⟩
  -- The first timer with the address is the only one.
  cases found : timerAt? address with
  | none =>
    have missed := List.find?_eq_none.1 found timer (Site.mem_all timer)
    exact absurd (List.contains_iff_mem.2 member) missed
  | some other =>
    have same := (Timer.owner_of_mem other (owns found)).symm.trans
      (Timer.owner_of_mem timer member)
    exact congrArg some (Site.index_inj.1 (Prod.mk.inj same).2)

theorem sets?_write (access : WriteAccess) (timer : TimerOnChip) :
    (Instruction.write access).sets? timer =
      if timerAt? access.address = some timer then some access.word.raw else none := by
  simp only [sets?, timerAt?_eq_some_iff]

section Step

variable (machine : Machine)

theorem timerBase_setTimer (timer other : TimerOnChip) (value : Nat) :
    (machine.setTimer timer value).timerBase other =
      if other = timer then max machine.clock value - value else machine.timerBase other :=
  Site.entry_setEntry timer other _ _

-- An instruction sets one timer, or it leaves all bases where they are.
theorem obey_cases (instruction : Instruction) :
    let next := machine.obey instruction
    (∃ timer value,
      (∀ other, instruction.sets? other = if other = timer then some value else none) ∧
      next.clock = max (machine.clock + 1) value ∧
      ∀ other, next.timerBase other =
        if other = timer then next.clock - value else machine.timerBase other) ∨
    ((∀ timer, instruction.sets? timer = none) ∧ next.timerBase = machine.timerBase) := by
  intro next
  cases instruction with
  | write access =>
    have restarts : next = (machine.tick.write access).restartTimer access := rfl
    unfold restartTimer at restarts
    cases found : timerAt? access.address with
    | none =>
      simp only [found] at restarts
      refine .inr ⟨fun timer => ?_, restarts ▸ rfl⟩
      rw [sets?_write, found]
      rfl
    | some timer =>
      simp only [found] at restarts
      refine .inl ⟨timer, access.word.raw, fun other => ?_, congrArg clock restarts,
        fun other => ?_⟩
      · rw [sets?_write, found]
        simp only [Option.some.injEq, eq_comm]
      · rw [restarts]
        exact timerBase_setTimer _ timer other _
  | read address => exact .inr ⟨fun _ => rfl, rfl⟩
  | wait timer value => exact .inr ⟨fun _ => rfl, rfl⟩
  | barrier kind => exact .inr ⟨fun _ => rfl, rfl⟩

theorem timerReading_of_sets {instruction : Instruction} {timer : TimerOnChip} {value : Nat}
    (sets : instruction.sets? timer = some value) :
    (machine.obey instruction).timerReading timer = value := by
  obtain ⟨target, written, single, moved, bases⟩ | ⟨silent, -⟩ := machine.obey_cases instruction
  · rw [single] at sets
    split at sets
    case isTrue same =>
      obtain rfl := Option.some.inj sets
      rw [timerReading, bases, if_pos same]
      omega
    case isFalse => cases sets
  · rw [silent] at sets
    cases sets

theorem timerBase_of_silent {instruction : Instruction} {timer : TimerOnChip}
    (silent : instruction.sets? timer = none) :
    (machine.obey instruction).timerBase timer = machine.timerBase timer := by
  obtain ⟨target, written, single, -, bases⟩ | ⟨-, bases⟩ := machine.obey_cases instruction
  · rw [single] at silent
    split at silent
    case isTrue => cases silent
    case isFalse other => rw [bases, if_neg other]
  · rw [bases]

theorem clock_wait (timer : TimerOnChip) (value : TimerValue) :
    (machine.obey (.wait timer value)).clock =
      max (machine.clock + 1) (machine.timerBase timer + value.toNat) :=
  rfl

end Step

section Based

variable {machine : Machine} (based : machine.Based)

include based

theorem Based.obey (instruction : Instruction) : (machine.obey instruction).Based := by
  intro timer
  have before := based timer
  have later := machine.clock_obey instruction
  cases sets : instruction.sets? timer with
  | none =>
    rw [timerBase_of_silent machine sets]
    omega
  | some value =>
    obtain ⟨target, written, -, -, bases⟩ | ⟨-, bases⟩ := machine.obey_cases instruction
    · rw [bases]
      split <;> omega
    · rw [bases]
      omega

theorem Based.soonest (timer : TimerOnChip) (value : TimerValue) :
    IsLeast { clock | machine.clock < clock ∧
      value.toNat ≤ { machine with clock }.timerReading timer }
      (machine.obey (.wait timer value)).clock := by
  have before := based timer
  rw [clock_wait]
  constructor
  · refine ⟨Nat.lt_of_succ_le (Nat.le_max_left _ _), ?_⟩
    change value.toNat ≤
      max (machine.clock + 1) (machine.timerBase timer + value.toNat) - machine.timerBase timer
    omega
  · rintro clock ⟨later, reached⟩
    have reached : value.toNat ≤ clock - machine.timerBase timer := reached
    omega

theorem Based.advances (instruction : Instruction) (timer : TimerOnChip) :
    machine.Advances instruction (machine.obey instruction) timer where
  ticks := machine.clock_obey instruction
  based := ⟨based timer, based.obey instruction timer⟩
  set value sets := machine.timerReading_of_sets sets
  waited value wait := by
    subst wait
    exact (based.soonest timer value).1.2
  soonest value wait := by
    subst wait
    exact based.soonest timer value
  rises silent := by
    have before := based timer
    have later := machine.clock_obey instruction
    rw [timerReading, timerReading, machine.timerBase_of_silent silent]
    omega

end Based

theorem Based.after {machine : Machine} (based : machine.Based) (instructions : List Instruction) :
    (machine.after instructions).Based := by
  induction instructions generalizing machine with
  | nil => exact based
  | cons instruction rest ih => exact ih (based.obey instruction)

theorem Based.playAll {machine : Machine} (based : machine.Based)
    (programs : List (Bool × List Instruction)) : (machine.playAll programs).Based := by
  induction programs generalizing machine with
  | nil => exact based
  | cons program rest ih =>
    obtain ⟨annotate, instructions⟩ := program
    have played : (machine.play annotate instructions).2 = machine.after instructions :=
      Play.machine_steps annotate instructions { machine }
    have next : (machine.play annotate instructions).2.Based := played ▸ based.after instructions
    exact ih next

theorem based_fresh (registers : Table Address Word) : Based { registers } := by
  intro timer
  simp [timerBase, Site.entry]

end Machine

end Board

-- At any point of any sequence of programs on a board that started fresh, an instruction moves the
-- clock on and leaves every timer's base behind it. A write to a timer makes it read the written
-- value; a wait moves the clock no further than the timer needs; whatever does not write to a timer
-- lets it rise.
theorem Board.advances_of_programs (registers : Table Address Word)
    (programs : List (Bool × List Instruction)) (annotate : Bool) (earlier : List Instruction)
    (instruction : Instruction) (timer : TimerOnChip) :
    let machine := Board.Machine.playAll { registers } programs
    let before := (Board.Play.steps annotate earlier { machine }).2
    before.machine.Advances instruction (before.step annotate instruction).2.machine timer := by
  intro machine before
  have based : machine.Based := (Board.Machine.based_fresh registers).playAll programs
  have state : before.machine = machine.after earlier :=
    Board.Play.machine_steps annotate earlier { machine }
  rw [(before.step_obeys annotate instruction).1, state]
  exact (based.after earlier).advances instruction timer

end Playback
