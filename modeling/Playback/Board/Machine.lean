import Playback.Container.Spike
import Playback.Container.Timer
import Playback.Instruction
import Playback.Response.Record
import Playback.Table

/-! How a board plays an instruction stream.

Writes land in a register file and reads answer with what is there, zero for a register that was
never written. The clock advances by one with every instruction. A timer reads the clock less its
base: writing a timer sets the base so that it reads the written value, and a wait moves the clock
on until the timer has reached the value. Labels written to the registers of a spike pack come back
as a pack once the last of them is written. With annotation, a record is preceded by a timestamp if
the clock has moved.
-/

set_option autoImplicit false

namespace Playback.Board

/-- What a board keeps from one program to the next. -/
structure Machine where
  registers : Table Address Word := {}
  clock : Nat := 0
  /-- The clock value at which each timer was zero. -/
  timerBases : Vector Nat 2 := .replicate 2 0
  deriving Repr

namespace Machine

def read (machine : Machine) (address : Address) : Word :=
  (machine.registers.get? address).getD (.ofNat address.backend 0)

def write (machine : Machine) (access : WriteAccess) : Machine :=
  { machine with registers := machine.registers.insert access.address access.word }

def tick (machine : Machine) : Machine :=
  { machine with clock := machine.clock + 1 }

def timerBase (machine : Machine) (timer : TimerOnChip) : Nat :=
  timer.entry machine.timerBases

def timerReading (machine : Machine) (timer : TimerOnChip) : Nat :=
  machine.clock - machine.timerBase timer

/-- Moves the clock on until a timer has reached a value. -/
def waitFor (machine : Machine) (timer : TimerOnChip) (value : TimerValue) : Machine :=
  { machine with clock := max machine.clock (machine.timerBase timer + value.toNat) }

/-- Makes a timer read a value; the clock moves on if it is behind that value. -/
def setTimer (machine : Machine) (timer : TimerOnChip) (value : Nat) : Machine :=
  let clock := max machine.clock value
  { machine with clock, timerBases := timer.setEntry (clock - value) machine.timerBases }

def timerAt? (address : Address) : Option TimerOnChip :=
  Site.all.find? fun timer => (Timer.addresses timer).contains address

def restartTimer (machine : Machine) (access : WriteAccess) : Machine :=
  match timerAt? access.address with
  | some timer => machine.setTimer timer access.word.raw
  | none => machine

end Machine

/-- A place in a spike pack: its size, counted from zero, and the number of labels before it. -/
structure PackPlace where
  size : Fin 3
  before : Nat
  deriving DecidableEq, Repr

def packPlace? (address : Address) : Option PackPlace :=
  (List.finRange 3).findSome? fun (size : Fin 3) =>
    ((SpikePack.addresses (size.val + 1)).idxOf? address).map fun before => ⟨size, before⟩

structure Play where
  machine : Machine
  stamped : Option Nat := none
  /-- The labels of unfinished packs of each size. -/
  pending : Vector (List SpikeLabel) 3 := .replicate 3 []
  deriving Repr

namespace Play

open Response

/-- The timestamp ahead of a record, if one is due. -/
def stamp (annotate : Bool) (play : Play) : List Record × Play :=
  let clock := play.machine.clock
  if annotate ∧ play.stamped ≠ some clock then
    ([.timestamp (UInt64.ofNat clock)], { play with stamped := some clock })
  else ([], play)

def send (annotate : Bool) (record : Record) (play : Play) : List Record × Play :=
  let (stamps, play) := play.stamp annotate
  (stamps ++ [record], play)

/-- The labels of a pack after a write to one of its registers. Those at later places
are dropped. -/
def offered (play : Play) (place : PackPlace) (label : SpikeLabel) : List SpikeLabel :=
  (play.pending.get place.size).take place.before ++ [label]

def offer (annotate : Bool) (place : PackPlace) (label : SpikeLabel) (play : Play) :
    List Record × Play :=
  let labels := play.offered place label
  let keep (labels : List SpikeLabel) : Play :=
    { play with pending := play.pending.set place.size labels }
  if h : labels.length = place.size + 1 then
    let time := UInt64.ofNat play.machine.clock
    let pack : Pack SpikeEntry 3 :=
      { entries := labels.map fun label => .ofSpike label time
        size_pos := by simp [h]
        size_le := by
          simp only [List.length_map]
          omega }
    (keep []).send annotate (.spikes pack)
  else ([], keep labels)

def step (annotate : Bool) (instruction : Instruction) (play : Play) : List Record × Play :=
  let play := { play with machine := play.machine.tick }
  match instruction with
  | .write access =>
    let play := { play with machine := play.machine.write access }
    let (records, play) :=
      match packPlace? access.address with
      | some place => play.offer annotate place (UInt16.ofNat access.word.raw)
      | none => ([], play)
    (records, { play with machine := play.machine.restartTimer access })
  | .read address => play.send annotate (.word (play.machine.read address))
  | .wait timer value => ([], { play with machine := play.machine.waitFor timer value })
  | .barrier _ => ([], play)

def steps (annotate : Bool) : List Instruction → Play → List Record × Play
  | [], play => ([], play)
  | instruction :: rest, play =>
    let (records, play) := play.step annotate instruction
    let (later, play) := steps annotate rest play
    (records ++ later, play)

end Play

namespace Machine

def play (annotate : Bool) (instructions : List Instruction) (machine : Machine) :
    List Response.Record × Machine :=
  let (records, play) := Play.steps annotate instructions { machine }
  (records ++ [.halt], play.machine)

end Machine

end Playback.Board
