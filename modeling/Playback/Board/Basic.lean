import Playback.Board.Machine
import Playback.Executor.Transport
import Playback.Packet

/-! A model of a board.

It plays the program in its memory when it is triggered and keeps the response in result memory. It
can be told to stay busy, to latch exception flags, to report another result size, to be held in
reset and to refuse programs. It counts the calls that it gets.
-/

set_option autoImplicit false

namespace Playback

structure Board where
  kind : ExecutorKind := .simulation
  machine : Board.Machine := {}
  program : Option Packet := none
  result : Bytes := []
  maxResultSize : Nat := 0x100000
  /-- Whether the execute flag never clears. -/
  stuck : Bool := false
  /-- How many looks after a trigger find the program running. -/
  busyPolls : Nat := 0
  busyLeft : Nat := 0
  exception : ExceptionFlags := .empty
  /-- The result size that is reported in place of the real one. -/
  reportedSize : Option Nat := none
  /-- How many more looks find the chip in reset. -/
  resetChecks : Nat := 0
  failTransmit : Bool := false
  transmits : Nat := 0
  triggers : Nat := 0
  polls : Nat := 0

namespace Board

def transmit (blocks : List Bytes) (board : Board) : Except TransportError Unit × Board :=
  let board := { board with transmits := board.transmits + 1 }
  if board.failTransmit then
    (.error (.rejected "transmit" "simulated transfer failure"), board)
  else
    match Packet.decode blocks.flatten with
    | .error e => (.error (.rejected "transmit" e.message), board)
    | .ok packet => (.ok (), { board with program := some packet })

def chipInReset (board : Board) : Except TransportError Bool × Board :=
  if board.resetChecks = 0 then (.ok false, board)
  else (.ok true, { board with resetChecks := board.resetChecks - 1 })

def trigger (board : Board) : Except TransportError Unit × Board :=
  let board := { board with triggers := board.triggers + 1 }
  match board.program with
  | none => (.error (.rejected "trigger" "program memory empty"), board)
  | some packet =>
    let (records, machine) :=
      board.machine.play (ProgramFlags.annotates packet.flags) packet.instructions
    (.ok (),
      { board with machine, result := Response.encode records, busyLeft := board.busyPolls })

def pollStatus (board : Board) : Except TransportError Bool × Board :=
  let board := { board with polls := board.polls + 1 }
  if board.stuck then (.ok true, board)
  else if board.busyLeft = 0 then (.ok false, board)
  else (.ok true, { board with busyLeft := board.busyLeft - 1 })

def readExceptionFlags (board : Board) : Except TransportError ExceptionFlags × Board :=
  (.ok board.exception, board)

def readResultSize (board : Board) : Except TransportError Nat × Board :=
  (.ok (board.reportedSize.getD board.result.length), board)

def bulkRead (offset length : Nat) (board : Board) : Except TransportError Bytes × Board :=
  if offset + length ≤ board.result.length then
    (.ok ((board.result.drop offset).take length), board)
  else
    let detail := s!"{length} bytes at {offset} beyond {board.result.length} result bytes"
    (.error (.rejected "bulk_read" detail), board)

/-- Loads a packet, plays it and reads as much of the result as the board reports: the bytes and the
clock after the run. -/
def playPacket (packet : Bytes) (board : Board) : Except TransportError (Bytes × Nat) × Board :=
  match board.transmit (Packet.blocks packet) with
  | (.error error, board) => (.error error, board)
  | (.ok (), board) =>
    match board.trigger with
    | (.error error, board) => (.error error, board)
    | (.ok (), board) =>
      match board.readResultSize with
      | (.error error, board) => (.error error, board)
      | (.ok size, board) =>
        match board.bulkRead 0 size with
        | (.error error, board) => (.error error, board)
        | (.ok result, board) => (.ok (result, board.machine.clock), board)

def peek (board : Board) (address : Address) : Option Word :=
  board.machine.registers.get? address

def poke (board : Board) (address : Address) (word : Word) : Board :=
  { board with
    machine := { board.machine with registers := board.machine.registers.insert address word } }

end Board

instance : Transport Board where
  kind := Board.kind
  transmit := Board.transmit
  chipInReset := Board.chipInReset
  trigger := Board.trigger
  pollStatus := Board.pollStatus
  readExceptionFlags := Board.readExceptionFlags
  readResultSize := Board.readResultSize
  maxResultSize := Board.maxResultSize
  bulkRead := Board.bulkRead

end Playback
