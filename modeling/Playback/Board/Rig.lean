import Playback.Board.Basic

/-! A board behind a link that can be told to fail, call by call, and to report another result. -/

set_option autoImplicit false

namespace Playback

/-- The calls of a link that can fail. What is behind it and how much it holds are always known. -/
inductive LinkCall where
  | transmit
  | chipInReset
  | trigger
  | pollStatus
  | readExceptionFlags
  | readResultSize
  | bulkRead
  deriving DecidableEq, Repr

namespace LinkCall

def name : LinkCall → String
  | transmit => "transmit"
  | chipInReset => "chip_in_reset"
  | trigger => "trigger"
  | pollStatus => "poll_status"
  | readExceptionFlags => "read_exception_flags"
  | readResultSize => "read_result_size"
  | bulkRead => "bulk_read"

end LinkCall

structure Rig where
  board : Board := {}
  /-- The calls, by name, that fail before they reach the board. -/
  faults : Table String TransportError := {}
  result : Option Bytes := none

namespace Rig

def through {α : Type} (call : LinkCall) (act : Board → Except TransportError α × Board)
    (rig : Rig) : Except TransportError α × Rig :=
  match rig.faults.get? call.name with
  | some error => (.error error, rig)
  | none =>
    let (outcome, board) := act rig.board
    (outcome, { rig with board })

def readResultSize (rig : Rig) : Except TransportError Nat × Rig :=
  rig.through .readResultSize fun board =>
    match rig.result with
    | some bytes => (.ok bytes.length, board)
    | none => board.readResultSize

def bulkRead (offset length : Nat) (rig : Rig) : Except TransportError Bytes × Rig :=
  rig.through .bulkRead fun board =>
    match rig.result with
    | some bytes => (.ok bytes, board)
    | none => board.bulkRead offset length

/-- Lets the calls of a name fail. No other name than that of a `LinkCall` has an effect. -/
def fail (call : String) (error : TransportError) (rig : Rig) : Rig :=
  { rig with faults := rig.faults.insert call error }

def heal (rig : Rig) : Rig :=
  { rig with faults := {} }

end Rig

instance : Transport Rig where
  kind rig := rig.board.kind
  transmit blocks := Rig.through .transmit (Board.transmit blocks)
  chipInReset := Rig.through .chipInReset Board.chipInReset
  trigger := Rig.through .trigger Board.trigger
  pollStatus := Rig.through .pollStatus Board.pollStatus
  readExceptionFlags := Rig.through .readExceptionFlags Board.readExceptionFlags
  readResultSize := Rig.readResultSize
  maxResultSize rig := rig.board.maxResultSize
  bulkRead := Rig.bulkRead

end Playback
