import Playback.Program.Shelf
import Playback.Text.Quoted

/-! Tickets: handles on the values that a program reads.

A ticket knows what was read and where; the words are in its program's slot. It has a value exactly
while the slot is resolved.
-/

set_option autoImplicit false

namespace Playback

structure Ticket (C V : Type) where
  id : TicketId
  node : Node C V
  coordinate : C
  /-- The backend of the read, or each leaf's default one. -/
  backend : Option Backend

inductive TicketError where
  | notYetAvailable (container coordinate : String)
  | decode (error : DecodeError)
  deriving DecidableEq, Repr

def TicketError.cause : TicketError → String
  | notYetAvailable .. => "NotYetAvailable"
  | decode error => "Decode." ++ error.cause

def TicketError.message : TicketError → String
  | notYetAvailable container coordinate =>
    s!"ticket for {container} at {coordinate} is not yet available"
  | decode error => error.message

namespace Ticket

variable {C V : Type} [Coordinate C]

/-- Whether the program completed a run since the last one began. -/
def isValid (ticket : Ticket C V) (shelf : Shelf) : Bool :=
  (shelf.slot? ticket.id).any Slot.isResolved

def answer (ticket : Ticket C V) (shelf : Shelf) : Except TicketError (List Word × FpgaTime) :=
  match (shelf.slot? ticket.id).map Slot.state with
  | some (.resolved words time) => .ok (words, time)
  | some (.failed e) => .error (.decode e)
  | _ => .error (.notYetAvailable ticket.node.name (Coordinate.describe ticket.coordinate))

def get (ticket : Ticket C V) (shelf : Shelf) : Except TicketError V := do
  let (words, _) ← ticket.answer shelf
  (ticket.node.readWords ticket.coordinate ticket.backend words).mapError .decode

/-- The time of the first word. Without annotation it is the word's place in the response. -/
def fpgaTime (ticket : Ticket C V) (shelf : Shelf) : Except TicketError FpgaTime :=
  (ticket.answer shelf).map Prod.snd

def text (ticket : Ticket C V) (shelf : Shelf) : String :=
  s!"Ticket \x7b container: {Quoted.quote ticket.node.name}, coord: "
    ++ Coordinate.describe ticket.coordinate
    ++ s!", valid: {ticket.isValid shelf} \x7d"

end Ticket

end Playback
