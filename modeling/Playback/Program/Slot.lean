import Playback.Container.Tree
import Playback.Response.Stream

/-! Slots: where a program keeps the answers to its reads.

A slot takes the words of its read and keeps them if they decode. This has two steps. All slots of a
program are staged first; only when none refuses are they resolved. A slot refuses words while it
holds others.
-/

set_option autoImplicit false

namespace Playback

abbrev TicketId := Nat

namespace Node

variable {C V : Type}

/-- The value that exactly these words hold. -/
def readWords (node : Node C V) (coord : C) (explicit : Option Backend) (words : List Word) :
    Except DecodeError V :=
  let outcome := Leaves.decode explicit (node.leaves coord) words node.blank
  match outcome.error with
  | some e => .error e
  | none =>
    if outcome.consumed = words.length then .ok outcome.value
    else .error (.wordCount node.name outcome.consumed words.length)

end Node

inductive SlotState where
  | empty
  /-- The words decode; they count once every slot of the program is staged. -/
  | staged (words : List Word) (time : FpgaTime)
  | resolved (words : List Word) (time : FpgaTime)
  | failed (error : DecodeError)
  deriving DecidableEq, Repr

inductive SlotError where
  | alreadyResolved (container : String)
  | decode (error : DecodeError)
  deriving DecidableEq, Repr

/-- The name of the cause; the name of a cause within stands behind a dot. -/
def SlotError.cause : SlotError → String
  | alreadyResolved _ => "AlreadyResolved"
  | decode error => "Decode." ++ error.cause

def SlotError.message : SlotError → String
  | alreadyResolved container => s!"{container} ticket resolved twice in one run"
  | decode error => error.message

structure Slot where
  ticket : TicketId
  container : String
  wordCount : Nat
  check : List Word → Except DecodeError Unit
  state : SlotState := .empty

namespace Slot

def ofRead {C V : Type} (node : Node C V) (coord : C) (explicit : Option Backend)
    (ticket : TicketId) : Slot where
  ticket := ticket
  container := node.name
  wordCount := (Leaves.readAddresses explicit (node.leaves coord)).length
  check words := (node.readWords coord explicit words).map fun _ => ()

def reset (slot : Slot) : Slot :=
  { slot with state := .empty }

def isResolved (slot : Slot) : Bool :=
  match slot.state with
  | .resolved .. => true
  | _ => false

/-- Offers words to a slot. `position` is the place of the first of them in the response; it stands
for the time of words that carry none. -/
def stage (words : List ResponseWord) (position : Nat) (slot : Slot) :
    Except SlotError Unit × Slot :=
  match slot.state with
  | .empty =>
    let bare := words.map ResponseWord.word
    match slot.check bare with
    | .error e => (.error (.decode e), { slot with state := .failed e })
    | .ok () =>
      let time := (words.head?.bind ResponseWord.fpgaTime).getD (UInt64.ofNat position)
      (.ok (), { slot with state := .staged bare time })
  | _ => (.error (.alreadyResolved slot.container), slot)

def commit (slot : Slot) : Slot :=
  match slot.state with
  | .staged words time => { slot with state := .resolved words time }
  | _ => slot

def discard (slot : Slot) : Slot :=
  match slot.state with
  | .staged .. => { slot with state := .empty }
  | _ => slot

end Slot

end Playback
