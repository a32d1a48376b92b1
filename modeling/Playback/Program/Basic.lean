import Playback.Program.Builder

/-! Programs: a finished instruction stream and the results of running it.

The stream never changes; a run first clears the results and, when its response fits, stores new
ones. Completing a run is all or nothing: the number of words is checked before any slot is touched,
and the slots are resolved only when every one of them took its words.
-/

set_option autoImplicit false

namespace Playback

abbrev ProgramId := Nat

namespace ProgramId

def text (id : ProgramId) : String :=
  s!"#{id}"

end ProgramId

inductive ProgramError where
  | responseCount (program : ProgramId) (expected actual : Nat)
  | slot (error : SlotError)
  deriving DecidableEq, Repr

def ProgramError.cause : ProgramError → String
  | responseCount .. => "ResponseCount"
  | slot error => "Slot." ++ error.cause

def ProgramError.message : ProgramError → String
  | responseCount program expected actual =>
    s!"program {ProgramId.text program} expects {expected} response words, got {actual}"
  | slot error => error.message

structure Program where
  id : ProgramId
  instructions : List Instruction := []
  restriction : Option ExecutorKind := none
  slots : List Slot := []
  runs : Nat := 0
  /-- Events of the last completed run. -/
  events : Events := {}

namespace Program

def ofBuilder (id : ProgramId) (builder : Builder) : Program where
  id := id
  instructions := builder.instructions
  restriction := builder.restriction
  slots := builder.slots

def readCount (program : Program) : Nat :=
  program.instructions.countP Instruction.isRead

def isExecutableOn (program : Program) (kind : ExecutorKind) : Bool :=
  program.restriction.all fun required => required == kind

def beginRun (program : Program) : Program :=
  { program with slots := program.slots.map Slot.reset, events := {} }

/-- Stages every slot with the words of its read, in order, from a place in the response on. The
first refusal ends it. -/
def stageSlots (id : ProgramId) (total : Nat) :
    Nat → List Slot → List ResponseWord → Except ProgramError Unit × List Slot
  | _, [], _ => (.ok (), [])
  | position, slot :: rest, words =>
    if words.length < slot.wordCount then
      (.error (.responseCount id (position + slot.wordCount) total), slot :: rest)
    else
      match slot.stage (words.take slot.wordCount) position with
      | (.error e, slot) => (.error (.slot e), slot :: rest)
      | (.ok (), staged) =>
        let (outcome, rest) :=
          stageSlots id total (position + slot.wordCount) rest (words.drop slot.wordCount)
        (outcome, staged :: rest)

/-- Resolves the slots and stores the events of a run's response. After a failure no slot is staged,
and events and run count are as before. -/
def completeRun (response : Response) (program : Program) : Except ProgramError Unit × Program :=
  let expected := program.readCount
  let actual := response.words.length
  if actual ≠ expected then (.error (.responseCount program.id expected actual), program)
  else
    match stageSlots program.id actual 0 program.slots response.words with
    | (.error e, slots) => (.error e, { program with slots := slots.map Slot.discard })
    | (.ok (), slots) =>
      (.ok (),
        { program with
          slots := slots.map Slot.commit
          runs := program.runs + 1
          events := response.events })

end Program

end Playback
