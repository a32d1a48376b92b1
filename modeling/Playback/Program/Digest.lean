import Playback.Checksum.Blake3
import Playback.Program.Basic
import Playback.Text.Hex

/-! Content digests of programs, and the texts that show a program.

The bytes that are hashed hold the instruction stream and the restriction and nothing else, so
programs with equal content have equal digests whatever their identities and results.
-/

set_option autoImplicit false

namespace Playback

namespace Instruction

/-- The content of an instruction: a kind byte and the operands, least significant byte first. -/
def content : Instruction → Bytes
  | .write (.omnibus a w) => 0 :: (Bytes.little 4 a.toNat ++ Bytes.little 4 w.toNat)
  | .write (.jtag r w) => 1 :: (Bytes.little 2 r.toNat ++ Bytes.little 8 w.toNat)
  | .read (.omnibus a) => 2 :: Bytes.little 4 a.toNat
  | .read (.jtag r) => 3 :: Bytes.little 2 r.toNat
  | .wait timer value => 4 :: (Bytes.little 2 timer.index ++ Bytes.little 4 value.toNat)
  | .barrier kind => [5, kind.mask]

end Instruction

namespace Program

def contentMark : Bytes := Bytes.ofText "spindle:program:v1"

def restrictionByte : Option ExecutorKind → UInt8
  | none => 0
  | some .hardware => 1
  | some .simulation => 2

def content (instructions : List Instruction) (restriction : Option ExecutorKind) : Bytes :=
  contentMark ++ restrictionByte restriction
    :: (Bytes.little 8 instructions.length ++ instructions.flatMap Instruction.content)

def digest (program : Program) : Bytes :=
  Blake3.hash (content program.instructions program.restriction)

def countsText (counts : List Nat) : String :=
  "[" ++ ", ".intercalate (counts.map toString) ++ "]"

def text (program : Program) : String :=
  let mark := Hex.ofBytes (program.digest.take 4)
  let restricted := match program.restriction with
    | none => ""
    | some kind => ", restricted to " ++ kind.name
  let head := s!"PlaybackProgram({ProgramId.text program.id}, digest {mark}, "
    ++ s!"{program.instructions.length} instructions, {program.readCount} reads{restricted})\n"
  let events := program.events
  let last :=
    if program.runs = 0 then ""
    else
      s!"  last run: {events.spikes.length} spikes {countsText events.spikePacks.toList}, "
        ++ s!"{events.samples.length} madc samples {countsText events.samplePacks.toList}\n"
  head ++ Instruction.listing program.instructions ++ last

def summary (program : Program) : String :=
  let restriction := match program.restriction with
    | none => "None"
    | some kind => s!"Some({kind.name})"
  s!"PlaybackProgram \x7b id: ProgramId({program.id}), "
    ++ s!"instructions: {program.instructions.length}, tickets: {program.slots.length}, "
    ++ s!"restriction: {restriction}, .. \x7d"

end Program

end Playback
