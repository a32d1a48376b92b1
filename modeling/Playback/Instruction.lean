import Playback.Coordinate
import Playback.Register.Access

/-! Instructions of a playback program. A program is a list of them; list order is execution order.
-/

set_option autoImplicit false

namespace Playback

abbrev TimerValue := UInt32

namespace TimerValue

/-- Ticks of one microsecond at the nominal clock. -/
def ticksPerMicrosecond : Nat := 125

/-- The ticks of a span in microseconds, or the largest value if there are more. -/
def ofMicroseconds (us : Nat) : TimerValue :=
  UInt32.ofNat (min (us * ticksPerMicrosecond) 0xffffffff)

end TimerValue

inductive Barrier where
  /-- Outstanding bus transactions. -/
  | omnibus
  /-- Outstanding scan shifts. -/
  | jtag
  /-- The high-speed link. -/
  | systime
  | all
  deriving DecidableEq, Repr, Inhabited

namespace Barrier

def name : Barrier → String
  | omnibus => "Omnibus"
  | jtag => "Jtag"
  | systime => "Systime"
  | all => "All"

def kinds : List Barrier := [omnibus, jtag, systime, all]

def mask : Barrier → UInt8
  | omnibus => 1
  | jtag => 2
  | systime => 4
  | all => 7

def ofMask? (mask : UInt8) : Option Barrier :=
  kinds.find? fun b => b.mask == mask

@[simp] theorem ofMask?_mask (b : Barrier) : ofMask? b.mask = some b := by
  cases b <;> rfl

theorem mask_of_ofMask? {m : UInt8} {b : Barrier} (h : ofMask? m = some b) : b.mask = m := by
  simpa using List.find?_some h

end Barrier

instance : Codec Barrier where
  encode b := .ofText b.name
  decode := Json.toNamed (Barrier.kinds.map fun b => (b.name, b))

inductive Instruction where
  | write (access : WriteAccess)
  | read (address : Address)
  | wait (timer : TimerOnChip) (value : TimerValue)
  | barrier (kind : Barrier)
  deriving DecidableEq, Repr

namespace Instruction

def isRead : Instruction → Bool
  | read _ => true
  | _ => false

def text : Instruction → String
  | write access => s!"write {access.address.text} <- {access.word.text}"
  | read address => s!"read {address.text}"
  | wait timer value => s!"wait_until {timer.text} >= {value.toNat}"
  | barrier kind => s!"barrier {kind.name}"

def listing (instructions : List Instruction) : String :=
  String.join (instructions.zipIdx.map fun (i, n) => s!"  {Numeral.aligned 5 n}: {i.text}\n")

def waitRecord : Json.RecordCodec (TimerOnChip × TimerValue) where
  members :=
    [.of "timer" Prod.fst fun timer wait => (timer, wait.2),
      .of "value" Prod.snd fun value wait => (wait.1, value)]
  blank := (.first Nat.zero_lt_two, 0)
  optional := false

end Instruction

instance : Codec Instruction where
  encode
    | .write access => .ofVariant "Write" (Codec.encode access)
    | .read address => .ofVariant "ReadRequest" (Codec.encode address)
    | .wait timer value => .ofVariant "WaitUntil" (Instruction.waitRecord.encode (timer, value))
    | .barrier kind => .ofVariant "Barrier" (Codec.encode kind)
  decode json := do
    match ← json.toVariant with
    | ("Write", content) => return .write (← Json.toContent content)
    | ("ReadRequest", content) => return .read (← Json.toContent content)
    | ("WaitUntil", some content) =>
      let (timer, value) ← Instruction.waitRecord.decode content
      return .wait timer value
    | ("Barrier", content) => return .barrier (← Json.toContent content)
    | _ => .error .form

/-- An instruction from a value tree (`Json.canonical`) in place of a document: there the members of
a wait have to be named. -/
def Instruction.ofTree (json : Json) : Except Json.Fault Instruction :=
  match json.toVariant with
  | .ok ("WaitUntil", some (.array _)) => .error .form
  | _ => Codec.decode json

end Playback
