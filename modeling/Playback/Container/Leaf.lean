import Playback.Coordinate
import Playback.Field
import Playback.Instruction

/-! The contract of a leaf: a configuration value that maps directly onto registers.

A leaf is described by a record of functions. Its addresses depend on the coordinate and the backend
alone; bit layouts appear nowhere but in `encode` and `decode`.
-/

set_option autoImplicit false

namespace Playback

inductive DecodeError where
  | wordCount (container : String) (expected actual : Nat)
  | backendMismatch (container : String) (expected actual : Backend)
  | invalidValue (container : String) (detail : String)
  deriving DecidableEq, Repr

def DecodeError.cause : DecodeError → String
  | wordCount .. => "WordCount"
  | backendMismatch .. => "BackendMismatch"
  | invalidValue .. => "InvalidValue"

def DecodeError.message : DecodeError → String
  | wordCount container expected actual => s!"{container}: expected {expected} words, got {actual}"
  | backendMismatch container expected actual =>
    s!"{container}: word from {actual.name} backend, expected {expected.name}"
  | invalidValue container detail => s!"{container}: invalid value: {detail}"

/-- How values `V` at coordinates `C` are kept in registers. -/
structure Leaf (C V : Type) where
  name : String
  supported : List Backend
  defaultBackend : Backend
  /-- Number of words that `encode` makes; zero for a read-only register. -/
  writeWords : Nat
  readWords : Nat
  restriction : Option ExecutorKind := none
  writeAddresses : C → Backend → List Address
  readAddresses : C → Backend → List Address
  encode : V → Backend → List Word
  /-- The value that the words describe; a write-only register keeps the given one. -/
  decode : Backend → List Word → V → Except DecodeError V
  timerReset : V → C → Option (TimerOnChip × TimerValue) := fun _ _ => none

def wordsOf (backend : Backend) (raw : List Nat) : List Word :=
  raw.map (Word.ofNat backend)

/-- The numbers in `n` words, all of them of the given backend. -/
def rawWords (container : String) (n : Nat) (backend : Backend) (words : List Word) :
    Except DecodeError (Vector Nat n) :=
  if h : words.length = n then
    match words.find? fun w => w.backend != backend with
    | some w => .error (.backendMismatch container backend w.backend)
    | none => .ok ⟨(words.map Word.raw).toArray, by simpa using h⟩
  else .error (.wordCount container n words.length)

def rawWord (container : String) (backend : Backend) (words : List Word) :
    Except DecodeError Nat := do
  let raw ← rawWords container 1 backend words
  return raw.get ⟨0, Nat.zero_lt_one⟩

/-- A write-only register takes no words and keeps its value. -/
def keepValue {V : Type} (container : String) (backend : Backend) (words : List Word) (value : V) :
    Except DecodeError V := do
  let _ ← rawWords container 0 backend words
  return value

def checked {α : Type} (container : String) : Except RangeError α → Except DecodeError α
  | .ok a => .ok a
  | .error e => .error (.invalidValue container e.message)

/-- The number in `width` bits from bit `shift` on. -/
def bits (raw shift width : Nat) : Nat :=
  (raw >>> shift) % (1 <<< width)

def bit (raw index : Nat) : Bool :=
  bits raw index 1 == 1

end Playback
