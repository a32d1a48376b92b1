import Playback.Container.Pll
import Playback.Container.Timer

/-! Leaves and composites that each step out of line in one way.

The contract of a leaf does not say that words and addresses are equally many, that a word has the
backend of its address, or that the default backend is a supported one. These nodes show what is
made of a leaf that gets such a thing wrong, of one that is restricted to simulation, and of
composites that write one timer twice, mix restrictions, or are empty.
-/

set_option autoImplicit false

namespace Playback

structure PlainRegister where
  value : UInt32
  deriving DecidableEq, Repr, Inhabited

namespace PlainRegister

def record : Json.RecordCodec PlainRegister where
  members := [.of "value" value fun value _ => ⟨value⟩]
  blank := default
  optional := false

/-- A bus register at the given addresses; it is written as one word and read from its
first word. -/
def leaf (name : String) (addresses : List Nat) : Leaf Unique PlainRegister where
  name := name
  supported := [.omnibus]
  defaultBackend := .omnibus
  writeWords := 1
  readWords := 1
  writeAddresses _ _ := addresses.map (Address.ofNat .omnibus)
  readAddresses _ _ := addresses.map (Address.ofNat .omnibus)
  encode register backend := wordsOf backend [register.value.toNat]
  decode backend words _ := do
    return ⟨UInt32.ofNat (← rawWord name backend words)⟩

def simOnly : Leaf Unique PlainRegister :=
  { leaf "SimOnly" [0x0fff0000] with restriction := some .simulation }

def readOnly : Leaf Unique PlainRegister :=
  { leaf "ReadOnly" [0x0fff0010] with
    writeWords := 0
    writeAddresses := fun _ _ => []
    encode := fun _ _ => [] }

/-- Has two write addresses and one word. -/
def badCount : Leaf Unique PlainRegister :=
  { leaf "BadCount" [0x0fff0020] with
    writeWords := 2
    writeAddresses := fun _ _ => [.ofNat .omnibus 0x0fff0020, .ofNat .omnibus 0x0fff0021] }

/-- Makes words of the other backend. -/
def crossWord : Leaf Unique PlainRegister :=
  { leaf "CrossWord" [0x0fff0030] with
    encode := fun register _ => wordsOf .jtag [register.value.toNat] }

/-- Does not support its default backend. -/
def badDefault : Leaf Unique PlainRegister :=
  { leaf "BadDefault" [] with
    supported := [.jtag]
    writeAddresses := fun _ _ => [.ofNat .jtag 0x50]
    readAddresses := fun _ _ => [.ofNat .jtag 0x50] }

/-- Has two read addresses and takes one word. -/
def shortRead : Leaf Unique PlainRegister :=
  { leaf "ShortRead" [0x0fff0040] with
    readAddresses := fun _ _ => [.ofNat .omnibus 0x0fff0040, .ofNat .omnibus 0x0fff0041] }

/-- Has one read address and takes two words. -/
def longRead : Leaf Unique PlainRegister :=
  { leaf "LongRead" [0x0fff0050] with
    readWords := 2
    decode := fun backend words _ => do
      let raw ← rawWords "LongRead" 2 backend words
      return ⟨UInt32.ofNat (raw.get ⟨0, Nat.zero_lt_two⟩)⟩ }

end PlainRegister

instance : Codec PlainRegister := PlainRegister.record.toCodec

structure TimerTwice where
  first : Timer
  second : Timer
  deriving DecidableEq, Repr, Inhabited

namespace TimerTwice

def node : Node Unique TimerTwice :=
  .composite "TimerTwice" default fun _ =>
    Timer.node.visitsWithin (.first Nat.zero_lt_two) ⟨first, fun first both => { both with first }⟩
      ++ Timer.node.visitsWithin (.first Nat.zero_lt_two)
        ⟨second, fun second both => { both with second }⟩

def record : Json.RecordCodec TimerTwice where
  members :=
    [.of "first" first fun first both => { both with first },
      .of "second" second fun second both => { both with second }]
  blank := default
  optional := false

end TimerTwice

instance : Codec TimerTwice := TimerTwice.record.toCodec

structure Mixed where
  sim : PlainRegister
  pll : PllClockOutput
  deriving DecidableEq, Repr, Inhabited

namespace Mixed

def node : Node Unique Mixed :=
  .composite "Mixed" default fun _ =>
    (PlainRegister.simOnly.node default).visitsWithin ⟨⟩ ⟨sim, fun sim mixed => { mixed with sim }⟩
      ++ PllClockOutput.node.visitsWithin (.first Nat.zero_lt_two)
        ⟨pll, fun pll mixed => { mixed with pll }⟩

def record : Json.RecordCodec Mixed where
  members :=
    [.of "sim" sim fun sim mixed => { mixed with sim },
      .of "pll" pll fun pll mixed => { mixed with pll }]
  blank := default
  optional := false

end Mixed

instance : Codec Mixed := Mixed.record.toCodec

structure Hollow where
  deriving DecidableEq, Repr, Inhabited

namespace Hollow

def node : Node Unique Hollow :=
  .composite "Hollow" default fun _ => []

def record : Json.RecordCodec Hollow where
  members := []
  blank := default
  optional := false

end Hollow

instance : Codec Hollow := Hollow.record.toCodec

end Playback
