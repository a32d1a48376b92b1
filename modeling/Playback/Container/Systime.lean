import Playback.Container.Tree

/-! The system time counter: its start value and the trigger that synchronises board and chip. -/

set_option autoImplicit false

namespace Playback

def systimeWidth : Nat := 43

abbrev SystimeCount := Field "SystimeCount" 64 0 0x7ffffffffff

structure SystimeSyncBase where
  value : SystimeCount
  deriving DecidableEq, Repr

namespace SystimeSyncBase

instance : Inhabited SystimeSyncBase := ⟨⟨Field.lowest⟩⟩

def ofNat (n : Nat) : SystimeSyncBase :=
  ⟨⟨n % 0x80000000000, Nat.zero_le _, by omega⟩⟩

def addresses (backend : Backend) : List Address :=
  match backend with
  | .omnibus => [.ofNat .omnibus 0x00020110, .ofNat .omnibus 0x00020111]
  | .jtag => [.ofNat .jtag 0x30, .ofNat .jtag 0x31]

def leaf : Leaf Unique SystimeSyncBase where
  name := "SystimeSyncBase"
  supported := [.omnibus, .jtag]
  defaultBackend := .omnibus
  writeWords := 2
  readWords := 2
  writeAddresses _ backend := addresses backend
  readAddresses _ backend := addresses backend
  encode base backend := wordsOf backend [bits base.value.value 0 32, bits base.value.value 32 11]
  decode backend words _ := do
    let raw ← rawWords "SystimeSyncBase" 2 backend words
    let low := raw.get ⟨0, Nat.zero_lt_two⟩
    let high := raw.get ⟨1, Nat.one_lt_two⟩
    let value ← checked "SystimeSyncBase" (Field.ofNat (bits low 0 32 + bits high 0 11 <<< 32))
    return ⟨value⟩

def node : Node Unique SystimeSyncBase := leaf.node default

def record : Json.RecordCodec SystimeSyncBase where
  members := [.of "value" value fun value _ => ⟨value⟩]
  blank := default
  optional := false

end SystimeSyncBase

instance : Codec SystimeSyncBase := SystimeSyncBase.record.toCodec

/-- Starts a synchronisation. It can only be written. -/
structure SystimeSync where
  doSync : Bool
  deriving DecidableEq, Repr, Inhabited

namespace SystimeSync

def leaf : Leaf Unique SystimeSync where
  name := "SystimeSync"
  supported := [.omnibus]
  defaultBackend := .omnibus
  writeWords := 1
  readWords := 0
  writeAddresses _ _ := [.ofNat .omnibus 0x00020100]
  readAddresses _ _ := []
  encode sync backend := wordsOf backend [sync.doSync.toNat]
  decode := keepValue "SystimeSync"

def node : Node Unique SystimeSync := leaf.node default

def record : Json.RecordCodec SystimeSync where
  members := [.of "do_sync" doSync fun doSync _ => ⟨doSync⟩]
  blank := default
  optional := false

end SystimeSync

instance : Codec SystimeSync := SystimeSync.record.toCodec

end Playback
