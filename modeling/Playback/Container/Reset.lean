import Playback.Container.Tree

/-! The chip's reset line. It can only be written. -/

set_option autoImplicit false

namespace Playback

structure ResetChip where
  reset : Bool
  deriving DecidableEq, Repr, Inhabited

namespace ResetChip

def leaf : Leaf Unique ResetChip where
  name := "ResetChip"
  supported := [.omnibus]
  defaultBackend := .omnibus
  writeWords := 1
  readWords := 0
  writeAddresses _ _ := [.ofNat .omnibus 0x00020200]
  readAddresses _ _ := []
  encode line backend := wordsOf backend [line.reset.toNat]
  decode := keepValue "ResetChip"

def node : Node Unique ResetChip := leaf.node default

def record : Json.RecordCodec ResetChip where
  members := [.of "reset" reset fun reset _ => ⟨reset⟩]
  blank := default
  optional := false

end ResetChip

instance : Codec ResetChip := ResetChip.record.toCodec

end Playback
