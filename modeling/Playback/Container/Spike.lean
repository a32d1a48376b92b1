import Playback.Container.Tree
import Playback.Event

/-! Packs that inject one, two or three spikes. A pack is sent once its last word is written; packs
of different sizes have registers of their own. -/

set_option autoImplicit false

namespace Playback

def spikePackSizes : Nat := 3

def madcPackSizes : Nat := 2

structure SpikePack (n : Nat) where
  labels : Vector SpikeLabel n
  deriving DecidableEq, Repr

namespace SpikePack

variable {n : Nat}

instance : Inhabited (SpikePack n) := ⟨⟨Vector.replicate n 0⟩⟩

/-- The registers of the packs of size `n`, one a spike. -/
def addresses (n : Nat) : List Address :=
  (List.range n).map fun i => .ofNat .omnibus (0x00020300 + 4 * (n - 1) + i)

def leaf (n : Nat) : Leaf Unique (SpikePack n) where
  name := s!"SpikePack{n}ToChip"
  supported := [.omnibus]
  defaultBackend := .omnibus
  writeWords := n
  readWords := 0
  writeAddresses _ _ := addresses n
  readAddresses _ _ := []
  encode pack backend := wordsOf backend (pack.labels.toList.map UInt16.toNat)
  decode := keepValue s!"SpikePack{n}ToChip"

def node (n : Nat) : Node Unique (SpikePack n) := (leaf n).node default

def record : Json.RecordCodec (SpikePack n) where
  members := [.of "labels" labels fun labels _ => ⟨labels⟩]
  blank := default
  optional := false

end SpikePack

instance {n : Nat} : Codec (SpikePack n) := SpikePack.record.toCodec

end Playback
