import Playback.Container.Chip
import Playback.Container.Irregular
import Playback.Container.Reset
import Playback.Container.Spike

/-! Every node of the library by name.

Registers of the regular nodes, on the bus:

- `0x00020000 + timer`: `Timer`
- `0x00020100`: `SystimeSync`
- `0x00020110` and `0x00020111`: `SystimeSyncBase`
- `0x00020200`: `ResetChip`
- `0x00020300 + 4 * (n - 1) + i`: `SpikePack n`
- `0x02000000 + 0x10 * synram + i`: `CommonSynramConfig`
- `0x02010000 + 2 * quad + i`: `SynapseQuad`
- `0x02020000 + neuron`: `NeuronConfig`

On the scan chain `PllClockOutput` is at `0x20 + adpll`, `SystimeSyncBase` at `0x30` and `0x31`, and
`CommonSynramConfig` at `0x40 + 4 * synram + i`.
-/

set_option autoImplicit false

namespace Playback

/-- The leaves that make up a chip, in the order of the register map. -/
inductive LeafKind where
  | timer | systimeSync | systimeSyncBase | resetChip
  | spikePack1 | spikePack2 | spikePack3
  | commonSynramConfig | synapseQuad | neuronConfig | pllClockOutput
  | simOnly | readOnly | badCount | crossWord | badDefault | shortRead | longRead
  deriving DecidableEq, Repr

namespace LeafKind

/-- Whether the leaf belongs to the chip; the others are irregular on purpose. -/
def isRegular : LeafKind → Bool
  | simOnly | readOnly | badCount | crossWord | badDefault | shortRead | longRead => false
  | _ => true

@[reducible] def Coord : LeafKind → Type
  | timer => TimerOnChip
  | commonSynramConfig => SynramOnChip
  | synapseQuad => SynapseQuadOnChip
  | neuronConfig => NeuronOnChip
  | pllClockOutput => AdpllOnChip
  | systimeSync | systimeSyncBase | resetChip | spikePack1 | spikePack2 | spikePack3
  | simOnly | readOnly | badCount | crossWord | badDefault | shortRead | longRead => Unique

@[reducible] def Value : LeafKind → Type
  | timer => Timer
  | systimeSync => SystimeSync
  | systimeSyncBase => SystimeSyncBase
  | resetChip => ResetChip
  | spikePack1 => SpikePack 1
  | spikePack2 => SpikePack 2
  | spikePack3 => SpikePack 3
  | commonSynramConfig => CommonSynramConfig
  | synapseQuad => SynapseQuad
  | neuronConfig => NeuronConfig
  | pllClockOutput => PllClockOutput
  | simOnly | readOnly | badCount | crossWord | badDefault | shortRead | longRead => PlainRegister

instance coordinate : (kind : LeafKind) → Coordinate kind.Coord
  | timer => inferInstanceAs (Coordinate TimerOnChip)
  | commonSynramConfig => inferInstanceAs (Coordinate SynramOnChip)
  | synapseQuad => inferInstanceAs (Coordinate SynapseQuadOnChip)
  | neuronConfig => inferInstanceAs (Coordinate NeuronOnChip)
  | pllClockOutput => inferInstanceAs (Coordinate AdpllOnChip)
  | systimeSync | systimeSyncBase | resetChip | spikePack1 | spikePack2 | spikePack3
  | simOnly | readOnly | badCount | crossWord | badDefault | shortRead | longRead =>
    inferInstanceAs (Coordinate Unique)

instance codec : (kind : LeafKind) → Codec kind.Value
  | timer => inferInstanceAs (Codec Timer)
  | systimeSync => inferInstanceAs (Codec SystimeSync)
  | systimeSyncBase => inferInstanceAs (Codec SystimeSyncBase)
  | resetChip => inferInstanceAs (Codec ResetChip)
  | spikePack1 => inferInstanceAs (Codec (SpikePack 1))
  | spikePack2 => inferInstanceAs (Codec (SpikePack 2))
  | spikePack3 => inferInstanceAs (Codec (SpikePack 3))
  | commonSynramConfig => inferInstanceAs (Codec CommonSynramConfig)
  | synapseQuad => inferInstanceAs (Codec SynapseQuad)
  | neuronConfig => inferInstanceAs (Codec NeuronConfig)
  | pllClockOutput => inferInstanceAs (Codec PllClockOutput)
  | simOnly | readOnly | badCount | crossWord | badDefault | shortRead | longRead =>
    inferInstanceAs (Codec PlainRegister)

instance inhabited : (kind : LeafKind) → Inhabited kind.Value
  | timer => inferInstanceAs (Inhabited Timer)
  | systimeSync => inferInstanceAs (Inhabited SystimeSync)
  | systimeSyncBase => inferInstanceAs (Inhabited SystimeSyncBase)
  | resetChip => inferInstanceAs (Inhabited ResetChip)
  | spikePack1 => inferInstanceAs (Inhabited (SpikePack 1))
  | spikePack2 => inferInstanceAs (Inhabited (SpikePack 2))
  | spikePack3 => inferInstanceAs (Inhabited (SpikePack 3))
  | commonSynramConfig => inferInstanceAs (Inhabited CommonSynramConfig)
  | synapseQuad => inferInstanceAs (Inhabited SynapseQuad)
  | neuronConfig => inferInstanceAs (Inhabited NeuronConfig)
  | pllClockOutput => inferInstanceAs (Inhabited PllClockOutput)
  | simOnly | readOnly | badCount | crossWord | badDefault | shortRead | longRead =>
    inferInstanceAs (Inhabited PlainRegister)

def leaf : (kind : LeafKind) → Leaf kind.Coord kind.Value
  | timer => Timer.leaf
  | systimeSync => SystimeSync.leaf
  | systimeSyncBase => SystimeSyncBase.leaf
  | resetChip => ResetChip.leaf
  | spikePack1 => SpikePack.leaf 1
  | spikePack2 => SpikePack.leaf 2
  | spikePack3 => SpikePack.leaf 3
  | commonSynramConfig => CommonSynramConfig.leaf
  | synapseQuad => SynapseQuad.leaf
  | neuronConfig => NeuronConfig.leaf
  | pllClockOutput => PllClockOutput.leaf
  | simOnly => PlainRegister.simOnly
  | readOnly => PlainRegister.readOnly
  | badCount => PlainRegister.badCount
  | crossWord => PlainRegister.crossWord
  | badDefault => PlainRegister.badDefault
  | shortRead => PlainRegister.shortRead
  | longRead => PlainRegister.longRead

def all : List LeafKind :=
  [timer, systimeSync, systimeSyncBase, resetChip, spikePack1, spikePack2, spikePack3,
    commonSynramConfig, synapseQuad, neuronConfig, pllClockOutput,
    simOnly, readOnly, badCount, crossWord, badDefault, shortRead, longRead]

def ofName? (name : String) : Option LeafKind :=
  all.find? fun kind => kind.leaf.name == name

end LeafKind

inductive NodeKind where
  | leaf (kind : LeafKind)
  | synapseRow | chip | timerTwice | mixed | hollow
  deriving DecidableEq, Repr

namespace NodeKind

def isRegular : NodeKind → Bool
  | leaf kind => kind.isRegular
  | synapseRow | chip => true
  | timerTwice | mixed | hollow => false

@[reducible] def Coord : NodeKind → Type
  | leaf kind => kind.Coord
  | synapseRow => SynapseRowOnChip
  | chip | timerTwice | mixed | hollow => Unique

@[reducible] def Value : NodeKind → Type
  | leaf kind => kind.Value
  | synapseRow => SynapseRow
  | chip => Chip
  | timerTwice => TimerTwice
  | mixed => Mixed
  | hollow => Hollow

instance coordinate : (kind : NodeKind) → Coordinate kind.Coord
  | leaf kind => kind.coordinate
  | synapseRow => inferInstanceAs (Coordinate SynapseRowOnChip)
  | chip | timerTwice | mixed | hollow => inferInstanceAs (Coordinate Unique)

instance codec : (kind : NodeKind) → Codec kind.Value
  | leaf kind => kind.codec
  | synapseRow => inferInstanceAs (Codec SynapseRow)
  | chip => inferInstanceAs (Codec Chip)
  | timerTwice => inferInstanceAs (Codec TimerTwice)
  | mixed => inferInstanceAs (Codec Mixed)
  | hollow => inferInstanceAs (Codec Hollow)

def node : (kind : NodeKind) → Node kind.Coord kind.Value
  | leaf kind => kind.leaf.node default
  | synapseRow => SynapseRow.node
  | chip => Chip.node
  | timerTwice => TimerTwice.node
  | mixed => Mixed.node
  | hollow => Hollow.node

def all : List NodeKind :=
  LeafKind.all.map leaf ++ [synapseRow, chip, timerTwice, mixed, hollow]

def ofName? (name : String) : Option NodeKind :=
  all.find? fun kind => kind.node.name == name

end NodeKind

end Playback
