import Playback.Container.Tree

/-! The synapse array: the timing that the synapses of one half share, quads of synapses, and rows
of quads. The shared timing has to be written before any synapse that uses it. -/

set_option autoImplicit false

namespace Playback

abbrev PrechargeConfig := Field "PrechargeConfig" 8 0 15

abbrev WaitCounterClear := Field "WaitCounterClear" 8 0 7

abbrev SynapseWeight := Field "SynapseWeight" 8 0 63

abbrev SynapseAddress := Field "SynapseAddress" 8 0 63

abbrev SynapseCalib := Field "SynapseCalib" 8 0 3

structure CommonSynramConfig where
  pcConfWest : PrechargeConfig
  pcConfEast : PrechargeConfig
  wConfWest : UInt8
  wConfEast : UInt8
  waitCtrClear : WaitCounterClear
  deriving DecidableEq, Repr

namespace CommonSynramConfig

instance : Inhabited CommonSynramConfig :=
  ⟨⟨Field.saturate 8, Field.saturate 8, 3, 3, Field.saturate 4⟩⟩

def addresses (synram : SynramOnChip) (backend : Backend) : List Address :=
  (List.range 3).map fun i =>
    match backend with
    | .omnibus => .ofNat .omnibus (0x02000000 + 0x10 * synram.index + i)
    | .jtag => .ofNat .jtag (0x40 + 4 * synram.index + i)

def pack (config : CommonSynramConfig) : List Nat :=
  [config.pcConfWest.value + config.pcConfEast.value <<< 4,
    config.wConfWest.toNat + config.wConfEast.toNat <<< 8,
    config.waitCtrClear.value]

def unpack (raw : Vector Nat 3) : Except DecodeError CommonSynramConfig := do
  let pcConfWest ← checked "CommonSynramConfig" (Field.ofNat (bits raw[0] 0 4))
  let pcConfEast ← checked "CommonSynramConfig" (Field.ofNat (bits raw[0] 4 4))
  let waitCtrClear ← checked "CommonSynramConfig" (Field.ofNat (bits raw[2] 0 3))
  return {
    pcConfWest
    pcConfEast
    wConfWest := UInt8.ofNat (bits raw[1] 0 8)
    wConfEast := UInt8.ofNat (bits raw[1] 8 8)
    waitCtrClear }

def leaf : Leaf SynramOnChip CommonSynramConfig where
  name := "CommonSynramConfig"
  supported := [.omnibus, .jtag]
  defaultBackend := .omnibus
  writeWords := 3
  readWords := 3
  writeAddresses := addresses
  readAddresses := addresses
  encode config backend := wordsOf backend config.pack
  decode backend words _ := do
    unpack (← rawWords "CommonSynramConfig" 3 backend words)

def node : Node SynramOnChip CommonSynramConfig := leaf.node default

def record : Json.RecordCodec CommonSynramConfig where
  members :=
    [.of "pc_conf_west" pcConfWest fun pcConfWest config => { config with pcConfWest },
      .of "pc_conf_east" pcConfEast fun pcConfEast config => { config with pcConfEast },
      .of "w_conf_west" wConfWest fun wConfWest config => { config with wConfWest },
      .of "w_conf_east" wConfEast fun wConfEast config => { config with wConfEast },
      .of "wait_ctr_clear" waitCtrClear fun waitCtrClear config => { config with waitCtrClear }]
  blank := default
  optional := false

end CommonSynramConfig

instance : Codec CommonSynramConfig := CommonSynramConfig.record.toCodec

/-- One synapse; it takes 16 bits. -/
structure Synapse where
  weight : SynapseWeight
  address : SynapseAddress
  timeCalib : SynapseCalib
  ampCalib : SynapseCalib
  deriving DecidableEq, Repr

namespace Synapse

instance : Inhabited Synapse := ⟨⟨Field.lowest, Field.lowest, Field.lowest, Field.lowest⟩⟩

def pack (synapse : Synapse) : Nat :=
  synapse.weight.value + synapse.address.value <<< 6 + synapse.timeCalib.value <<< 12
    + synapse.ampCalib.value <<< 14

def unpack (raw : Nat) : Except DecodeError Synapse := do
  let weight ← checked "SynapseQuad" (Field.ofNat (bits raw 0 6))
  let address ← checked "SynapseQuad" (Field.ofNat (bits raw 6 6))
  let timeCalib ← checked "SynapseQuad" (Field.ofNat (bits raw 12 2))
  let ampCalib ← checked "SynapseQuad" (Field.ofNat (bits raw 14 2))
  return { weight, address, timeCalib, ampCalib }

def record : Json.RecordCodec Synapse where
  members :=
    [.of "weight" weight fun weight synapse => { synapse with weight },
      .of "address" address fun address synapse => { synapse with address },
      .of "time_calib" timeCalib fun timeCalib synapse => { synapse with timeCalib },
      .of "amp_calib" ampCalib fun ampCalib synapse => { synapse with ampCalib }]
  blank := default
  optional := false

end Synapse

instance : Codec Synapse := Synapse.record.toCodec

/-- Four adjacent synapses in two bus words. -/
structure SynapseQuad where
  synapses : Vector Synapse 4
  deriving DecidableEq, Repr, Inhabited

namespace SynapseQuad

def addresses (quad : SynapseQuadOnChip) : List Address :=
  [.ofNat .omnibus (0x02010000 + 2 * quad.index), .ofNat .omnibus (0x02010000 + 2 * quad.index + 1)]

def pack (quad : SynapseQuad) : List Nat :=
  [quad.synapses[0].pack + quad.synapses[1].pack <<< 16,
    quad.synapses[2].pack + quad.synapses[3].pack <<< 16]

def unpack (raw : Vector Nat 2) : Except DecodeError SynapseQuad := do
  let first ← Synapse.unpack (bits raw[0] 0 16)
  let second ← Synapse.unpack (bits raw[0] 16 16)
  let third ← Synapse.unpack (bits raw[1] 0 16)
  let fourth ← Synapse.unpack (bits raw[1] 16 16)
  return ⟨#v[first, second, third, fourth]⟩

def leaf : Leaf SynapseQuadOnChip SynapseQuad where
  name := "SynapseQuad"
  supported := [.omnibus]
  defaultBackend := .omnibus
  writeWords := 2
  readWords := 2
  writeAddresses quad _ := addresses quad
  readAddresses quad _ := addresses quad
  encode quad backend := wordsOf backend quad.pack
  decode backend words _ := do
    unpack (← rawWords "SynapseQuad" 2 backend words)

def node : Node SynapseQuadOnChip SynapseQuad := leaf.node default

def record : Json.RecordCodec SynapseQuad where
  members := [.of "synapses" synapses fun synapses _ => ⟨synapses⟩]
  blank := default
  optional := false

end SynapseQuad

instance : Codec SynapseQuad := SynapseQuad.record.toCodec

structure SynapseRow where
  quads : Vector SynapseQuad 2
  deriving DecidableEq, Repr, Inhabited

namespace SynapseRow

def quad (column : SynapseQuadColumn) : Part SynapseRow SynapseQuad :=
  .entry quads (fun quads row => { row with quads }) column.position

def node : Node SynapseRowOnChip SynapseRow :=
  .composite "SynapseRow" default fun row =>
    Site.all.flatMap fun column => SynapseQuad.node.visitsWithin ⟨row, column⟩ (quad column)

def record : Json.RecordCodec SynapseRow where
  members := [.of "quads" quads fun quads _ => ⟨quads⟩]
  blank := default
  optional := false

end SynapseRow

instance : Codec SynapseRow := SynapseRow.record.toCodec

end Playback
