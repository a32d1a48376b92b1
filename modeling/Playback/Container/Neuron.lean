import Playback.Container.Tree

/-! The digital configuration of one neuron. -/

set_option autoImplicit false

namespace Playback

abbrev NeuronThreshold := Field "NeuronThreshold" 16 0 1023

structure NeuronConfig where
  enableFire : Bool
  threshold : NeuronThreshold
  refractoryTime : UInt8
  /-- Whether input spikes are passed on directly. -/
  enableBypass : Bool
  deriving DecidableEq, Repr

namespace NeuronConfig

instance : Inhabited NeuronConfig := ⟨⟨false, Field.lowest, 0, false⟩⟩

def addresses (neuron : NeuronOnChip) : List Address :=
  [.ofNat .omnibus (0x02020000 + neuron.index)]

/-- The register: bit 0, bits 1 to 10, bits 11 to 18 and bit 19. -/
def pack (config : NeuronConfig) : Nat :=
  config.enableFire.toNat + config.threshold.value <<< 1 + config.refractoryTime.toNat <<< 11
    + config.enableBypass.toNat <<< 19

/-- The configuration in a register whose reserved bits are clear. -/
def unpack (raw : Nat) : Except DecodeError NeuronConfig :=
  if raw >>> 20 ≠ 0 then
    .error (.invalidValue "NeuronConfig" s!"reserved bits set in {Numeral.hex 0 raw}")
  else do
    let threshold ← checked "NeuronConfig" (Field.ofNat (bits raw 1 10))
    return {
      enableFire := bit raw 0
      threshold
      refractoryTime := UInt8.ofNat (bits raw 11 8)
      enableBypass := bit raw 19 }

def leaf : Leaf NeuronOnChip NeuronConfig where
  name := "NeuronConfig"
  supported := [.omnibus]
  defaultBackend := .omnibus
  writeWords := 1
  readWords := 1
  writeAddresses neuron _ := addresses neuron
  readAddresses neuron _ := addresses neuron
  encode config backend := wordsOf backend [config.pack]
  decode backend words _ := do
    unpack (← rawWord "NeuronConfig" backend words)

def node : Node NeuronOnChip NeuronConfig := leaf.node default

def record : Json.RecordCodec NeuronConfig where
  members :=
    [.of "enable_fire" enableFire fun enableFire config => { config with enableFire },
      .of "threshold" threshold fun threshold config => { config with threshold },
      .of "refractory_time" refractoryTime
        fun refractoryTime config => { config with refractoryTime },
      .of "enable_bypass" enableBypass fun enableBypass config => { config with enableBypass }]
  blank := default
  optional := false

end NeuronConfig

instance : Codec NeuronConfig := NeuronConfig.record.toCodec

end Playback
