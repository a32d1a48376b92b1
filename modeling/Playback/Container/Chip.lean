import Playback.Container.Neuron
import Playback.Container.Synapse
import Playback.Container.Systime

/-! The digital configuration of a whole chip.

The children stand in the order in which the hardware depends on them: the shared timing of the
synapse array gates every access to a synapse and comes first, then the rows, the neurons, and the
base of the system time.
-/

set_option autoImplicit false

namespace Playback

structure Chip where
  commonSynramConfigs : Vector CommonSynramConfig 2
  synapseRows : Vector SynapseRow 4
  neurons : Vector NeuronConfig 8
  systimeSyncBase : SystimeSyncBase
  deriving DecidableEq, Repr, Inhabited

namespace Chip

def synram (synram : SynramOnChip) : Part Chip CommonSynramConfig :=
  .entry commonSynramConfigs (fun commonSynramConfigs chip => { chip with commonSynramConfigs })
    synram.position

def row (row : SynapseRowOnChip) : Part Chip SynapseRow :=
  .entry synapseRows (fun synapseRows chip => { chip with synapseRows }) row.position

def neuron (neuron : NeuronOnChip) : Part Chip NeuronConfig :=
  .entry neurons (fun neurons chip => { chip with neurons }) neuron.position

def base : Part Chip SystimeSyncBase :=
  ⟨systimeSyncBase, fun systimeSyncBase chip => { chip with systimeSyncBase }⟩

def node : Node Unique Chip :=
  .composite "Chip" default fun _ =>
    (Site.all.flatMap fun s => CommonSynramConfig.node.visitsWithin s (synram s))
      ++ (Site.all.flatMap fun r => SynapseRow.node.visitsWithin r (row r))
      ++ (Site.all.flatMap fun n => NeuronConfig.node.visitsWithin n (neuron n))
      ++ SystimeSyncBase.node.visitsWithin ⟨⟩ base

def record : Json.RecordCodec Chip where
  members :=
    [.of "common_synram_configs" commonSynramConfigs fun commonSynramConfigs chip =>
        { chip with commonSynramConfigs },
      .of "synapse_rows" synapseRows fun synapseRows chip => { chip with synapseRows },
      .of "neurons" neurons fun neurons chip => { chip with neurons },
      .of "systime_sync_base" systimeSyncBase fun systimeSyncBase chip =>
        { chip with systimeSyncBase }]
  blank := default
  optional := false

end Chip

instance : Codec Chip := Chip.record.toCodec

end Playback
