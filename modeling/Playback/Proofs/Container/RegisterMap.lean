import Mathlib.Data.List.Nodup
import Playback.Container.Catalogue

/-! The register map: which leaf a register belongs to.

Every leaf publishes its addresses as a function of its place. An address is traced back to the leaf
and to the number of its place, so two places never share a register, without a comparison of any
two leaves.
-/

set_option autoImplicit false

namespace Playback

/-- The regular leaf to which a bus register belongs, and the number of its place. -/
def omnibusOwner (n : Nat) : LeafKind × Nat :=
  if n < 0x00020100 then (.timer, n - 0x00020000)
  else if n < 0x00020110 then (.systimeSync, 0)
  else if n < 0x00020200 then (.systimeSyncBase, 0)
  else if n < 0x00020300 then (.resetChip, 0)
  else if n < 0x00020304 then (.spikePack1, 0)
  else if n < 0x00020308 then (.spikePack2, 0)
  else if n < 0x02000000 then (.spikePack3, 0)
  else if n < 0x02010000 then (.commonSynramConfig, (n - 0x02000000) / 0x10)
  else if n < 0x02020000 then (.synapseQuad, (n - 0x02010000) / 2)
  else (.neuronConfig, n - 0x02020000)

def jtagOwner (n : Nat) : LeafKind × Nat :=
  if n < 0x30 then (.pllClockOutput, n - 0x20)
  else if n < 0x40 then (.systimeSyncBase, 0)
  else (.commonSynramConfig, (n - 0x40) / 4)

namespace Address

def owner : Address → LeafKind × Nat
  | omnibus a => omnibusOwner a.toNat
  | jtag r => jtagOwner r.toNat

theorem owner_omnibus {n : Nat} (small : n < 0x100000000) :
    (ofNat .omnibus n).owner = omnibusOwner n :=
  congrArg omnibusOwner (UInt32.toNat_ofNat_of_lt' small)

theorem owner_jtag {n : Nat} (small : n < 0x10000) : (ofNat .jtag n).owner = jtagOwner n :=
  congrArg jtagOwner (UInt16.toNat_ofNat_of_lt' small)

theorem omnibus_inj {m n : Nat} (first : m < 0x100000000) (second : n < 0x100000000)
    (same : ofNat .omnibus m = ofNat .omnibus n) : m = n := by
  have numbers := congrArg UInt32.toNat (Address.omnibus.inj same)
  rwa [UInt32.toNat_ofNat_of_lt' first, UInt32.toNat_ofNat_of_lt' second] at numbers

theorem jtag_inj {m n : Nat} (first : m < 0x10000) (second : n < 0x10000)
    (same : ofNat .jtag m = ofNat .jtag n) : m = n := by
  have numbers := congrArg UInt16.toNat (Address.jtag.inj same)
  rwa [UInt16.toNat_ofNat_of_lt' first, UInt16.toNat_ofNat_of_lt' second] at numbers

end Address

open Address

theorem Timer.owner_of_mem (timer : TimerOnChip) {address : Address}
    (member : address ∈ addresses timer) : address.owner = (.timer, timer.index) := by
  have := timer.index_lt
  obtain rfl := List.mem_singleton.1 member
  rw [owner_omnibus (by omega), omnibusOwner, if_pos (by omega), Nat.add_sub_cancel_left]

theorem SystimeSyncBase.owner_of_mem {backend : Backend} {address : Address}
    (member : address ∈ addresses backend) :
    address.backend = backend ∧ address.owner = (.systimeSyncBase, 0) := by
  revert address
  cases backend <;> decide

theorem CommonSynramConfig.owner_of_mem (synram : SynramOnChip) {backend : Backend}
    {address : Address} (member : address ∈ addresses synram backend) :
    address.backend = backend ∧ address.owner = (.commonSynramConfig, synram.index) := by
  have := synram.index_lt
  obtain ⟨i, small, rfl⟩ := List.mem_map.1 member
  have := List.mem_range.1 small
  cases backend with
  | omnibus =>
    refine ⟨backend_ofNat .omnibus _, ?_⟩
    rw [owner_omnibus (by omega), omnibusOwner]
    repeat rw [if_neg (by omega)]
    rw [if_pos (by omega)]
    exact congrArg (Prod.mk _) (by omega)
  | jtag =>
    refine ⟨backend_ofNat .jtag _, ?_⟩
    rw [owner_jtag (by omega), jtagOwner, if_neg (by omega), if_neg (by omega)]
    exact congrArg (Prod.mk _) (by omega)

theorem CommonSynramConfig.nodup_addresses (synram : SynramOnChip) (backend : Backend) :
    (addresses synram backend).Nodup := by
  have := synram.index_lt
  refine List.Nodup.map_on (fun i small j bound same => ?_) List.nodup_range
  have := List.mem_range.1 small
  have := List.mem_range.1 bound
  cases backend with
  | omnibus =>
    have := omnibus_inj (by omega) (by omega) same
    omega
  | jtag =>
    have := jtag_inj (by omega) (by omega) same
    omega

theorem SynapseQuad.owner_of_mem (quad : SynapseQuadOnChip) {address : Address}
    (member : address ∈ addresses quad) : address.owner = (.synapseQuad, quad.index) := by
  have : quad.index < 8 := quad.index_lt
  obtain ⟨i, small, rfl⟩ :
      ∃ i < 2, address = .ofNat .omnibus (0x02010000 + 2 * quad.index + i) := by
    simp only [addresses, List.mem_cons, List.not_mem_nil, or_false] at member
    rcases member with rfl | rfl
    · exact ⟨0, by decide, rfl⟩
    · exact ⟨1, by decide, rfl⟩
  rw [owner_omnibus (by omega), omnibusOwner]
  repeat rw [if_neg (by omega)]
  rw [if_pos (by omega)]
  exact congrArg (Prod.mk _) (by omega)

theorem SynapseQuad.nodup_addresses (quad : SynapseQuadOnChip) : (addresses quad).Nodup := by
  have : quad.index < 8 := quad.index_lt
  refine List.nodup_cons.2 ⟨fun member => ?_, List.nodup_singleton _⟩
  have := omnibus_inj (by omega) (by omega) (List.mem_singleton.1 member)
  omega

theorem NeuronConfig.owner_of_mem (neuron : NeuronOnChip) {address : Address}
    (member : address ∈ addresses neuron) : address.owner = (.neuronConfig, neuron.index) := by
  have := neuron.index_lt
  obtain rfl := List.mem_singleton.1 member
  rw [owner_omnibus (by omega), omnibusOwner]
  repeat rw [if_neg (by omega)]
  exact congrArg (Prod.mk _) (by omega)

theorem PllClockOutput.owner_of_mem (adpll : AdpllOnChip) {address : Address}
    (member : address ∈ addresses adpll) : address.owner = (.pllClockOutput, adpll.index) := by
  have := adpll.index_lt
  obtain rfl := List.mem_singleton.1 member
  rw [owner_jtag (by omega), jtagOwner, if_pos (by omega)]
  exact congrArg (Prod.mk _) (by omega)

namespace LeafKind

theorem owner_of_mem {kind : LeafKind} (regular : kind.isRegular = true) (coord : kind.Coord)
    {backend : Backend} {address : Address}
    (member : address ∈ kind.leaf.writeAddresses coord backend) :
    address.owner = (kind, Coordinate.index coord) := by
  cases kind with
  | timer => exact Timer.owner_of_mem coord member
  | systimeSyncBase => exact (SystimeSyncBase.owner_of_mem member).2
  | commonSynramConfig => exact (CommonSynramConfig.owner_of_mem coord member).2
  | synapseQuad => exact SynapseQuad.owner_of_mem coord member
  | neuronConfig => exact NeuronConfig.owner_of_mem coord member
  | pllClockOutput => exact PllClockOutput.owner_of_mem coord member
  | systimeSync | resetChip =>
    obtain rfl := List.mem_singleton.1 member
    rfl
  | spikePack1 =>
    have all : ∀ address ∈ SpikePack.addresses 1, address.owner = (.spikePack1, 0) := by decide
    exact all address member
  | spikePack2 =>
    have all : ∀ address ∈ SpikePack.addresses 2, address.owner = (.spikePack2, 0) := by decide
    exact all address member
  | spikePack3 =>
    have all : ∀ address ∈ SpikePack.addresses 3, address.owner = (.spikePack3, 0) := by decide
    exact all address member
  | simOnly | readOnly | badCount | crossWord | badDefault | shortRead | longRead => cases regular

theorem backend_of_mem {kind : LeafKind} (regular : kind.isRegular = true) (coord : kind.Coord)
    {backend : Backend} (supported : backend ∈ kind.leaf.supported) {address : Address}
    (member : address ∈ kind.leaf.writeAddresses coord backend) : address.backend = backend := by
  cases kind with
  | systimeSyncBase => exact (SystimeSyncBase.owner_of_mem member).1
  | commonSynramConfig => exact (CommonSynramConfig.owner_of_mem coord member).1
  | synapseQuad =>
    obtain rfl := List.mem_singleton.1 supported
    simp only [leaf, SynapseQuad.leaf, SynapseQuad.addresses, List.mem_cons, List.not_mem_nil,
      or_false] at member
    rcases member with rfl | rfl <;> rfl
  | spikePack1 | spikePack2 | spikePack3 =>
    obtain rfl := List.mem_singleton.1 supported
    obtain ⟨i, -, rfl⟩ := List.mem_map.1 member
    rfl
  | simOnly | readOnly | badCount | crossWord | badDefault | shortRead | longRead => cases regular
  | _ =>
    obtain rfl := List.mem_singleton.1 supported
    obtain rfl := List.mem_singleton.1 member
    rfl

theorem index_inj {kind : LeafKind} {a b : kind.Coord}
    (same : Coordinate.index a = Coordinate.index b) : a = b := by
  cases kind with
  | timer | commonSynramConfig | neuronConfig | pllClockOutput => exact Site.index_inj.1 same
  | synapseQuad => exact SynapseQuadOnChip.index_inj.1 same
  | _ => rfl

theorem nodup_writeAddresses {kind : LeafKind} (regular : kind.isRegular = true)
    (coord : kind.Coord) (backend : Backend) :
    (kind.leaf.writeAddresses coord backend).Nodup := by
  cases kind with
  | systimeSyncBase =>
    have both : ∀ backend ∈ Backend.all, (SystimeSyncBase.addresses backend).Nodup := by decide
    exact both backend backend.mem_all
  | spikePack1 => exact (by decide : (SpikePack.addresses 1).Nodup)
  | spikePack2 => exact (by decide : (SpikePack.addresses 2).Nodup)
  | spikePack3 => exact (by decide : (SpikePack.addresses 3).Nodup)
  | commonSynramConfig => exact CommonSynramConfig.nodup_addresses coord backend
  | synapseQuad => exact SynapseQuad.nodup_addresses coord
  | simOnly | readOnly | badCount | crossWord | badDefault | shortRead | longRead => cases regular
  | _ => exact List.nodup_singleton _

theorem owner_of_irregular {kind : LeafKind} (irregular : kind.isRegular = false)
    (coord : kind.Coord) (backend : Backend) :
    ∀ address ∈ kind.leaf.writeAddresses coord backend, address.owner.1 ≠ .timer := by
  cases kind with
  | simOnly | readOnly | badCount | crossWord | badDefault | shortRead | longRead =>
    cases coord
    cases backend <;> decide
  | _ => cases irregular

theorem not_mem_timer {kind : LeafKind} (other : kind ≠ .timer) (coord : kind.Coord)
    {backend : Backend} {address : Address}
    (member : address ∈ kind.leaf.writeAddresses coord backend) (timer : TimerOnChip) :
    address ∉ Timer.addresses timer := by
  intro also
  have mine := Timer.owner_of_mem timer also
  cases regular : kind.isRegular with
  | true =>
    have owned := owner_of_mem regular coord member
    exact other (Prod.mk.inj (owned.symm.trans mine)).1
  | false =>
    exact owner_of_irregular regular coord backend address member (congrArg Prod.fst mine)

theorem timerReset_eq_none {kind : LeafKind} (other : kind ≠ .timer) (value : kind.Value)
    (coord : kind.Coord) : kind.leaf.timerReset value coord = none := by
  cases kind with
  | timer => exact absurd rfl other
  | _ => rfl

theorem length_encode {kind : LeafKind} (regular : kind ≠ .badCount) (coord : kind.Coord)
    (value : kind.Value) (backend : Backend) :
    (kind.leaf.writeAddresses coord backend).length = (kind.leaf.encode value backend).length := by
  cases kind with
  | badCount => exact absurd rfl regular
  | spikePack1 | spikePack2 | spikePack3 =>
    simp [leaf, SpikePack.leaf, SpikePack.addresses, wordsOf]
  | systimeSyncBase => cases backend <;> rfl
  | _ => rfl

end LeafKind

end Playback
