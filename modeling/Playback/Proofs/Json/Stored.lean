import Playback.Container.Chip
import Playback.Container.Pll
import Playback.Container.Reset
import Playback.Container.Timer
import Playback.Event
import Playback.Proofs.Json.Variants
import Playback.Proofs.Settings.Documents

/-! The stored types: what is written of a value comes back, and nothing that is read has a number
out of its bounds. -/

set_option autoImplicit false

namespace Playback

open Json (Shape)
open Shaped (shape)

instance : ExactCodec PrechargeConfig := Json.exactCodec_field (by decide)
instance : ExactCodec WaitCounterClear := Json.exactCodec_field (by decide)
instance : ExactCodec SynapseWeight := Json.exactCodec_field (by decide)
instance : ExactCodec SynapseAddress := Json.exactCodec_field (by decide)
instance : ExactCodec SynapseCalib := Json.exactCodec_field (by decide)
instance : ExactCodec PllDivider := Json.exactCodec_field (by decide)
instance : ExactCodec NeuronThreshold := Json.exactCodec_field (by decide)
instance : ExactCodec SystimeCount := Json.exactCodec_field (by decide)

instance : ExactCodec Unique where
  decode_encode _ := rfl
  plain _ := .null
  eq_encode {json _} read := by
    cases json with
    | null => rfl
    | _ => cases read

theorem SynapseQuadOnChip.lawful : record.Lawful where
  names := by decide
  members := by simp [record]
  apart := by simp [record]
  ext := by
    rintro ⟨⟩ ⟨⟩
    simp [record, Json.Member.of]

instance : DocumentCodec SynapseQuadOnChip := SynapseQuadOnChip.lawful.documentCodec

instance : Shaped SynapseQuadOnChip :=
  SynapseQuadOnChip.lawful.shaped
    [shape SynapseRowOnChip, shape SynapseQuadColumn]
    (by simp [SynapseQuadOnChip.record])

theorem Spike.lawful : record.Lawful where
  names := by decide
  members := by simp [record]
  apart := by simp [record]
  ext := by
    rintro ⟨⟩ ⟨⟩
    simp [record, Json.Member.of]

instance : DocumentCodec Spike := Spike.lawful.documentCodec

instance : Shaped Spike :=
  Spike.lawful.shaped [shape SpikeLabel, shape FpgaTime, shape ChipTime] (by simp [Spike.record])

theorem MadcSample.lawful : record.Lawful where
  names := by decide
  members := by simp [record]
  apart := by simp [record]
  ext := by
    rintro ⟨⟩ ⟨⟩
    simp [record, Json.Member.of]

instance : DocumentCodec MadcSample := MadcSample.lawful.documentCodec

instance : Shaped MadcSample :=
  MadcSample.lawful.shaped
    [shape UInt8, shape UInt16, shape FpgaTime, shape ChipTime]
    (by simp [MadcSample.record])

theorem Timer.lawful : record.Lawful where
  names := by decide
  members := by simp [record]
  apart := by simp [record]
  ext := by
    rintro ⟨⟩ ⟨⟩
    simp [record, Json.Member.of]

instance : DocumentCodec Timer := Timer.lawful.documentCodec

instance : Shaped Timer :=
  Timer.lawful.shaped [shape UInt32] (by simp [Timer.record])

theorem ResetChip.lawful : record.Lawful where
  names := by decide
  members := by simp [record]
  apart := by simp [record]
  ext := by
    rintro ⟨⟩ ⟨⟩
    simp [record, Json.Member.of]

instance : DocumentCodec ResetChip := ResetChip.lawful.documentCodec

instance : Shaped ResetChip :=
  ResetChip.lawful.shaped [shape Bool] (by simp [ResetChip.record])

theorem SystimeSync.lawful : record.Lawful where
  names := by decide
  members := by simp [record]
  apart := by simp [record]
  ext := by
    rintro ⟨⟩ ⟨⟩
    simp [record, Json.Member.of]

instance : DocumentCodec SystimeSync := SystimeSync.lawful.documentCodec

instance : Shaped SystimeSync :=
  SystimeSync.lawful.shaped [shape Bool] (by simp [SystimeSync.record])

theorem SystimeSyncBase.lawful : record.Lawful where
  names := by decide
  members := by simp [record]
  apart := by simp [record]
  ext := by
    rintro ⟨⟩ ⟨⟩
    simp [record, Json.Member.of]

instance : DocumentCodec SystimeSyncBase := SystimeSyncBase.lawful.documentCodec

instance : Shaped SystimeSyncBase :=
  SystimeSyncBase.lawful.shaped [shape SystimeCount] (by simp [SystimeSyncBase.record])

theorem CommonSynramConfig.lawful : record.Lawful where
  names := by decide
  members := by simp [record]
  apart := by simp [record]
  ext := by
    rintro ⟨⟩ ⟨⟩
    simp [record, Json.Member.of]

instance : DocumentCodec CommonSynramConfig := CommonSynramConfig.lawful.documentCodec

instance : Shaped CommonSynramConfig :=
  CommonSynramConfig.lawful.shaped
    [shape PrechargeConfig, shape PrechargeConfig, shape UInt8, shape UInt8,
      shape WaitCounterClear]
    (by simp [CommonSynramConfig.record])

theorem Synapse.lawful : record.Lawful where
  names := by decide
  members := by simp [record]
  apart := by simp [record]
  ext := by
    rintro ⟨⟩ ⟨⟩
    simp [record, Json.Member.of]

instance : DocumentCodec Synapse := Synapse.lawful.documentCodec

instance : Shaped Synapse :=
  Synapse.lawful.shaped
    [shape SynapseWeight, shape SynapseAddress, shape SynapseCalib, shape SynapseCalib]
    (by simp [Synapse.record])

theorem SynapseQuad.lawful : record.Lawful where
  names := by decide
  members := by simp [record]
  apart := by simp [record]
  ext := by
    rintro ⟨⟩ ⟨⟩
    simp [record, Json.Member.of]

instance : DocumentCodec SynapseQuad := SynapseQuad.lawful.documentCodec

instance : Shaped SynapseQuad :=
  SynapseQuad.lawful.shaped [shape (Vector Synapse 4)] (by simp [SynapseQuad.record])

theorem SynapseRow.lawful : record.Lawful where
  names := by decide
  members := by simp [record]
  apart := by simp [record]
  ext := by
    rintro ⟨⟩ ⟨⟩
    simp [record, Json.Member.of]

instance : DocumentCodec SynapseRow := SynapseRow.lawful.documentCodec

instance : Shaped SynapseRow :=
  SynapseRow.lawful.shaped [shape (Vector SynapseQuad 2)] (by simp [SynapseRow.record])

theorem NeuronConfig.lawful : record.Lawful where
  names := by decide
  members := by simp [record]
  apart := by simp [record]
  ext := by
    rintro ⟨⟩ ⟨⟩
    simp [record, Json.Member.of]

instance : DocumentCodec NeuronConfig := NeuronConfig.lawful.documentCodec

instance : Shaped NeuronConfig :=
  NeuronConfig.lawful.shaped
    [shape Bool, shape NeuronThreshold, shape UInt8, shape Bool]
    (by simp [NeuronConfig.record])

theorem PllClockOutput.lawful : record.Lawful where
  names := by decide
  members := by simp [record]
  apart := by simp [record]
  ext := by
    rintro ⟨⟩ ⟨⟩
    simp [record, Json.Member.of]

instance : DocumentCodec PllClockOutput := PllClockOutput.lawful.documentCodec

instance : Shaped PllClockOutput :=
  PllClockOutput.lawful.shaped
    [shape Bool, shape Bool, shape PllDivider]
    (by simp [PllClockOutput.record])

theorem Chip.lawful : record.Lawful where
  names := by decide
  members := by simp [record]
  apart := by simp [record]
  ext := by
    rintro ⟨⟩ ⟨⟩
    simp [record, Json.Member.of]

instance : DocumentCodec Chip := Chip.lawful.documentCodec

instance : Shaped Chip :=
  Chip.lawful.shaped
    [shape (Vector CommonSynramConfig 2), shape (Vector SynapseRow 4),
      shape (Vector NeuronConfig 8), shape SystimeSyncBase]
    (by simp [Chip.record])

instance : Shaped ExceptionPolicy :=
  ExceptionPolicy.lawful.shaped [shape Bool] (by simp [ExceptionPolicy.record])

instance : Shaped Settings :=
  Settings.lawful.shaped
    [shape UInt64, shape UInt64, shape UInt64, shape (Option UInt64), shape Bool, shape UInt32,
      shape UInt64, shape ExceptionPolicy]
    (by simp [Settings.record])

/-! ### Every stored type -/

structure Form where
  Value : Type
  [codec : Codec Value]
  [document : DocumentCodec Value]
  [shaped : Shaped Value]

namespace Form

instance (form : Form) : Codec form.Value := form.codec

def shape (form : Form) : Shape :=
  form.shaped.shape

end Form

inductive StoredKind where
  | backend | executorKind
  | omnibusAddress | omnibusWord | jtagAddress | jtagWord | address | word
  | writeAccess | instruction | barrier | timerValue
  | unique | timerOnChip | synramOnChip | neuronOnChip | synapseRowOnChip | synapseQuadColumn
  | adpllOnChip | synapseQuadOnChip
  | prechargeConfig | waitCounterClear | synapseWeight | synapseAddress | synapseCalib
  | pllDivider | neuronThreshold | systimeCount
  | spikeLabel | madcChannel | fpgaTime | chipTime | spike | madcSample
  | timer | resetChip | systimeSync | systimeSyncBase | commonSynramConfig | synapse
  | synapseQuad | synapseRow | neuronConfig | pllClockOutput | chip
  | exceptionPolicy | settings
  deriving DecidableEq, Repr

namespace StoredKind

def form : StoredKind → Form
  | backend => ⟨Backend⟩
  | executorKind => ⟨ExecutorKind⟩
  | omnibusAddress | omnibusWord | timerValue => ⟨UInt32⟩
  | jtagAddress | spikeLabel => ⟨UInt16⟩
  | jtagWord | fpgaTime | chipTime => ⟨UInt64⟩
  | madcChannel => ⟨UInt8⟩
  | address => ⟨Address⟩
  | word => ⟨Word⟩
  | writeAccess => ⟨WriteAccess⟩
  | instruction => ⟨Instruction⟩
  | barrier => ⟨Barrier⟩
  | unique => ⟨Unique⟩
  | timerOnChip => ⟨TimerOnChip⟩
  | synramOnChip => ⟨SynramOnChip⟩
  | neuronOnChip => ⟨NeuronOnChip⟩
  | synapseRowOnChip => ⟨SynapseRowOnChip⟩
  | synapseQuadColumn => ⟨SynapseQuadColumn⟩
  | adpllOnChip => ⟨AdpllOnChip⟩
  | synapseQuadOnChip => ⟨SynapseQuadOnChip⟩
  | prechargeConfig => ⟨PrechargeConfig⟩
  | waitCounterClear => ⟨WaitCounterClear⟩
  | synapseWeight => ⟨SynapseWeight⟩
  | synapseAddress => ⟨SynapseAddress⟩
  | synapseCalib => ⟨SynapseCalib⟩
  | pllDivider => ⟨PllDivider⟩
  | neuronThreshold => ⟨NeuronThreshold⟩
  | systimeCount => ⟨SystimeCount⟩
  | spike => ⟨Spike⟩
  | madcSample => ⟨MadcSample⟩
  | timer => ⟨Timer⟩
  | resetChip => ⟨ResetChip⟩
  | systimeSync => ⟨SystimeSync⟩
  | systimeSyncBase => ⟨SystimeSyncBase⟩
  | commonSynramConfig => ⟨CommonSynramConfig⟩
  | synapse => ⟨Synapse⟩
  | synapseQuad => ⟨SynapseQuad⟩
  | synapseRow => ⟨SynapseRow⟩
  | neuronConfig => ⟨NeuronConfig⟩
  | pllClockOutput => ⟨PllClockOutput⟩
  | chip => ⟨Chip⟩
  | exceptionPolicy => ⟨ExceptionPolicy⟩
  | settings => ⟨Settings⟩

end StoredKind

/-- Numbers that are no integer between these bounds. -/
def Json.Outside (lo hi : Nat) : Json → Prop
  | .integer n => n < lo ∨ hi < n
  | .decimal _ => True
  | _ => False

theorem Json.Shape.exists_error {α : Type} {shape : Shape} {read : Json → Except Fault α}
    (bounds : shape.Bounds read) {lo hi : Nat} {fill : Json → Json} (hole : shape.Hole lo hi fill)
    {moved : Json} (outside : moved.Outside lo hi) : ∃ fault, read (fill moved) = .error fault := by
  have given : moved ≠ .null := by
    rintro rfl
    exact outside
  cases found : read (fill moved) with
  | error fault => exact ⟨fault, rfl⟩
  | ok a =>
    obtain ⟨n, above, below, rfl⟩ := bounds hole given found
    have out : (n : Int) < lo ∨ (hi : Int) < n := outside
    omega

-- Values come back from what is written of them. What is read has all its numbers in bounds, where
-- it is written again as well as where it stood; and it is not read any more with one of them moved
-- out of its bounds.
theorem StoredKind.values_kept (kind : StoredKind) :
    (∀ v : kind.form.Value,
      Codec.decode (Codec.encode v) = .ok v ∧
        Json.parse? (Json.compact (Codec.encode v)) = some (Codec.encode v) ∧
        Json.parse? (Json.pretty (Codec.encode v)) = some (Codec.encode v)) ∧
      (∀ (json : Json) (v : kind.form.Value), Codec.decode json = .ok v →
        kind.form.shape.Fits (Codec.encode v) ∧
          Codec.decode (Codec.encode v) = .ok v ∧
          ∀ (lo hi : Nat) (fill : Json → Json) (part : Json), kind.form.shape.Hole lo hi fill →
            json = fill part → part ≠ .null → ∃ n, lo ≤ n ∧ n ≤ hi ∧ part = .ofNat n) ∧
      ∀ (lo hi : Nat) (fill : Json → Json), kind.form.shape.Hole lo hi fill →
        ∀ (part moved : Json) (v : kind.form.Value), Codec.decode (fill part) = .ok v →
          moved.Outside lo hi → ∃ fault,
            (Codec.decode (fill moved) : Except Json.Fault kind.form.Value) = .error fault := by
  have document := kind.form.document
  have bounds := kind.form.shaped.bounds
  have back (v : kind.form.Value) : Codec.decode (Codec.encode v) = .ok v :=
    document.decode_encode v
  refine ⟨fun v => ⟨back v, ?_, ?_⟩, fun json v read => ⟨kind.form.shaped.fits v, back v, ?_⟩,
    fun lo hi fill hole part moved v _ outside => ?_⟩
  · exact Json.parse?_compact (document.plain v)
  · exact Json.parse?_pretty (document.plain v)
  · rintro lo hi fill part hole rfl given
    exact bounds hole given read
  · exact Json.Shape.exists_error bounds hole outside

-- A quad whose column is moved to the first number past the last one.
theorem StoredKind.column_moved : ∃ fault,
    (Codec.decode (.record [("row", .integer 3), ("column", .integer 2)]) :
      Except Json.Fault SynapseQuadOnChip) = .error fault :=
  (values_kept .synapseQuadOnChip).2.2 0 1
    (fun json =>
      .object ([(Bytes.ofText "row", Json.integer 3)] ++ (Bytes.ofText "column", json) :: []))
    (.member _ _ (.tail _ (.head _)) .here) (.integer 1) (.integer 2) ⟨⟨3⟩, ⟨1⟩⟩ rfl
    (.inr (by decide))

end Playback
