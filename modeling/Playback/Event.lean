import Playback.Bytes
import Playback.Json.Codec
import Playback.Text.Numeral

/-! Events that a chip sends on its own, and their fixed rows for bit-exact export.

A row has 24 bytes: the event's own fields padded to eight, then both times, every field with its
least significant byte first.
-/

set_option autoImplicit false

namespace Playback

abbrev SpikeLabel := UInt16

namespace SpikeLabel

/-- The neuron's address: the low 14 bits. -/
def neuron (label : SpikeLabel) : Nat :=
  label.toNat % 0x4000

/-- The synapse driver's output: the high two bits. -/
def crossbarOutput (label : SpikeLabel) : Nat :=
  label.toNat / 0x4000

def text (label : SpikeLabel) : String :=
  Numeral.hex 4 label.toNat

/-- `count` labels, scattered over the label space; up to 65536 of them are distinct, because the
factor is odd. -/
def scattered (count : Nat) : List SpikeLabel :=
  (List.range count).map fun i => UInt16.ofNat (i * 40503)

end SpikeLabel

/-- Board clock cycles since the system times were synchronised. -/
abbrev FpgaTime := UInt64

abbrev ChipTime := UInt64

structure Spike where
  label : SpikeLabel
  fpgaTime : FpgaTime
  chipTime : ChipTime
  deriving DecidableEq, Repr, Inhabited

namespace Spike

def text (spike : Spike) : String :=
  s!"SpikeFromChip(label: {spike.label.text}"
    ++ s!", fpga_time: {spike.fpgaTime.toNat}, chip_time: {spike.chipTime.toNat})"

def row (spike : Spike) : Bytes :=
  Bytes.little 2 spike.label.toNat ++ List.replicate 6 0
    ++ Bytes.little 8 spike.fpgaTime.toNat ++ Bytes.little 8 spike.chipTime.toNat

def record : Json.RecordCodec Spike where
  members :=
    [.of "label" label fun label spike => { spike with label },
      .of "fpga_time" fpgaTime fun fpgaTime spike => { spike with fpgaTime },
      .of "chip_time" chipTime fun chipTime spike => { spike with chipTime }]
  blank := default
  optional := false

end Spike

instance : Codec Spike := Spike.record.toCodec

/-- One analog sample. Ten bits of the value are significant. -/
structure MadcSample where
  channel : UInt8
  value : UInt16
  fpgaTime : FpgaTime
  chipTime : ChipTime
  deriving DecidableEq, Repr, Inhabited

namespace MadcSample

def valueCount : Nat := 1024

def text (sample : MadcSample) : String :=
  s!"MadcSampleFromChip(channel: {sample.channel.toNat}, value: {sample.value.toNat}"
    ++ s!", fpga_time: {sample.fpgaTime.toNat}, chip_time: {sample.chipTime.toNat})"

def row (sample : MadcSample) : Bytes :=
  Bytes.little 2 sample.value.toNat ++ sample.channel :: List.replicate 5 0
    ++ Bytes.little 8 sample.fpgaTime.toNat ++ Bytes.little 8 sample.chipTime.toNat

def record : Json.RecordCodec MadcSample where
  members :=
    [.of "channel" channel fun channel sample => { sample with channel },
      .of "value" value fun value sample => { sample with value },
      .of "fpga_time" fpgaTime fun fpgaTime sample => { sample with fpgaTime },
      .of "chip_time" chipTime fun chipTime sample => { sample with chipTime }]
  blank := default
  optional := false

end MadcSample

instance : Codec MadcSample := MadcSample.record.toCodec

end Playback
