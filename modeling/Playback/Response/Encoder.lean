import Playback.Response.Record

/-! Writing a response step by step.

A step appends one record. A pack whose size has no record is refused, and nothing is written.
-/

set_option autoImplicit false

namespace Playback.Response

/-- What can be written; chip times and sample values may be wider than their fields. -/
inductive Step where
  | word (word : Word)
  | timestamp (time : FpgaTime)
  | spikes (entries : List (SpikeLabel × ChipTime))
  -- Channel, value and chip time of every sample.
  | samples (entries : List (UInt8 × UInt16 × ChipTime))
  | halt
  deriving DecidableEq, Repr

namespace Step

def record : Step → Except PackSizeError Record
  | word w => .ok (.word w)
  | timestamp time => .ok (.timestamp time)
  | spikes entries => Record.ofSpikes (entries.map fun (label, time) => .ofSpike label time)
  | samples entries =>
    Record.ofSamples (entries.map fun (channel, value, time) => .ofSample channel value time)
  | halt => .ok .halt

def write (step : Step) (bytes : Bytes) : Except PackSizeError Bytes :=
  step.record.map fun record => bytes ++ Record.wire.write record

/-- The bytes after a step; one that is refused leaves them as they are. -/
def append (bytes : Bytes) (step : Step) : Bytes :=
  match step.write bytes with
  | .ok longer => longer
  | .error _ => bytes

end Step

def written (steps : List Step) : Bytes :=
  steps.foldl Step.append []

end Playback.Response
