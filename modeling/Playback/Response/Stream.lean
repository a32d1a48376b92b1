import Playback.Response.Record

/-! What a response says: words in order, events in order, and the number of packs of each size.

A timestamp holds for everything up to the next one. Before the first, words have no time and the
time of events is zero.
-/

set_option autoImplicit false

namespace Playback

structure ResponseWord where
  word : Word
  fpgaTime : Option FpgaTime
  deriving DecidableEq, Repr

/-- Events in order of arrival, and how they arrived. -/
structure Events where
  spikes : List Spike := []
  samples : List MadcSample := []
  /-- Packs of one, two and three spikes. -/
  spikePacks : Vector Nat 3 := .replicate 3 0
  samplePacks : Vector Nat 2 := .replicate 2 0
  deriving DecidableEq, Repr

structure Response where
  words : List ResponseWord := []
  events : Events := {}
  deriving DecidableEq, Repr

namespace Events

def counted {n : Nat} (size : Fin n) (counts : Vector Nat n) : Vector Nat n :=
  Vector.ofFn fun i => if i = size then counts.get i + 1 else counts.get i

def consSpikes (now : FpgaTime) (pack : Pack Response.SpikeEntry 3) (later : Events) : Events :=
  { later with
    spikes := pack.entries.map (fun entry =>
        { label := entry.label, fpgaTime := now, chipTime := entry.chipTime.toUInt64 })
      ++ later.spikes
    spikePacks := counted pack.sizeIndex later.spikePacks }

def consSamples (now : FpgaTime) (pack : Pack Response.SampleEntry 2) (later : Events) : Events :=
  { later with
    samples := pack.entries.map (fun entry =>
        { channel := entry.channel
          value := UInt16.ofNat entry.value
          fpgaTime := now
          chipTime := entry.chipTime.toUInt64 })
      ++ later.samples
    samplePacks := counted pack.sizeIndex later.samplePacks }

end Events

namespace Response

/-- The meaning of records, with the time that holds before them. Nothing after a halt counts. -/
def ofRecordsFrom : Option FpgaTime → List Record → Response
  | _, [] => {}
  | now, .word word :: rest =>
    let later := ofRecordsFrom now rest
    { later with words := { word, fpgaTime := now } :: later.words }
  | _, .timestamp time :: rest => ofRecordsFrom (some time) rest
  | now, .spikes pack :: rest =>
    let later := ofRecordsFrom now rest
    { later with events := later.events.consSpikes (now.getD 0) pack }
  | now, .samples pack :: rest =>
    let later := ofRecordsFrom now rest
    { later with events := later.events.consSamples (now.getD 0) pack }
  | _, .halt :: _ => {}

def ofRecords : List Record → Response :=
  ofRecordsFrom none

def demultiplex (bytes : Bytes) : Except Wire.RecordError Response :=
  (records bytes).map ofRecords

end Response

end Playback
