import Playback.Event
import Playback.Register.Access
import Playback.Wire.Records

/-! Records of a board's response.

A record is a tag byte and its payload. Chip times have 16 bits on the wire and sample values ten,
so a record holds no more than that: whatever can be said in a record can be written and reads back.
-/

set_option autoImplicit false

namespace Playback

structure PackSizeError where
  entries : String
  size : Nat
  deriving DecidableEq, Repr

def PackSizeError.message (e : PackSizeError) : String :=
  s!"{e.entries} pack of {e.size} entries is not encodable"

/-- One to `limit` entries that arrived together. -/
structure Pack (α : Type) (limit : Nat) where
  entries : List α
  size_pos : 0 < entries.length := by decide
  size_le : entries.length ≤ limit := by decide
  deriving DecidableEq, Repr

namespace Pack

variable {α : Type} {limit : Nat}

def ofList? (entries : List α) : Option (Pack α limit) :=
  if h : 0 < entries.length ∧ entries.length ≤ limit then some ⟨entries, h.1, h.2⟩ else none

/-- The number of entries, counted from zero for a pack of one. -/
def sizeIndex (pack : Pack α limit) : Fin limit :=
  ⟨pack.entries.length - 1, by
    have := pack.size_pos
    have := pack.size_le
    omega⟩

def isSize (limit size : Nat) : Bool :=
  0 < size && size ≤ limit

theorem isSize_iff {size : Nat} : isSize limit size = true ↔ 0 < size ∧ size ≤ limit := by
  simp [isSize]

def sizedWire (wire : Wire α) (size : Nat) (fits : isSize limit size = true) :
    Wire { pack : Pack α limit // pack.entries.length = size } :=
  (wire.repeated size).convert
    (fun ⟨entries, h⟩ => ⟨⟨entries, h ▸ (isSize_iff.1 fits).1, h ▸ (isSize_iff.1 fits).2⟩, h⟩)
    (fun ⟨pack, h⟩ => ⟨pack.entries, h⟩)
    (fun _ => rfl)
    (fun _ => rfl)

def payload (wire : Wire α) (pack : Pack α limit) : Bytes :=
  (wire.repeated pack.entries.length).write ⟨pack.entries, rfl⟩

theorem sizedWire_write (wire : Wire α) (size : Nat) (fits : isSize limit size = true)
    (pack : Pack α limit) (h : pack.entries.length = size) :
    (sizedWire wire size fits).write ⟨pack, h⟩ = pack.payload wire := by
  subst h
  rfl

end Pack

namespace Response

structure SpikeEntry where
  label : SpikeLabel
  /-- The low 16 bits of the chip time. -/
  chipTime : UInt16
  deriving DecidableEq, Repr

structure SampleEntry where
  channel : UInt8
  value : Fin MadcSample.valueCount
  chipTime : UInt16
  deriving DecidableEq, Repr

namespace SpikeEntry

def wire : Wire SpikeEntry :=
  (Wire.word16.pair Wire.word16).convert (fun (label, chipTime) => ⟨label, chipTime⟩)
    (fun entry => (entry.label, entry.chipTime)) (fun _ => rfl) (fun _ => rfl)

def ofSpike (label : SpikeLabel) (chipTime : ChipTime) : SpikeEntry :=
  ⟨label, chipTime.toUInt16⟩

end SpikeEntry

namespace SampleEntry

/-- A sample's value; ten bits of it are allowed. -/
def valueWire : Wire (Fin MadcSample.valueCount) :=
  Wire.word16.refine
    (fun value =>
      if h : value.toNat < MadcSample.valueCount then .ok ⟨value.toNat, h⟩
      else .error s!"madc value {Numeral.hex 0 value.toNat} exceeds 10 bits")
    (fun value => UInt16.ofNat value)
    (by
      intro raw value
      have small : value.val < 0x10000 := Nat.lt_trans value.isLt (by decide)
      split
      · simp only [Except.ok.injEq]
        constructor
        · rintro rfl
          simp
        · rintro rfl
          exact Fin.ext (UInt16.toNat_ofNat_of_lt' small)
      · rename_i large
        simp only [reduceCtorEq, false_iff]
        rintro rfl
        exact large (by rw [UInt16.toNat_ofNat_of_lt' small]; exact value.isLt))

def wire : Wire SampleEntry :=
  (Wire.byte.pair (valueWire.pair Wire.word16)).convert
    (fun (channel, value, chipTime) => ⟨channel, value, chipTime⟩)
    (fun entry => (entry.channel, entry.value, entry.chipTime)) (fun _ => rfl) (fun _ => rfl)

/-- The entry that stands for a sample; the value keeps its ten low bits. -/
def ofSample (channel : UInt8) (value : UInt16) (chipTime : ChipTime) : SampleEntry :=
  ⟨channel, ⟨value.toNat % MadcSample.valueCount, Nat.mod_lt _ (by decide)⟩, chipTime.toUInt16⟩

end SampleEntry

inductive Record where
  | word (word : Word)
  /-- The time of every record up to the next one of this kind. -/
  | timestamp (time : FpgaTime)
  | spikes (pack : Pack SpikeEntry 3)
  | samples (pack : Pack SampleEntry 2)
  | halt
  deriving DecidableEq, Repr

namespace Record

def ofSpikes (entries : List SpikeEntry) : Except PackSizeError Record :=
  match Pack.ofList? entries with
  | some pack => .ok (spikes pack)
  | none => .error { entries := "spike", size := entries.length }

def ofSamples (entries : List SampleEntry) : Except PackSizeError Record :=
  match Pack.ofList? entries with
  | some pack => .ok (samples pack)
  | none => .error { entries := "madc sample", size := entries.length }

def tag : Record → UInt8
  | word (.omnibus _) => 0x10
  | word (.jtag _) => 0x11
  | timestamp _ => 0x12
  | spikes pack => 0x20 + UInt8.ofNat pack.sizeIndex
  | samples pack => 0x30 + UInt8.ofNat pack.sizeIndex
  | halt => 0x7f

def payload : Record → Bytes
  | word (.omnibus w) => Wire.word32.write w
  | word (.jtag w) => Wire.word64.write w
  | timestamp time => Wire.word64.write time
  | spikes pack => pack.payload SpikeEntry.wire
  | samples pack => pack.payload SampleEntry.wire
  | halt => []

def spikeWire (size : Nat) (fits : Pack.isSize 3 size = true) :
    Wire { pack : Pack SpikeEntry 3 // pack.entries.length = size } :=
  Pack.sizedWire SpikeEntry.wire size fits

def sampleWire (size : Nat) (fits : Pack.isSize 2 size = true) :
    Wire { pack : Pack SampleEntry 2 // pack.entries.length = size } :=
  Pack.sizedWire SampleEntry.wire size fits

def read : Bytes → Except Wire.Fault (Record × Bytes)
  | [] => .error .truncated
  | tag :: payload =>
    match tag with
    | 0x10 => Wire.word32.readAs (fun w => word (.omnibus w)) payload
    | 0x11 => Wire.word64.readAs (fun w => word (.jtag w)) payload
    | 0x12 => Wire.word64.readAs timestamp payload
    | 0x20 => (spikeWire 1 rfl).readAs (fun pack => spikes pack.val) payload
    | 0x21 => (spikeWire 2 rfl).readAs (fun pack => spikes pack.val) payload
    | 0x22 => (spikeWire 3 rfl).readAs (fun pack => spikes pack.val) payload
    | 0x30 => (sampleWire 1 rfl).readAs (fun pack => samples pack.val) payload
    | 0x31 => (sampleWire 2 rfl).readAs (fun pack => samples pack.val) payload
    | 0x7f => .ok (halt, payload)
    | _ => .error (.unknownTag tag)

/-- Response records; a halt is the final one. -/
def wire : RecordWire Record where
  write record := record.tag :: record.payload
  read := read
  read_write record rest := by
    rcases record with (w | w) | time | pack | pack | _
    case word.omnibus => exact Wire.word32.readAs_write (fun w => word (.omnibus w)) w rest
    case word.jtag => exact Wire.word64.readAs_write (fun w => word (.jtag w)) w rest
    case timestamp => exact Wire.word64.readAs_write timestamp time rest
    case spikes =>
      have sizes : pack.entries.length = 1 ∨ pack.entries.length = 2 ∨ pack.entries.length = 3 := by
        have := pack.size_pos
        have := pack.size_le
        omega
      rcases sizes with h | h | h <;>
        simp only [tag, payload, Pack.sizeIndex, h,
          ← Pack.sizedWire_write SpikeEntry.wire _ rfl pack h]
      · exact (spikeWire 1 _).readAs_write (fun pack => spikes pack.val) ⟨pack, h⟩ rest
      · exact (spikeWire 2 _).readAs_write (fun pack => spikes pack.val) ⟨pack, h⟩ rest
      · exact (spikeWire 3 _).readAs_write (fun pack => spikes pack.val) ⟨pack, h⟩ rest
    case samples =>
      have sizes : pack.entries.length = 1 ∨ pack.entries.length = 2 := by
        have := pack.size_pos
        have := pack.size_le
        omega
      rcases sizes with h | h <;>
        simp only [tag, payload, Pack.sizeIndex, h,
          ← Pack.sizedWire_write SampleEntry.wire _ rfl pack h]
      · exact (sampleWire 1 _).readAs_write (fun pack => samples pack.val) ⟨pack, h⟩ rest
      · exact (sampleWire 2 _).readAs_write (fun pack => samples pack.val) ⟨pack, h⟩ rest
    case halt => rfl
  write_of_read bytes record rest h := by
    unfold read at h
    split at h
    · cases h
    · split at h
      case h_10 => cases h
      case h_9 =>
        simp only [Except.ok.injEq, Prod.mk.injEq] at h
        obtain ⟨rfl, rfl⟩ := h
        rfl
      case h_4 | h_5 | h_6 =>
        obtain ⟨⟨pack, size⟩, rfl, rfl⟩ := (Wire.readAs_eq_ok_iff _ _).1 h
        simp only [tag, payload, Pack.sizeIndex, size,
          ← Pack.sizedWire_write SpikeEntry.wire _ rfl pack size]
        rfl
      case h_7 | h_8 =>
        obtain ⟨⟨pack, size⟩, rfl, rfl⟩ := (Wire.readAs_eq_ok_iff _ _).1 h
        simp only [tag, payload, Pack.sizeIndex, size,
          ← Pack.sizedWire_write SampleEntry.wire _ rfl pack size]
        rfl
      all_goals
        obtain ⟨content, rfl, rfl⟩ := (Wire.readAs_eq_ok_iff _ _).1 h
        rfl
  write_ne_nil _ := List.cons_ne_nil _ _
  isFinal record := record = halt

end Record

def encode (records : List Record) : Bytes :=
  Record.wire.writeAll records

/-- The records of a response up to its halt. -/
def records (bytes : Bytes) : Except Wire.RecordError (List Record) :=
  Record.wire.readAll 0 bytes

end Response

end Playback
