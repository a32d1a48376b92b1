import Playback.Checksum.Blake3
import Playback.Instruction
import Playback.Wire.Records

/-! Program packets: an instruction stream between a header and a checksum.

A packet is the magic bytes, a version, flags, the number of instructions, one record an
instruction, and the checksum of everything before it. All integers stand with their most
significant byte first.
-/

set_option autoImplicit false

namespace Playback

namespace Instruction

/-- What a wait's operands mean; only numbers of existing timers do. -/
def waitWire : Wire (TimerOnChip × TimerValue) :=
  (Wire.word16.refine
    (fun n =>
      match Site.ofIndex n.toNat with
      | .ok timer => .ok timer
      | .error e => .error e.message)
    (fun timer => UInt16.ofNat timer.index)
    (by
      intro n timer
      have small : timer.index < 0x10000 := Nat.lt_trans timer.index_lt (by decide)
      have exact : Site.ofIndex n.toNat = .ok timer ↔ timer.index = n.toNat :=
        Site.ofIndex_eq_ok_iff
      cases found : (Site.ofIndex n.toNat : Except OutOfRange TimerOnChip) with
      | error e =>
        simp only [found, reduceCtorEq, false_iff] at exact
        simp only [reduceCtorEq, false_iff]
        rintro rfl
        exact exact (by rw [UInt16.toNat_ofNat_of_lt' small])
      | ok site =>
        simp only [found, Except.ok.injEq] at exact
        simp only [Except.ok.injEq, exact]
        constructor
        · intro same
          rw [same, UInt16.ofNat_toNat]
        · rintro rfl
          rw [UInt16.toNat_ofNat_of_lt' small])).pair Wire.word32

def barrierWire : Wire Barrier :=
  Wire.byte.refine
    (fun mask =>
      match Barrier.ofMask? mask with
      | some kind => .ok kind
      | none => .error s!"barrier mask {Numeral.binary 3 mask.toNat}")
    Barrier.mask
    (by
      intro mask kind
      constructor
      · intro h
        split at h
        · rename_i other found
          simp only [Except.ok.injEq] at h
          rw [← h, Barrier.mask_of_ofMask? found]
        · cases h
      · rintro rfl
        simp)

/-- The record of an instruction: an opcode byte and the operands. -/
def writeRecord : Instruction → Bytes
  | .write (.omnibus a w) => 0x01 :: (Wire.word32.pair Wire.word32).write (a, w)
  | .read (.omnibus a) => 0x02 :: Wire.word32.write a
  | .write (.jtag r w) => 0x03 :: (Wire.word16.pair Wire.word64).write (r, w)
  | .read (.jtag r) => 0x04 :: Wire.word16.write r
  | .wait timer value => 0x05 :: waitWire.write (timer, value)
  | .barrier kind => 0x06 :: barrierWire.write kind

def readRecord : Bytes → Except Wire.Fault (Instruction × Bytes)
  | [] => .error .truncated
  | opcode :: operands =>
    match opcode with
    | 0x01 => (Wire.word32.pair Wire.word32).readAs (fun (a, w) => .write (.omnibus a w)) operands
    | 0x02 => Wire.word32.readAs (fun a => .read (.omnibus a)) operands
    | 0x03 => (Wire.word16.pair Wire.word64).readAs (fun (r, w) => .write (.jtag r w)) operands
    | 0x04 => Wire.word16.readAs (fun r => .read (.jtag r)) operands
    | 0x05 => waitWire.readAs (fun (timer, value) => .wait timer value) operands
    | 0x06 => barrierWire.readAs .barrier operands
    | _ => .error (.unknownTag opcode)

def wire : RecordWire Instruction where
  write := writeRecord
  read := readRecord
  read_write instruction rest := by
    rcases instruction with (⟨a, w⟩ | ⟨r, w⟩) | (a | r) | ⟨timer, value⟩ | kind <;>
      simp only [writeRecord, readRecord, List.cons_append, Wire.readAs_write]
  write_of_read bytes instruction rest h := by
    unfold readRecord at h
    split at h
    · cases h
    · split at h
      case h_7 => cases h
      all_goals
        obtain ⟨operands, rfl, rfl⟩ := (Wire.readAs_eq_ok_iff _ _).1 h
        rfl
  write_ne_nil instruction := by
    rcases instruction with (⟨a, w⟩ | ⟨r, w⟩) | (a | r) | ⟨timer, value⟩ | kind <;>
      exact List.cons_ne_nil _ _
  isFinal _ := false

end Instruction

/-- Options of a program. The board knows the lowest bit only. -/
abbrev ProgramFlags := UInt16

namespace ProgramFlags

def annotating (on : Bool) : ProgramFlags :=
  if on then 1 else 0

def annotates (flags : ProgramFlags) : Bool :=
  flags.toNat % 2 = 1

@[simp] theorem annotates_annotating (on : Bool) : (annotating on).annotates = on := by
  cases on <;> rfl

end ProgramFlags

structure Packet where
  flags : ProgramFlags
  instructions : List Instruction
  deriving DecidableEq, Repr

namespace Packet

def headerSize : Nat := 12

def checksumSize : Nat := 32

end Packet

inductive PacketError where
  | incomplete (size : Nat)
  | badMagic
  | unsupportedVersion (version : UInt16)
  | checksumMismatch
  | malformed (record : Wire.RecordError)
  /-- The header counts other than the records. -/
  | countMismatch (declared actual : Nat)
  | tooLarge (count : Nat)
  deriving DecidableEq, Repr

namespace PacketError

def cause : PacketError → String
  | incomplete _ => "Incomplete"
  | badMagic => "BadMagic"
  | unsupportedVersion _ => "UnsupportedVersion"
  | checksumMismatch => "ChecksumMismatch"
  | malformed record => record.cause
  | countMismatch .. => "CountMismatch"
  | tooLarge _ => "TooLarge"

def message : PacketError → String
  | incomplete size =>
    s!"incomplete packet: need at least {Packet.headerSize + Packet.checksumSize} bytes, got {size}"
  | badMagic => "bad magic"
  | unsupportedVersion version => s!"unsupported version {version.toNat}"
  | checksumMismatch => "checksum mismatch"
  | malformed record => record.message
  | countMismatch declared actual =>
    s!"packet declares {declared} instructions, body holds {actual}"
  | tooLarge count => s!"program of {count} instructions does not fit the packet header"

end PacketError

namespace Packet

def magic : { bytes : Bytes // bytes.length = 4 } :=
  ⟨[0x53, 0x50, 0x50, 0x42], rfl⟩

def version : UInt16 := 1

/-- Magic bytes, version, flags and instruction count. -/
def headerWire : Wire ({ bytes : Bytes // bytes.length = 4 } × UInt16 × ProgramFlags × UInt32) :=
  (Wire.byte.repeated 4).pair (Wire.word16.pair (Wire.word16.pair Wire.word32))

/-- What the checksum covers: the header and the records. -/
def signed (packet : Packet) : Bytes :=
  headerWire.write (magic, version, packet.flags, UInt32.ofNat packet.instructions.length)
    ++ Instruction.wire.writeAll packet.instructions

def encode (packet : Packet) : Except PacketError Bytes :=
  if packet.instructions.length < 0x100000000 then
    .ok (packet.signed ++ Blake3.hash packet.signed)
  else .error (.tooLarge packet.instructions.length)

/-- Reads a packet. Of several faults the first in the order of `PacketError` is reported. -/
def decode (bytes : Bytes) : Except PacketError Packet :=
  let signed := bytes.take (bytes.length - checksumSize)
  let checksum := bytes.drop (bytes.length - checksumSize)
  if bytes.length < headerSize + checksumSize then .error (.incomplete bytes.length)
  else
    match headerWire.read signed with
    | .error _ => .error (.incomplete bytes.length)
    | .ok ((mark, given, flags, declared), body) =>
      if mark ≠ magic then .error .badMagic
      else if given ≠ version then .error (.unsupportedVersion given)
      else if Blake3.hash signed ≠ checksum then .error .checksumMismatch
      else
        match Instruction.wire.readAll headerSize body with
        | .error record => .error (.malformed record)
        | .ok instructions =>
          if instructions.length = declared.toNat then .ok { flags, instructions }
          else .error (.countMismatch declared.toNat instructions.length)

/-- A packet's bytes in the blocks in which a board takes them; the last one may be shorter. -/
def blocks : Bytes → List Bytes :=
  Bytes.pieces 4096 (by decide)

theorem flatten_blocks (bytes : Bytes) : (blocks bytes).flatten = bytes :=
  Bytes.flatten_pieces ..

theorem decode_encode {packet : Packet} {bytes : Bytes} (h : packet.encode = .ok bytes) :
    decode bytes = .ok packet := by
  unfold encode at h
  split at h
  case isFalse => cases h
  case isTrue fits =>
  simp only [Except.ok.injEq] at h
  subst h
  have size : (packet.signed ++ Blake3.hash packet.signed).length - checksumSize
      = packet.signed.length := by
    simp [checksumSize]
  have header : (headerWire.write (magic, version, packet.flags,
      UInt32.ofNat packet.instructions.length)).length = headerSize := by
    simp [headerWire, Wire.pair, Wire.repeated, Wire.convert, Wire.empty, Wire.byte, Wire.word16,
      Wire.word32, Wire.unsigned, headerSize, magic]
  have long :
      ¬ (packet.signed ++ Blake3.hash packet.signed).length < headerSize + checksumSize := by
    simp only [signed, List.length_append, header, Blake3.length_hash, checksumSize]
    omega
  have body := Instruction.wire.readAll_writeAll_append headerSize packet.instructions []
    fun _ _ => rfl
  rw [List.append_nil, RecordWire.readAll_nil] at body
  unfold decode
  simp only [size, List.take_left, List.drop_left, if_neg long]
  rw [show headerWire.read packet.signed = .ok ((magic, version, packet.flags,
    UInt32.ofNat packet.instructions.length), Instruction.wire.writeAll packet.instructions) from
    headerWire.read_write _ _]
  simp [body, Except.map, UInt32.toNat_ofNat_of_lt' fits]

end Packet

end Playback
