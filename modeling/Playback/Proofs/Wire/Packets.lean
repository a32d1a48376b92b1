import Playback.Packet
import Playback.Proofs.Wire.Sequences

/-! Packets and programs correspond one to one.

What a packet says determines its bytes: the header has no field that is ignored, the records leave
no gap, and the checksum is a function of both. So bytes are accepted only if they are what the
program read from them would be written as.
-/

set_option autoImplicit false

namespace Playback

namespace Instruction

theorem readAll_eq_ok_iff {offset : Nat} {body : Bytes} {instructions : List Instruction} :
    wire.readAll offset body = .ok instructions ↔ body = wire.writeAll instructions := by
  have goesOn (instructions : List Instruction) : wire.Open instructions := fun _ _ => rfl
  rw [RecordWire.readAll_eq_ok_iff]
  constructor
  · intro fills
    cases fills with
    | whole => rfl
    | ended _ final => cases final
  · rintro rfl
    exact .whole (goesOn instructions)

end Instruction

namespace Packet

theorem encode_eq_ok_iff {packet : Packet} {bytes : Bytes} :
    packet.encode = .ok bytes ↔
      packet.instructions.length < 0x100000000 ∧
        bytes = packet.signed ++ Blake3.hash packet.signed := by
  unfold encode
  split
  · rename_i small
    simp [small, eq_comm]
  · rename_i large
    simp [large]

-- The count that was read is the number of instructions, so signing them again gives the same.
theorem signed_of_read {signed body : Bytes} {flags : ProgramFlags} {declared : UInt32}
    {instructions : List Instruction}
    (header : headerWire.read signed = .ok ((magic, version, flags, declared), body))
    (records : Instruction.wire.readAll headerSize body = .ok instructions)
    (count : instructions.length = declared.toNat) :
    signed = Packet.signed { flags, instructions } := by
  have same : UInt32.ofNat instructions.length = declared := by
    rw [count, UInt32.ofNat_toNat]
  rw [headerWire.write_of_read _ _ _ header, Instruction.readAll_eq_ok_iff.1 records, Packet.signed,
    same]

theorem encode_of_decode {bytes : Bytes} {packet : Packet} (read : decode bytes = .ok packet) :
    packet.encode = .ok bytes := by
  unfold decode at read
  dsimp only at read
  split at read
  case isTrue short => cases read
  case isFalse long =>
  split at read
  case h_1 => cases read
  case h_2 mark given flags declared body header =>
  -- Each check that the bytes pass fixes the part that it looks at.
  split at read
  case isTrue other => cases read
  case isFalse marked =>
  split at read
  case isTrue other => cases read
  case isFalse versioned =>
  split at read
  case isTrue other => cases read
  case isFalse checked =>
  split at read
  case h_1 => cases read
  case h_2 instructions records =>
  split at read
  case isFalse other => cases read
  case isTrue count =>
  cases read
  cases Decidable.not_not.1 marked
  cases Decidable.not_not.1 versioned
  have signed := signed_of_read header records count
  refine encode_eq_ok_iff.2 ⟨?_, ?_⟩
  · rw [count]
    exact declared.toNat_lt
  · rw [← signed, Decidable.not_not.1 checked, List.take_append_drop]

theorem decode_eq_ok_iff {bytes : Bytes} {packet : Packet} :
    decode bytes = .ok packet ↔ packet.encode = .ok bytes :=
  ⟨encode_of_decode, decode_encode⟩

-- Every program that a header can count has a packet, and bytes are accepted exactly if they are
-- the packet of what they are read as.
theorem packets_correspond :
    (∀ (instructions : List Instruction) (flags : ProgramFlags),
      (∃ bytes, encode { flags, instructions } = .ok bytes ∧
        decode bytes = .ok { flags, instructions }) ↔ instructions.length < 0x100000000) ∧
    (∀ (bytes : Bytes) (packet : Packet),
      decode bytes = .ok packet ↔ packet.encode = .ok bytes) ∧
    (∀ bytes : Bytes, (∃ packet, decode bytes = .ok packet) ↔
      ∃ packet : Packet, packet.encode = .ok bytes) ∧
    (∀ (first second : Bytes) (packet : Packet),
      decode first = .ok packet → decode second = .ok packet → first = second) ∧
    ∀ (bytes : Bytes) (first second : Packet),
      first.encode = .ok bytes → second.encode = .ok bytes → first = second := by
  refine ⟨fun instructions flags => ⟨?_, ?_⟩, fun bytes packet => decode_eq_ok_iff,
    fun bytes => exists_congr fun packet => decode_eq_ok_iff, ?_, ?_⟩
  · rintro ⟨bytes, written, -⟩
    exact (encode_eq_ok_iff.1 written).1
  · intro small
    have written : encode { flags, instructions } = .ok _ := encode_eq_ok_iff.2 ⟨small, rfl⟩
    exact ⟨_, written, decode_encode written⟩
  · intro first second packet reads again
    have written := (encode_of_decode reads).symm.trans (encode_of_decode again)
    exact Except.ok.inj written
  · intro bytes first second written again
    have read := (decode_encode written).symm.trans (decode_encode again)
    exact Except.ok.inj read

end Packet

end Playback
