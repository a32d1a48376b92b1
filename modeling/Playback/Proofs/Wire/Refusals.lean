import Playback.Proofs.Wire.Packets

/-! Why bytes with a sound header are refused.

Where length, magic, version and checksum are right, only the records and their number are left to
be wrong. Then bytes are refused either because the records, all of them valid, are not as many as
the header says, or at the first place where no valid record starts, counted from the first byte of
the packet.
-/

set_option autoImplicit false

namespace Playback

namespace Packet

def front (bytes : Bytes) : Bytes :=
  bytes.take (bytes.length - checksumSize)

def body (bytes : Bytes) : Bytes :=
  (front bytes).drop headerSize

def declared (bytes : Bytes) : Nat :=
  Bytes.bigValue ((bytes.drop 8).take 4)

/-- Long enough, and right in all that does not depend on the records. -/
structure Headed (bytes : Bytes) : Prop where
  long : headerSize + checksumSize ≤ bytes.length
  marked : bytes.take 4 = magic
  versioned : (bytes.drop 4).take 2 = [0, 1]
  checked : Blake3.hash (front bytes) = bytes.drop (bytes.length - checksumSize)

/-- The first record that is none: complete records up to it, and none that starts there. -/
structure FirstFault (bytes : Bytes) (offset : Nat) (fault : Wire.Fault) : Prop where
  behindHeader : headerSize ≤ offset
  inBody : offset < bytes.length - checksumSize
  complete : ∃ instructions,
    (bytes.take offset).drop headerSize = Instruction.wire.writeAll instructions
  none : ∀ instruction rest,
    (front bytes).drop offset ≠ Instruction.wire.write instruction ++ rest
  reads : Instruction.wire.read ((front bytes).drop offset) = .error fault

section Headed

variable {bytes : Bytes}

theorem length_front (bytes : Bytes) : (front bytes).length = bytes.length - checksumSize := by
  rw [front, List.length_take]
  omega

theorem take_front {n : Nat} (small : n ≤ bytes.length - checksumSize) :
    (front bytes).take n = bytes.take n := by
  rw [front, List.take_take, Nat.min_eq_left small]

theorem exists_word16 {field : Bytes} (size : field.length = 2) :
    ∃ word : UInt16, Wire.word16.write word = field := by
  have small := Bytes.bigValue_lt field
  have whole := Bytes.big_bigValue field
  rw [size] at small whole
  refine ⟨.ofNat (Bytes.bigValue field), ?_⟩
  change Bytes.big 2 (UInt16.ofNat _).toNat = field
  rw [UInt16.toNat_ofNat_of_lt' small, whole]

theorem exists_word32 {field : Bytes} (size : field.length = 4) :
    ∃ word : UInt32, Wire.word32.write word = field ∧ word.toNat = Bytes.bigValue field := by
  have small := Bytes.bigValue_lt field
  have whole := Bytes.big_bigValue field
  rw [size] at small whole
  have number := UInt32.toNat_ofNat_of_lt' small
  refine ⟨.ofNat (Bytes.bigValue field), ?_, number⟩
  change Bytes.big 4 (UInt32.ofNat _).toNat = field
  rw [number, whole]

theorem Headed.header (headed : Headed bytes) :
    ∃ (flags : ProgramFlags) (count : UInt32), count.toNat = declared bytes ∧
      headerWire.read (front bytes) = .ok ((magic, version, flags, count), body bytes) := by
  have long : 44 ≤ bytes.length := headed.long
  have flagSize : ((bytes.drop 6).take 2).length = 2 := by
    rw [List.length_take, List.length_drop]
    omega
  have countSize : ((bytes.drop 8).take 4).length = 4 := by
    rw [List.length_take, List.length_drop]
    omega
  obtain ⟨flags, flagBytes⟩ := exists_word16 flagSize
  obtain ⟨count, countBytes, number⟩ := exists_word32 countSize
  have markBytes : magic.val = (Wire.byte.repeated 4).write magic := rfl
  have versionBytes : [0, 1] = Wire.word16.write version := rfl
  have fields : bytes.take headerSize = headerWire.write (magic, version, flags, count) := by
    rw [show headerSize = 4 + (2 + (2 + 4)) from rfl, List.take_add, List.take_add, List.take_add,
      List.drop_drop, List.drop_drop, headed.marked, headed.versioned, ← flagBytes, ← countBytes,
      markBytes, versionBytes]
    rfl
  have fits : headerSize ≤ bytes.length - checksumSize := Nat.le_sub_of_add_le headed.long
  refine ⟨flags, count, number, headerWire.read_eq_ok_iff.2 ?_⟩
  rw [← fields, ← take_front fits]
  exact (List.take_append_drop _ _).symm

-- Only the records and their number can still be wrong.
theorem Headed.decode_eq_error_iff (headed : Headed bytes) {e : PacketError} :
    decode bytes = .error e ↔
      (∃ instructions, Instruction.wire.readAll headerSize (body bytes) = .ok instructions ∧
        instructions.length ≠ declared bytes ∧
        e = .countMismatch (declared bytes) instructions.length) ∨
      ∃ record, Instruction.wire.readAll headerSize (body bytes) = .error record ∧
        e = .malformed record := by
  obtain ⟨flags, count, counts, header⟩ := headed.header
  have checked := headed.checked
  unfold front at header checked
  unfold decode
  dsimp only
  rw [if_neg (Nat.not_lt.2 headed.long), header]
  dsimp only
  rw [if_neg (not_not_intro rfl), if_neg (not_not_intro rfl), if_neg (not_not_intro checked), counts]
  cases Instruction.wire.readAll headerSize (body bytes) with
  | error record => simp [eq_comm]
  | ok instructions =>
    by_cases same : instructions.length = declared bytes
    · simp [same]
    · simp [same, eq_comm]

theorem firstFault_of_breaks {records : List Instruction} {rest : Bytes} {fault : Wire.Fault}
    (breaks : Instruction.wire.Breaks records rest fault (body bytes)) :
    FirstFault bytes (headerSize + (Instruction.wire.writeAll records).length) fault := by
  have apart : (front bytes).drop headerSize = Instruction.wire.writeAll records ++ rest :=
    breaks.apart
  have behind : (front bytes).drop (headerSize + (Instruction.wire.writeAll records).length) =
      rest := by
    rw [← List.drop_drop, apart, List.drop_left]
  have more := List.length_pos_iff.2 breaks.nonempty
  rw [← behind, List.length_drop, length_front] at more
  have inside : headerSize + (Instruction.wire.writeAll records).length <
      bytes.length - checksumSize := by omega
  refine ⟨Nat.le_add_right _ _, inside, ⟨records, ?_⟩, ?_, behind ▸ breaks.fails⟩
  · rw [← take_front (Nat.le_of_lt inside), List.drop_take, apart, Nat.add_sub_cancel_left,
      List.take_left]
  · rw [behind]
    exact RecordWire.read_eq_error_iff.1 ⟨fault, breaks.fails⟩

theorem FirstFault.breaks {offset : Nat} {fault : Wire.Fault}
    (first : FirstFault bytes offset fault) : ∃ records,
      Instruction.wire.Breaks records ((front bytes).drop offset) fault (body bytes) ∧
        offset = headerSize + (Instruction.wire.writeAll records).length := by
  obtain ⟨records, complete⟩ := first.complete
  have inside := first.inBody
  have behind := first.behindHeader
  rw [← take_front (Nat.le_of_lt inside), List.drop_take] at complete
  have width := congrArg List.length complete
  rw [List.length_take, List.length_drop, length_front] at width
  refine ⟨records, ⟨fun _ _ => rfl, ?_, first.reads, ?_⟩, by omega⟩
  · rw [ne_eq, List.drop_eq_nil_iff, length_front]
    omega
  · rw [← complete, show offset = headerSize + (offset - headerSize) by omega, ← List.drop_drop,
      Nat.add_sub_cancel_left]
    exact (List.take_append_drop _ _).symm

end Headed

-- Bytes with a sound header are refused exactly if they hold complete records, only not as many as
-- the header says, or if there is a first place in the body where no record starts; the error names
-- that place, counted from the front of the packet.
theorem refused_at_first_fault {bytes : Bytes} (headed : Headed bytes) (e : PacketError) :
    decode bytes = .error e ↔
      (∃ instructions, body bytes = Instruction.wire.writeAll instructions ∧
        instructions.length ≠ declared bytes ∧
        e = .countMismatch (declared bytes) instructions.length) ∨
      ∃ offset fault, FirstFault bytes offset fault ∧ e = .malformed { offset, fault } := by
  rw [headed.decode_eq_error_iff]
  apply or_congr
  · simp only [Instruction.readAll_eq_ok_iff]
  · constructor
    · rintro ⟨⟨offset, fault⟩, fails, rfl⟩
      obtain ⟨records, rest, breaks, place⟩ := RecordWire.readAll_eq_error_iff.1 fails
      obtain rfl : offset = _ := place
      exact ⟨_, fault, firstFault_of_breaks breaks, rfl⟩
    · rintro ⟨offset, fault, first, rfl⟩
      obtain ⟨records, breaks, place⟩ := first.breaks
      exact ⟨_, RecordWire.readAll_eq_error_iff.2 ⟨records, _, breaks, place⟩, rfl⟩

def cutWait : Bytes :=
  [0x53, 0x50, 0x50, 0x42, 0, 1, 0, 0, 0, 0, 0, 2, 0x06, 0x01, 0x05, 0, 9]

theorem cutWait_refused :
    Headed (cutWait ++ Blake3.hash cutWait) ∧
    decode (cutWait ++ Blake3.hash cutWait) =
      .error (.malformed
        { offset := 14
          fault := .invalidOperand "TimerOnChip index 9 out of range (size 2)" }) := by
  have size : (cutWait ++ Blake3.hash cutWait).length - checksumSize = cutWait.length := by
    simp [checksumSize]
  have whole : front (cutWait ++ Blake3.hash cutWait) = cutWait := by
    rw [front, size, List.take_left]
  have headed : Headed (cutWait ++ Blake3.hash cutWait) :=
    { long := by
        rw [List.length_append, Blake3.length_hash]
        decide
      marked := rfl
      versioned := rfl
      checked := by rw [whole, size, List.drop_left] }
  have reads : Instruction.wire.read ([0x05, 0, 9] : Bytes) =
      .error (.invalidOperand "TimerOnChip index 9 out of range (size 2)") := rfl
  have first : FirstFault (cutWait ++ Blake3.hash cutWait) 14
      (.invalidOperand "TimerOnChip index 9 out of range (size 2)") :=
    { behindHeader := by decide
      inBody := by
        rw [size]
        decide
      complete := ⟨[.barrier .omnibus], rfl⟩
      none := by
        rw [whole]
        exact RecordWire.read_eq_error_iff.1 ⟨_, reads⟩
      reads := by
        rw [whole]
        exact reads }
  exact ⟨headed, (refused_at_first_fault headed _).2 (.inr ⟨14, _, first, rfl⟩)⟩

end Packet

end Playback
