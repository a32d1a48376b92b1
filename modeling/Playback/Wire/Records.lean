import Playback.Text.Numeral
import Playback.Wire.Basic

/-! Sequences of records on the wire.

Records follow each other without gaps, to the end of the bytes or to a final record, after which
anything may follow. A record that cannot be read is reported with the offset of its first byte.
-/

set_option autoImplicit false

namespace Playback

namespace Wire

structure RecordError where
  offset : Nat
  fault : Fault
  deriving DecidableEq, Repr

def RecordError.message (e : RecordError) : String :=
  match e.fault with
  | .truncated => s!"truncated record at offset {e.offset}"
  | .unknownTag tag => s!"unknown tag {Numeral.hex 2 tag.toNat} at offset {e.offset}"
  | .invalidOperand detail => s!"invalid operand at offset {e.offset}: {detail}"

def RecordError.cause (e : RecordError) : String :=
  match e.fault with
  | .truncated => "Truncated"
  | .unknownTag _ => "UnknownTag"
  | .invalidOperand _ => "InvalidOperand"

end Wire

/-- The wire form of records, each of which takes at least one byte. -/
structure RecordWire (R : Type) extends Wire R where
  write_ne_nil : ∀ record, write record ≠ []
  /-- Whether anything after this record is padding. -/
  isFinal : R → Bool

namespace RecordWire

variable {R : Type}

theorem length_rest_lt (wire : RecordWire R) {bytes rest : Bytes} {record : R}
    (h : wire.read bytes = .ok (record, rest)) : rest.length < bytes.length := by
  rw [wire.write_of_read bytes record rest h, List.length_append]
  have := List.length_pos_iff.2 (wire.write_ne_nil record)
  omega

def writeAll (wire : RecordWire R) (records : List R) : Bytes :=
  records.flatMap wire.write

/-- Reads records; `offset` is the place of the first byte in the whole. -/
def readAll (wire : RecordWire R) (offset : Nat) (bytes : Bytes) :
    Except Wire.RecordError (List R) :=
  if bytes = [] then .ok []
  else
    match _found : wire.read bytes with
    | .error fault => .error { offset, fault }
    | .ok (record, rest) =>
      if wire.isFinal record then .ok [record]
      else do
        let later ← readAll wire (offset + (wire.write record).length) rest
        return record :: later
termination_by bytes.length
decreasing_by exact wire.length_rest_lt _found

theorem readAll_nil (wire : RecordWire R) (offset : Nat) : wire.readAll offset [] = .ok [] := by
  rw [readAll, if_pos rfl]

theorem readAll_write_append (wire : RecordWire R) (offset : Nat) (record : R) (rest : Bytes) :
    wire.readAll offset (wire.write record ++ rest) =
      if wire.isFinal record then .ok [record]
      else (wire.readAll (offset + (wire.write record).length) rest).map (record :: ·) := by
  rw [readAll, if_neg (by simp [wire.write_ne_nil record])]
  split
  · rename_i fault found
    rw [wire.read_write] at found
    cases found
  · rename_i found left read
    rw [wire.read_write, Except.ok.injEq, Prod.mk.injEq] at read
    obtain ⟨rfl, rfl⟩ := read
    rfl

theorem readAll_writeAll_append (wire : RecordWire R) (offset : Nat) (records : List R)
    (rest : Bytes) (goesOn : ∀ record ∈ records, wire.isFinal record = false) :
    wire.readAll offset (wire.writeAll records ++ rest) =
      (wire.readAll (offset + (wire.writeAll records).length) rest).map (records ++ ·) := by
  induction records generalizing offset with
  | nil =>
    simp only [writeAll, List.flatMap_nil, List.nil_append, List.length_nil, Nat.add_zero]
    cases wire.readAll offset rest <;> rfl
  | cons record later ih =>
    have goesOnHere := goesOn record (List.mem_cons_self ..)
    have ih := ih (offset + (wire.write record).length)
      fun other member => goesOn other (List.mem_cons_of_mem _ member)
    simp only [writeAll] at ih ⊢
    rw [List.flatMap_cons, List.append_assoc, readAll_write_append,
      if_neg (by simp [goesOnHere]), ih, List.length_append, Nat.add_assoc]
    cases wire.readAll _ rest <;> rfl

end RecordWire

end Playback
