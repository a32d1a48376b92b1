import Playback.Wire.Records

/-! Which bytes are sequences of records.

Reading goes on behind every record that is not final, and nothing but the writer's bytes reads as a
record. So bytes are cut into records in one way only: to their end, up to a final record, or up to
the first place where no record starts.
-/

set_option autoImplicit false

namespace Playback.RecordWire

variable {R : Type} (wire : RecordWire R)

def Open (records : List R) : Prop :=
  ∀ record ∈ records, wire.isFinal record = false

/-- The records that bytes consist of; padding follows a final one. -/
inductive Fills : List R → Bytes → Prop where
  | whole {records : List R} (goesOn : wire.Open records) :
    Fills records (wire.writeAll records)
  | ended {records : List R} {last : R} {padding : Bytes} (goesOn : wire.Open records)
      (final : wire.isFinal last = true) :
    Fills (records ++ [last]) (wire.writeAll (records ++ [last]) ++ padding)

/-- Complete records, and bytes behind them that do not start with one. -/
structure Breaks (records : List R) (rest : Bytes) (fault : Wire.Fault) (bytes : Bytes) : Prop where
  goesOn : wire.Open records
  nonempty : rest ≠ []
  fails : wire.read rest = .error fault
  apart : bytes = wire.writeAll records ++ rest

variable {wire} {records : List R} {record : R} {bytes rest : Bytes} {fault : Wire.Fault}

theorem open_cons (final : wire.isFinal record = false) (goesOn : wire.Open records) :
    wire.Open (record :: records) :=
  List.forall_mem_cons.2 ⟨final, goesOn⟩

theorem writeAll_cons (wire : RecordWire R) (record : R) (records : List R) :
    wire.writeAll (record :: records) = wire.write record ++ wire.writeAll records :=
  List.flatMap_cons

theorem writeAll_append (wire : RecordWire R) (first second : List R) :
    wire.writeAll (first ++ second) = wire.writeAll first ++ wire.writeAll second :=
  List.flatMap_append

theorem Fills.cons (fills : wire.Fills records rest) (final : wire.isFinal record = false) :
    wire.Fills (record :: records) (wire.write record ++ rest) := by
  cases fills with
  | whole goesOn =>
    rw [← writeAll_cons]
    exact .whole (open_cons final goesOn)
  | ended goesOn ends =>
    rw [← List.append_assoc, ← writeAll_cons, ← List.cons_append]
    exact .ended (open_cons final goesOn) ends

theorem Breaks.cons {padding : Bytes} (breaks : wire.Breaks records padding fault rest)
    (final : wire.isFinal record = false) :
    wire.Breaks (record :: records) padding fault (wire.write record ++ rest) where
  goesOn := open_cons final breaks.goesOn
  nonempty := breaks.nonempty
  fails := breaks.fails
  apart := by rw [breaks.apart, writeAll_cons, List.append_assoc]

theorem readAll_cases (wire : RecordWire R) (offset : Nat) (bytes : Bytes) :
    (∃ records, wire.Fills records bytes ∧ wire.readAll offset bytes = .ok records) ∨
    ∃ records rest fault, wire.Breaks records rest fault bytes ∧
      wire.readAll offset bytes =
        .error { offset := offset + (wire.writeAll records).length, fault } := by
  -- By the function's own cases: a record that is read moves to the front of what is behind it.
  fun_induction readAll wire offset bytes with
  | case1 offset => exact .inl ⟨[], .whole (by simp [Open]), rfl⟩
  | case2 offset bytes nonempty fault found =>
    exact .inr ⟨[], bytes, fault, ⟨by simp [Open], nonempty, found, rfl⟩, rfl⟩
  | case3 offset bytes nonempty record rest found final =>
    left
    refine ⟨[record], ?_, rfl⟩
    have goesOn : wire.Open ([] : List R) := by simp [Open]
    have fills : wire.Fills ([] ++ [record]) (wire.writeAll ([] ++ [record]) ++ rest) :=
      .ended goesOn final
    rw [wire.write_of_read bytes record rest found]
    simpa [writeAll] using fills
  | case4 offset bytes nonempty record rest found final ih =>
    have goesOn : wire.isFinal record = false := by simpa using final
    rw [wire.write_of_read bytes record rest found]
    rcases ih with ⟨records, fills, reads⟩ | ⟨records, tail, fault, breaks, reads⟩
    · left
      refine ⟨record :: records, fills.cons goesOn, ?_⟩
      rw [reads]
      rfl
    · right
      refine ⟨record :: records, tail, fault, breaks.cons goesOn, ?_⟩
      rw [reads, writeAll_cons, List.length_append, ← Nat.add_assoc]
      rfl

theorem Fills.exists_padding (fills : wire.Fills records bytes) :
    ∃ padding, bytes = wire.writeAll records ++ padding := by
  cases fills with
  | whole => exact ⟨[], (List.append_nil _).symm⟩
  | ended => exact ⟨_, rfl⟩

theorem Fills.readAll (fills : wire.Fills records bytes) (offset : Nat) :
    wire.readAll offset bytes = .ok records := by
  cases fills with
  | whole goesOn =>
    have reads := wire.readAll_writeAll_append offset records [] goesOn
    rw [List.append_nil, readAll_nil] at reads
    rw [reads]
    simp [Except.map]
  | @ended records last padding goesOn final =>
    have reads := wire.readAll_writeAll_append offset records (wire.write last ++ padding) goesOn
    rw [readAll_write_append, if_pos final] at reads
    rw [writeAll_append, List.append_assoc]
    simpa [writeAll, Except.map] using reads

theorem Breaks.readAll (breaks : wire.Breaks records rest fault bytes) (offset : Nat) :
    wire.readAll offset bytes =
      .error { offset := offset + (wire.writeAll records).length, fault } := by
  rw [breaks.apart, wire.readAll_writeAll_append offset records rest breaks.goesOn,
    RecordWire.readAll, if_neg breaks.nonempty]
  split
  · rename_i other found
    cases breaks.fails.symm.trans found
    rfl
  · rename_i found
    cases breaks.fails.symm.trans found

theorem readAll_eq_ok_iff {offset : Nat} :
    wire.readAll offset bytes = .ok records ↔ wire.Fills records bytes := by
  constructor
  · intro reads
    rcases wire.readAll_cases offset bytes with ⟨others, fills, same⟩ | ⟨_, _, _, -, fails⟩
    · cases reads.symm.trans same
      exact fills
    · cases reads.symm.trans fails
  · intro fills
    exact fills.readAll offset

theorem readAll_eq_error_iff {offset : Nat} {e : Wire.RecordError} :
    wire.readAll offset bytes = .error e ↔
      ∃ records rest, wire.Breaks records rest e.fault bytes ∧
        e.offset = offset + (wire.writeAll records).length := by
  constructor
  · intro fails
    rcases wire.readAll_cases offset bytes with ⟨_, -, reads⟩ | ⟨records, rest, _, breaks, same⟩
    · cases fails.symm.trans reads
    · cases fails.symm.trans same
      exact ⟨records, rest, breaks, rfl⟩
  · rintro ⟨records, rest, breaks, place⟩
    rw [breaks.readAll offset, ← place]

theorem prefix_of_writeAll {others : List R} {tail : Bytes}
    (same : wire.writeAll others = wire.writeAll records ++ tail) : records <+: others := by
  induction records generalizing others with
  | nil => exact List.nil_prefix
  | cons record later ih =>
    rw [writeAll_cons, List.append_assoc] at same
    cases others with
    | nil =>
      have nonempty := wire.write_ne_nil record
      simp [writeAll, nonempty] at same
    | cons other others =>
      rw [writeAll_cons] at same
      have reads := wire.read_write other (wire.writeAll others)
      rw [same, wire.read_write] at reads
      obtain ⟨here, behind⟩ := Prod.mk.inj (Except.ok.inj reads)
      exact List.cons_prefix_cons.2 ⟨here, ih behind.symm⟩

theorem read_eq_error_iff :
    (∃ fault, wire.read bytes = .error fault) ↔
      ∀ record rest, bytes ≠ wire.write record ++ rest := by
  constructor
  · rintro ⟨fault, fails⟩ record rest rfl
    rw [wire.read_write] at fails
    cases fails
  · intro none
    cases reads : wire.read bytes with
    | error fault => exact ⟨fault, rfl⟩
    | ok found => exact absurd (wire.write_of_read bytes _ _ reads) (none _ _)

end Playback.RecordWire
