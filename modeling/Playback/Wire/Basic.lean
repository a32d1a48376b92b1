import Playback.Bytes

/-! Wire forms: a writer and a reader that are inverse to each other.

A reader takes a value off the front of a byte string and leaves the rest. `Wire.read_eq_ok_iff`
says that it accepts exactly what the writer produces, whatever follows. The combinators keep this
law, so a format that is built from them has it by construction.
-/

set_option autoImplicit false

namespace Playback

namespace Wire

inductive Fault where
  | truncated
  | unknownTag (tag : UInt8)
  | invalidOperand (detail : String)
  deriving DecidableEq, Repr

end Wire

structure Wire (α : Type) where
  write : α → Bytes
  read : Bytes → Except Wire.Fault (α × Bytes)
  read_write : ∀ value rest, read (write value ++ rest) = .ok (value, rest)
  write_of_read : ∀ bytes value rest, read bytes = .ok (value, rest) → bytes = write value ++ rest

namespace Wire

variable {α β : Type}

theorem read_eq_ok_iff (wire : Wire α) {bytes rest : Bytes} {value : α} :
    wire.read bytes = .ok (value, rest) ↔ bytes = wire.write value ++ rest :=
  ⟨wire.write_of_read bytes value rest, fun h => h ▸ wire.read_write value rest⟩

def readAs (wire : Wire α) (form : α → β) (bytes : Bytes) : Except Fault (β × Bytes) :=
  (wire.read bytes).map fun (value, rest) => (form value, rest)

theorem readAs_write (wire : Wire α) (form : α → β) (value : α) (rest : Bytes) :
    wire.readAs form (wire.write value ++ rest) = .ok (form value, rest) := by
  simp [readAs, wire.read_write, Except.map]

theorem readAs_eq_ok_iff (wire : Wire α) (form : α → β) {bytes rest : Bytes} {b : β} :
    wire.readAs form bytes = .ok (b, rest) ↔
      ∃ value, form value = b ∧ bytes = wire.write value ++ rest := by
  simp only [readAs, ← wire.read_eq_ok_iff]
  cases wire.read bytes with
  | error fault => simp [Except.map]
  | ok found =>
    obtain ⟨value, left⟩ := found
    simp only [Except.map, Except.ok.injEq, Prod.mk.injEq]
    constructor
    · rintro ⟨rfl, rfl⟩
      exact ⟨value, rfl, rfl, rfl⟩
    · rintro ⟨_, rfl, rfl, rfl⟩
      exact ⟨rfl, rfl⟩

def empty : Wire Unit where
  write _ := []
  read bytes := .ok ((), bytes)
  read_write _ _ := rfl
  write_of_read bytes _ rest h := by
    simp only [Except.ok.injEq, Prod.mk.injEq, true_and] at h
    simp [h]

/-- An unsigned integer of `n` bytes, most significant byte first. -/
def unsigned (n : Nat) : Wire (Fin (Bytes.capacity n)) where
  write value := Bytes.big n value
  read bytes :=
    match h : Bytes.split? n bytes with
    | some (field, rest) =>
      .ok (⟨Bytes.bigValue field,
        (Bytes.split?_eq_some_iff.1 h).2 ▸ Bytes.bigValue_lt field⟩, rest)
    | none => .error .truncated
  read_write value rest := by
    have cut : Bytes.split? n (Bytes.big n value ++ rest) = some (Bytes.big n value, rest) :=
      Bytes.split?_eq_some_iff.2 ⟨rfl, Bytes.length_big n value⟩
    split
    · rename_i field left found
      rw [cut, Option.some.injEq, Prod.mk.injEq] at found
      obtain ⟨rfl, rfl⟩ := found
      simp [Bytes.bigValue_big, Nat.mod_eq_of_lt value.isLt]
    · rename_i missing
      rw [cut] at missing
      cases missing
  write_of_read bytes value rest h := by
    split at h
    · rename_i field left found
      simp only [Except.ok.injEq, Prod.mk.injEq] at h
      obtain ⟨rfl, rfl⟩ := h
      obtain ⟨joined, size⟩ := Bytes.split?_eq_some_iff.1 found
      subst size
      rw [Bytes.big_bigValue]
      exact joined
    · cases h

def convert (wire : Wire α) (into : α → β) (back : β → α) (into_back : ∀ b, into (back b) = b)
    (back_into : ∀ a, back (into a) = a) : Wire β where
  write b := wire.write (back b)
  read := wire.readAs into
  read_write b rest := by rw [wire.readAs_write, into_back]
  write_of_read bytes b rest h := by
    obtain ⟨a, rfl, joined⟩ := (wire.readAs_eq_ok_iff into).1 h
    rw [back_into, joined]

/-- Keeps the values that have a meaning and refuses the others. -/
def refine (wire : Wire α) (into : α → Except String β) (back : β → α)
    (exact : ∀ a b, into a = .ok b ↔ a = back b) : Wire β where
  write b := wire.write (back b)
  read bytes := do
    let (a, rest) ← wire.read bytes
    match into a with
    | .ok b => return (b, rest)
    | .error detail => .error (.invalidOperand detail)
  read_write b rest := by
    simp [wire.read_write, (exact (back b) b).2 rfl, bind, Except.bind, pure, Except.pure]
  write_of_read bytes b rest h := by
    cases found : wire.read bytes with
    | error fault => simp [found, bind, Except.bind] at h
    | ok pair =>
      obtain ⟨a, left⟩ := pair
      simp only [found, bind, Except.bind] at h
      split at h
      · rename_i value meaning
        simp only [pure, Except.pure, Except.ok.injEq, Prod.mk.injEq] at h
        obtain ⟨rfl, rfl⟩ := h
        rw [← (exact a value).1 meaning]
        exact wire.write_of_read bytes a left found
      · cases h

def pair (first : Wire α) (second : Wire β) : Wire (α × β) where
  write value := first.write value.1 ++ second.write value.2
  read bytes := do
    let (a, rest) ← first.read bytes
    second.readAs (fun b => (a, b)) rest
  read_write value rest := by
    simp [first.read_write, second.readAs_write, bind, Except.bind]
  write_of_read bytes value rest h := by
    cases found : first.read bytes with
    | error fault => simp [found, bind, Except.bind] at h
    | ok found' =>
      obtain ⟨a, left⟩ := found'
      simp only [found, bind, Except.bind] at h
      obtain ⟨b, rfl, joined⟩ := (second.readAs_eq_ok_iff _).1 h
      rw [first.write_of_read bytes a left found, joined, List.append_assoc]

def repeated (wire : Wire α) : (n : Nat) → Wire { values : List α // values.length = n }
  | 0 => empty.convert (fun _ => ⟨[], rfl⟩) (fun _ => ())
      (fun ⟨values, size⟩ => by simp [List.length_eq_zero_iff.1 size]) (fun _ => rfl)
  | n + 1 => (wire.pair (repeated wire n)).convert
      (fun (first, ⟨others, size⟩) => ⟨first :: others, by simp [size]⟩)
      (fun | ⟨first :: others, size⟩ => (first, ⟨others, by simpa using size⟩))
      (fun | ⟨_ :: _, _⟩ => rfl)
      (fun _ => rfl)

def byte : Wire UInt8 :=
  (unsigned 1).convert (fun n => UInt8.ofNat n) (fun b => ⟨b.toNat, b.toNat_lt⟩)
    (fun b => by simp)
    (fun n => Fin.ext (UInt8.toNat_ofNat_of_lt' n.isLt))

def word16 : Wire UInt16 :=
  (unsigned 2).convert (fun n => UInt16.ofNat n) (fun w => ⟨w.toNat, w.toNat_lt⟩)
    (fun w => by simp)
    (fun n => Fin.ext (UInt16.toNat_ofNat_of_lt' n.isLt))

def word32 : Wire UInt32 :=
  (unsigned 4).convert (fun n => UInt32.ofNat n) (fun w => ⟨w.toNat, w.toNat_lt⟩)
    (fun w => by simp)
    (fun n => Fin.ext (UInt32.toNat_ofNat_of_lt' n.isLt))

def word64 : Wire UInt64 :=
  (unsigned 8).convert (fun n => UInt64.ofNat n) (fun w => ⟨w.toNat, w.toNat_lt⟩)
    (fun w => by simp)
    (fun n => Fin.ext (UInt64.toNat_ofNat_of_lt' n.isLt))

end Wire

end Playback
