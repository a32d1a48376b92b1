/-! Byte strings, fixed-width integer fields in both byte orders, and the bytes of a text.

A field of `n` bytes holds exactly the integers below `capacity n`: writing and reading back is the
identity there (`bigValue_big`), and every `n` bytes are the field of their value (`big_bigValue`).
-/

set_option autoImplicit false

namespace Playback

abbrev Bytes := List UInt8

namespace Bytes

def capacity : Nat → Nat
  | 0 => 1
  | n + 1 => 256 * capacity n

/-- The `n` low bytes of `value`, least significant first. -/
def little : Nat → Nat → Bytes
  | 0, _ => []
  | n + 1, value => UInt8.ofNat value :: little n (value / 256)

def littleValue : Bytes → Nat
  | [] => 0
  | b :: rest => b.toNat + 256 * littleValue rest

/-- The `n` low bytes of `value`, most significant first. -/
def big (n value : Nat) : Bytes :=
  (little n value).reverse

def bigValue (bytes : Bytes) : Nat :=
  littleValue bytes.reverse

@[simp] theorem length_little (n value : Nat) : (little n value).length = n := by
  induction n generalizing value with
  | zero => rfl
  | succ n ih => simp [little, ih]

@[simp] theorem length_big (n value : Nat) : (big n value).length = n := by
  simp [big]

theorem littleValue_little (n value : Nat) : littleValue (little n value) = value % capacity n := by
  induction n generalizing value with
  | zero => simp [little, littleValue, capacity, Nat.mod_one]
  | succ n ih =>
    simp only [little, littleValue, ih, UInt8.toNat_ofNat', capacity]
    rw [Nat.mod_mul]

theorem little_littleValue (bytes : Bytes) : little bytes.length (littleValue bytes) = bytes := by
  induction bytes with
  | nil => rfl
  | cons b rest ih =>
    have bound := b.toNat_lt
    have low : (b.toNat + 256 * littleValue rest) % 256 = b.toNat := by omega
    have high : (b.toNat + 256 * littleValue rest) / 256 = littleValue rest := by omega
    simp only [List.length_cons, littleValue, little, high, ih]
    congr 1
    exact UInt8.toNat_inj.1 (by rw [UInt8.toNat_ofNat', low])

theorem littleValue_lt (bytes : Bytes) : littleValue bytes < capacity bytes.length := by
  induction bytes with
  | nil => simp [littleValue, capacity]
  | cons b rest ih =>
    have bound := b.toNat_lt
    simp only [littleValue, List.length_cons, capacity]
    omega

theorem bigValue_big (n value : Nat) : bigValue (big n value) = value % capacity n := by
  simp [bigValue, big, littleValue_little]

theorem big_bigValue (bytes : Bytes) : big bytes.length (bigValue bytes) = bytes := by
  have h := little_littleValue bytes.reverse
  simpa [big, bigValue] using congrArg List.reverse h

theorem bigValue_lt (bytes : Bytes) : bigValue bytes < capacity bytes.length := by
  simpa [bigValue] using littleValue_lt bytes.reverse

def split? : Nat → Bytes → Option (Bytes × Bytes)
  | 0, bytes => some ([], bytes)
  | _ + 1, [] => none
  | n + 1, b :: rest => (split? n rest).map fun (head, tail) => (b :: head, tail)

theorem split?_eq_some_iff {n : Nat} {bytes head tail : Bytes} :
    split? n bytes = some (head, tail) ↔ bytes = head ++ tail ∧ head.length = n := by
  induction n generalizing bytes head with
  | zero =>
    simp only [split?, Option.some.injEq, Prod.mk.injEq, List.length_eq_zero_iff]
    constructor
    · rintro ⟨rfl, rfl⟩
      exact ⟨rfl, rfl⟩
    · rintro ⟨rfl, rfl⟩
      exact ⟨rfl, rfl⟩
  | succ n ih =>
    cases bytes with
    | nil => cases head <;> simp [split?]
    | cons b rest =>
      simp only [split?, Option.map_eq_some_iff, Prod.exists, Prod.mk.injEq]
      constructor
      · rintro ⟨h, t, found, rfl, rfl⟩
        obtain ⟨rfl, rfl⟩ := ih.1 found
        exact ⟨rfl, rfl⟩
      · rintro ⟨joined, size⟩
        cases head with
        | nil => simp at size
        | cons c more =>
          obtain ⟨rfl, rfl⟩ := List.cons.inj joined
          exact ⟨more, tail, ih.2 ⟨rfl, by simpa using size⟩, rfl, rfl⟩

/-- The bytes cut into pieces of a size; the last one may be shorter. -/
def pieces (size : Nat) (positive : 0 < size) : Bytes → List Bytes
  | [] => []
  | b :: rest => (b :: rest).take size :: pieces size positive ((b :: rest).drop size)
termination_by bytes => bytes.length
decreasing_by
  simp only [List.length_drop, List.length_cons]
  omega

theorem flatten_pieces (size : Nat) (positive : 0 < size) (bytes : Bytes) :
    (pieces size positive bytes).flatten = bytes := by
  fun_induction pieces size positive bytes with
  | case1 => rfl
  | case2 b rest ih => rw [List.flatten_cons, ih, List.take_append_drop]

theorem length_le_of_mem_pieces {size : Nat} {positive : 0 < size} {bytes piece : Bytes}
    (h : piece ∈ pieces size positive bytes) : piece.length ≤ size := by
  fun_induction pieces size positive bytes with
  | case1 => cases h
  | case2 b rest ih =>
    rcases List.mem_cons.1 h with rfl | later
    · exact List.length_take_le ..
    · exact ih later

def ofText (text : String) : Bytes :=
  text.toUTF8.data.toList

def text? (bytes : Bytes) : Option String :=
  String.fromUTF8? ⟨bytes.toArray⟩

theorem text?_eq_some_iff {bytes : Bytes} {text : String} :
    text? bytes = some text ↔ bytes = ofText text := by
  constructor
  · intro h
    unfold text? String.fromUTF8? at h
    split at h
    · simp only [Option.some.injEq] at h
      subst h
      simp [ofText, String.fromUTF8]
    · cases h
  · rintro rfl
    have valid : ByteArray.IsValidUTF8 ⟨(ofText text).toArray⟩ := by
      simpa [ofText] using text.isValidUTF8
    simp only [text?, String.fromUTF8?, valid, ↓reduceDIte, Option.some.injEq]
    cases text
    simp [ofText, String.fromUTF8]

@[simp] theorem text?_ofText (text : String) : text? (ofText text) = some text :=
  text?_eq_some_iff.2 rfl

end Bytes

end Playback
