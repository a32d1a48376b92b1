import Playback.Proofs.Json.Values

/-! Where the numbers of a value stand, and between which bounds.

`Fits` says that all numbers of a written value are within the bounds of their places. What is read
need not have been written: records are also read from arrays and with any entries beside their own.
`Hole` cuts one number out of such a value, and a type is `Shaped` if it is read with no number out
of bounds at any hole.
-/

set_option autoImplicit false

namespace Playback

namespace Json

inductive Shape where
  | free
  | number (lo hi : Nat)
  | optional (content : Shape)
  | items (item : Shape)
  | row (items : List Shape)
  | record (members : List (String × Shape))
  | variants (contents : List (String × Shape))

namespace Shape

/-- A value of this shape, as it is written, with every number in its bounds. -/
inductive Fits : Shape → Json → Prop where
  | null : Fits free .null
  | bool (b : Bool) : Fits free (.bool b)
  | name (content : Bytes) : Fits free (.string content)
  | number {lo hi n : Nat} : lo ≤ n → n ≤ hi → Fits (number lo hi) (.ofNat n)
  | absent {content : Shape} : Fits (optional content) .null
  | present {content : Shape} {json : Json} : Fits content json → Fits (optional content) json
  | items {item : Shape} {jsons : List Json} :
      (∀ json ∈ jsons, Fits item json) → Fits (items item) (.array jsons)
  | row {shapes : List Shape} {jsons : List Json} :
      List.Forall₂ Fits shapes jsons → Fits (row shapes) (.array jsons)
  | record {names : List String} {shapes : List Shape} {jsons : List Json} :
      List.Forall₂ Fits shapes jsons →
        Fits (record (names.zip shapes)) (Json.record (names.zip jsons))
  | variant {contents : List (String × Shape)} {name : String} {content : Shape} {json : Json} :
      (name, content) ∈ contents → Fits content json →
        Fits (variants contents) (.ofVariant name json)

/-- A value without the number at one of its places, which this shape bounds by `lo` and `hi`. Only
the way to that place is of this shape; what stands beside it is free. -/
inductive Hole (lo hi : Nat) : Shape → (Json → Json) → Prop where
  | here : Hole lo hi (number lo hi) fun json => json
  | present {content : Shape} {fill : Json → Json} :
      Hole lo hi content fill → Hole lo hi (optional content) fill
  | item {item : Shape} {fill : Json → Json} (before after : List Json) :
      Hole lo hi item fill →
        Hole lo hi (items item) fun json => .array (before ++ fill json :: after)
  | place {shapes : List Shape} {shape : Shape} {fill : Json → Json} (before after : List Json) :
      shapes[before.length]? = some shape → Hole lo hi shape fill →
        Hole lo hi (row shapes) fun json => .array (before ++ fill json :: after)
  | member {members : List (String × Shape)} {name : String} {shape : Shape} {fill : Json → Json}
      (before after : List (Bytes × Json)) :
      (name, shape) ∈ members → Hole lo hi shape fill →
        Hole lo hi (record members) fun json =>
          .object (before ++ (Bytes.ofText name, fill json) :: after)
  /-- Members may be given by their places alone. -/
  | position {members : List (String × Shape)} {name : String} {shape : Shape} {fill : Json → Json}
      (before after : List Json) :
      members[before.length]? = some (name, shape) → Hole lo hi shape fill →
        Hole lo hi (record members) fun json => .array (before ++ fill json :: after)
  | content {contents : List (String × Shape)} {name : String} {shape : Shape}
      {fill : Json → Json} : (name, shape) ∈ contents → Hole lo hi shape fill →
        Hole lo hi (variants contents) fun json => .ofVariant name (fill json)

/-- What is read has nothing but numbers within bounds at the holes of the shape, or else nothing
at all. -/
def Bounds {α : Type} (shape : Shape) (read : Json → Except Fault α) : Prop :=
  ∀ ⦃lo hi : Nat⦄ ⦃fill : Json → Json⦄ ⦃json : Json⦄ ⦃a : α⦄, Hole lo hi shape fill →
    json ≠ .null → read (fill json) = .ok a → ∃ n, lo ≤ n ∧ n ≤ hi ∧ json = ofNat n

end Shape

end Json

open Json (Shape)

class Shaped (α : Type) [Codec α] where
  shape : Shape
  fits : ∀ a : α, shape.Fits (Codec.encode a)
  bounds : shape.Bounds (Codec.decode : Json → Except Json.Fault α)

namespace Json

theorem Shape.bounds_free {α : Type} (read : Json → Except Fault α) : free.Bounds read :=
  nofun

/-- A type whose values are written as numbers within bounds, and are read from nothing else. -/
@[reducible] def shapedNumber {α : Type} [Codec α] [ExactCodec α] (lo hi : Nat) (number : α → Nat)
    (written : ∀ a : α, Codec.encode a = ofNat (number a))
    (within : ∀ a, lo ≤ number a ∧ number a ≤ hi) : Shaped α where
  shape := .number lo hi
  fits a := by
    rw [written a]
    exact .number (within a).1 (within a).2
  bounds _ _ _ _ a hole _ read := by
    cases hole
    exact ⟨number a, (within a).1, (within a).2, (ExactCodec.eq_encode read).trans (written a)⟩

instance : Shaped UInt8 := shapedNumber 0 0xff UInt8.toNat (fun _ => rfl) fun n =>
  ⟨Nat.zero_le _, Nat.le_of_lt_succ n.toNat_lt⟩

instance : Shaped UInt16 := shapedNumber 0 0xffff UInt16.toNat (fun _ => rfl) fun n =>
  ⟨Nat.zero_le _, Nat.le_of_lt_succ n.toNat_lt⟩

instance : Shaped UInt32 := shapedNumber 0 0xffffffff UInt32.toNat (fun _ => rfl) fun n =>
  ⟨Nat.zero_le _, Nat.le_of_lt_succ n.toNat_lt⟩

instance : Shaped UInt64 := shapedNumber 0 0xffffffffffffffff UInt64.toNat (fun _ => rfl) fun n =>
  ⟨Nat.zero_le _, Nat.le_of_lt_succ n.toNat_lt⟩

instance {kind : String} {size : Nat} [ExactCodec (Site kind size)] : Shaped (Site kind size) :=
  shapedNumber 0 (size - 1) Site.index (fun _ => rfl) fun site =>
    ⟨Nat.zero_le _, Nat.le_sub_one_of_lt site.index_lt⟩

instance {kind : String} {width lo hi : Nat} [ExactCodec (Field kind width lo hi)] :
    Shaped (Field kind width lo hi) :=
  shapedNumber lo hi Field.value (fun _ => rfl) fun field => ⟨field.lo_le, field.le_hi⟩

instance : Shaped Bool where
  shape := .free
  fits b := .bool b
  bounds := Shape.bounds_free _

instance : Shaped Unique where
  shape := .free
  fits _ := .null
  bounds := Shape.bounds_free _

theorem Shape.Hole.ne_null {lo hi : Nat} {shape : Shape} {fill : Json → Json} {json : Json}
    (hole : Hole lo hi shape fill) (given : json ≠ .null) : fill json ≠ .null := by
  induction hole with
  | here => exact given
  | present _ ih => exact ih
  | _ => nofun

instance {α : Type} [Codec α] [Shaped α] : Shaped (Option α) where
  shape := .optional (Shaped.shape α)
  fits
    | none => .absent
    | some a => .present (Shaped.fits a)
  bounds _ _ _ _ _ hole given read := by
    cases hole with
    | present inner =>
      rw [decode_some_eq_map (inner.ne_null given)] at read
      cases found : (Codec.decode _ : Except Fault α) with
      | error e =>
        rw [found] at read
        cases read
      | ok b => exact Shaped.bounds inner given found

theorem exists_decode_of_mapM {α : Type} [Codec α] {items : List Json} {row : List α}
    (read : items.mapM Codec.decode = (.ok row : Except Fault (List α))) :
    ∀ item ∈ items, ∃ a : α, Codec.decode item = .ok a := by
  induction items generalizing row with
  | nil => nofun
  | cons item rest ih =>
    rw [List.mapM_cons] at read
    obtain ⟨a, first, left⟩ := bind_eq_ok_iff.1 read
    obtain ⟨others, later, -⟩ := bind_eq_ok_iff.1 left
    exact List.forall_mem_cons.2 ⟨⟨a, first⟩, ih later⟩

theorem exists_decode_of_vector {α : Type} [Codec α] {n : Nat} {items : List Json}
    {row : Vector α n} (read : Codec.decode (.array items) = .ok row) :
    ∀ item ∈ items, ∃ a : α, Codec.decode item = .ok a := by
  obtain ⟨values, found, made⟩ := bind_eq_ok_iff.1 read
  split at made
  next whole =>
    rw [List.take_of_length_le (Nat.le_of_eq whole.2)] at found
    exact exists_decode_of_mapM found
  next => cases made

instance {α : Type} [Codec α] [Shaped α] {n : Nat} : Shaped (Vector α n) where
  shape := .items (Shaped.shape α)
  fits row := .items fun json written => by
    obtain ⟨a, -, rfl⟩ := List.mem_map.1 written
    exact Shaped.fits a
  bounds _ _ _ _ _ hole given read := by
    cases hole with
    | item before after inner =>
      obtain ⟨a, found⟩ := exists_decode_of_vector read _
        (List.mem_append_right _ List.mem_cons_self)
      exact Shaped.bounds inner given found

structure Member.HasShape {ρ : Type} (m : Member ρ) (shape : Shape) : Prop where
  fits : ∀ r, shape.Fits (m.get r)
  bounds : ∀ r, shape.Bounds fun json => m.put json r

@[simp] theorem Member.hasShape_of {ρ α : Type} [Codec α] [Shaped α] {name : String} {get : ρ → α}
    {set : α → ρ → ρ} : (Member.of name get set).HasShape (Shaped.shape α) where
  fits r := Shaped.fits (get r)
  bounds r := by
    intro lo hi fill json a hole given put
    obtain ⟨x, read, -⟩ := Member.put_of_eq_ok_iff.1 put
    exact Shaped.bounds hole given read

namespace RecordCodec

variable {ρ : Type} {codec : RecordCodec ρ}

def shape (codec : RecordCodec ρ) (shapes : List Shape) : Shape :=
  .record ((codec.members.map Member.name).zip shapes)

theorem exists_member_of_zip {members : List (Member ρ)} {shapes : List Shape}
    (each : List.Forall₂ Member.HasShape members shapes) {name : String} {shape : Shape}
    {i : Nat} (place : ((members.map Member.name).zip shapes)[i]? = some (name, shape)) :
    ∃ m, members[i]? = some m ∧ m.name = name ∧ m.HasShape shape := by
  induction each generalizing i with
  | nil => cases place
  | cons first _ ih =>
    cases i with
    | zero =>
      cases place
      exact ⟨_, rfl, rfl, first⟩
    | succ i => exact ih place

theorem Lawful.bounds (lawful : codec.Lawful) {shapes : List Shape}
    (each : List.Forall₂ Member.HasShape codec.members shapes) :
    (codec.shape shapes).Bounds codec.decode := by
  intro lo hi fill json r hole given read
  cases hole with
  | member before after known inner =>
    obtain ⟨i, place⟩ := List.mem_iff_getElem?.1 known
    obtain ⟨m, found, rfl, shaped⟩ := exists_member_of_zip each place
    obtain ⟨a, b, put⟩ := lawful.exists_put_of_readEntries (List.mem_of_getElem? found) read
    exact shaped.bounds a inner given put
  | position before after place inner =>
    obtain ⟨m, found, -, shaped⟩ := exists_member_of_zip each place
    obtain ⟨a, b, put⟩ := exists_put_of_readItems found read
    exact shaped.bounds a inner given put

theorem fits_encode {shapes : List Shape}
    (each : List.Forall₂ Member.HasShape codec.members shapes) (r : ρ) :
    (codec.shape shapes).Fits (codec.encode r) := by
  have written : codec.encode r = Json.record
      ((codec.members.map Member.name).zip (codec.members.map fun m => m.get r)) := by
    rw [List.zip_map']
    rfl
  rw [written]
  exact .record (List.forall₂_map_right_iff.2 (each.flip.imp fun _ _ shaped => shaped.fits r))

@[reducible] def Lawful.shaped (lawful : codec.Lawful) (shapes : List Shape)
    (each : List.Forall₂ Member.HasShape codec.members shapes) : @Shaped ρ codec.toCodec :=
  letI := codec.toCodec
  { shape := codec.shape shapes
    fits := fits_encode each
    bounds := lawful.bounds each }

end RecordCodec

end Json

end Playback
