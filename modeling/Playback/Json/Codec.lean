import Playback.Json.Basic

/-! Values of a type as JSON values.

A record is written as an object with its members in declaration order. It is read from an object,
in any order and beside unknown members, or from an array of its members in declaration order. A
member given twice is refused. A record of settings (`optional`) fills the members that are not
given from its blank value; any other record needs all of them.
-/

set_option autoImplicit false

namespace Playback

namespace Json

inductive Fault where
  | form
  /-- A number has the right form and lies outside the bounds of its type. -/
  | bounds (message : String)
  deriving DecidableEq, Repr

end Json

theorem bind_eq_ok_iff {ε α β : Type} {x : Except ε α} {f : α → Except ε β} {b : β} :
    x >>= f = .ok b ↔ ∃ a, x = .ok a ∧ f a = .ok b := by
  cases x with
  | error e => simp [bind, Except.bind]
  | ok a => simp [bind, Except.bind]

class Codec (α : Type) where
  encode : α → Json
  decode : Json → Except Json.Fault α

class LawfulCodec (α : Type) [Codec α] : Prop where
  decode_encode : ∀ a : α, Codec.decode (Codec.encode a) = .ok a

namespace Json

def toNatBelow (limit : Nat) : Json → Except Fault Nat
  | .integer n => if 0 ≤ n ∧ n < limit then .ok n.toNat else .error .form
  | _ => .error .form

theorem toNatBelow_ofNat {limit n : Nat} (h : n < limit) : toNatBelow limit (ofNat n) = .ok n := by
  simp [toNatBelow, ofNat, h]

instance : Codec Bool where
  encode := .bool
  decode
    | .bool b => .ok b
    | _ => .error .form

instance : Codec UInt8 where
  encode n := ofNat n.toNat
  decode json := return UInt8.ofNat (← json.toNatBelow 0x100)

instance : Codec UInt16 where
  encode n := ofNat n.toNat
  decode json := return UInt16.ofNat (← json.toNatBelow 0x10000)

instance : Codec UInt32 where
  encode n := ofNat n.toNat
  decode json := return UInt32.ofNat (← json.toNatBelow 0x100000000)

instance : Codec UInt64 where
  encode n := ofNat n.toNat
  decode json := return UInt64.ofNat (← json.toNatBelow 0x10000000000000000)

instance : Codec String where
  encode := ofText
  decode json :=
    match json.text? with
    | some text => .ok text
    | none => .error .form

instance {α : Type} [Codec α] : Codec (Option α) where
  encode
    | none => .null
    | some a => Codec.encode a
  decode
    | .null => .ok none
    | json => some <$> Codec.decode json

instance {α : Type} [Codec α] : Codec (List α) where
  encode items := .array (items.map Codec.encode)
  decode
    | .array items => items.mapM Codec.decode
    | _ => .error .form

/-- Exactly `n` items; the items are read before their number is checked. -/
def toVector {α : Type} [Codec α] (n : Nat) (items : List Json) : Except Fault (Vector α n) := do
  let values ← (items.take n).mapM Codec.decode
  if h : values.length = n ∧ items.length = n then
    return ⟨values.toArray, by simp [h.1]⟩
  else .error .form

instance {α : Type} [Codec α] {n : Nat} : Codec (Vector α n) where
  encode items := .array (items.toList.map Codec.encode)
  decode
    | .array items => toVector n items
    | _ => .error .form

instance : LawfulCodec Bool := ⟨fun _ => rfl⟩

instance : LawfulCodec UInt8 where
  decode_encode n := by
    have small : n.toNat < 0x100 := n.toNat_lt
    simp only [Codec.decode, Codec.encode]
    rw [toNatBelow_ofNat small]
    exact congrArg Except.ok UInt8.ofNat_toNat

instance : LawfulCodec UInt16 where
  decode_encode n := by
    have small : n.toNat < 0x10000 := n.toNat_lt
    simp only [Codec.decode, Codec.encode]
    rw [toNatBelow_ofNat small]
    exact congrArg Except.ok UInt16.ofNat_toNat

instance : LawfulCodec UInt32 where
  decode_encode n := by
    have small : n.toNat < 0x100000000 := n.toNat_lt
    simp only [Codec.decode, Codec.encode]
    rw [toNatBelow_ofNat small]
    exact congrArg Except.ok UInt32.ofNat_toNat

instance : LawfulCodec UInt64 where
  decode_encode n := by
    have small : n.toNat < 0x10000000000000000 := n.toNat_lt
    simp only [Codec.decode, Codec.encode]
    rw [toNatBelow_ofNat small]
    exact congrArg Except.ok UInt64.ofNat_toNat

instance : LawfulCodec String where
  decode_encode text := by
    simp [Codec.decode, Codec.encode, text?, ofText]

theorem mapM_decode_encode {α : Type} [Codec α] [LawfulCodec α] (items : List α) :
    ((items.map Codec.encode).mapM Codec.decode : Except Fault (List α)) = .ok items := by
  induction items with
  | nil => rfl
  | cons item rest ih =>
    simp [LawfulCodec.decode_encode, ih, bind, Except.bind, pure, Except.pure]

instance {α : Type} [Codec α] [LawfulCodec α] : LawfulCodec (List α) where
  decode_encode := mapM_decode_encode

instance {α : Type} [Codec α] [LawfulCodec α] {n : Nat} : LawfulCodec (Vector α n) where
  decode_encode items := by
    have whole : (items.toList.map Codec.encode).take n = items.toList.map Codec.encode :=
      List.take_of_length_le (by simp)
    simp only [Codec.decode, Codec.encode, toVector, whole, mapM_decode_encode]
    simp only [bind, Except.bind, pure, Except.pure, List.length_map, Vector.length_toList,
      and_self, ↓reduceDIte, Except.ok.injEq]
    exact Vector.toList_inj.1 rfl

structure Member (ρ : Type) where
  name : String
  get : ρ → Json
  put : Json → ρ → Except Fault ρ

def Member.of {ρ α : Type} [Codec α] (name : String) (get : ρ → α) (set : α → ρ → ρ) :
    Member ρ where
  name := name
  get record := Codec.encode (get record)
  put json record := return set (← Codec.decode json) record

structure RecordCodec (ρ : Type) where
  members : List (Member ρ)
  blank : ρ
  /-- Whether members that are not given keep their value in `blank`. -/
  optional : Bool

namespace RecordCodec

variable {ρ : Type}

def encode (codec : RecordCodec ρ) (record : ρ) : Json :=
  Json.record (codec.members.map fun m => (m.name, m.get record))

/-- Reads the entries of an object in order; `given` are the names of the members read so far. -/
def readEntries (codec : RecordCodec ρ) :
    List (Bytes × Json) → List String → ρ → Except Fault ρ
  | [], given, record =>
    if codec.optional || codec.members.all fun m => given.contains m.name then .ok record
    else .error .form
  | (name, value) :: rest, given, record =>
    match Bytes.text? name with
    | none => .error .form
    | some name =>
      match codec.members.find? fun m => m.name == name with
      | none => codec.readEntries rest given record
      | some m =>
        if given.contains name then .error .form
        else do
          let record ← m.put value record
          codec.readEntries rest (name :: given) record

def readItems (optional : Bool) : List (Member ρ) → List Json → ρ → Except Fault ρ
  | [], [], record => .ok record
  | [], _ :: _, _ => .error .form
  | _ :: _, [], record => if optional then .ok record else .error .form
  | m :: members, item :: rest, record => do
    let record ← m.put item record
    readItems optional members rest record

def decode (codec : RecordCodec ρ) : Json → Except Fault ρ
  | .object entries => codec.readEntries entries [] codec.blank
  | .array items => readItems codec.optional codec.members items codec.blank
  | _ => .error .form

@[reducible] def toCodec (codec : RecordCodec ρ) : Codec ρ :=
  ⟨codec.encode, codec.decode⟩

end RecordCodec

/-- A variant: its name alone, or an object whose one entry is its name and its content. -/
def toVariant : Json → Except Fault (String × Option Json)
  | .string name =>
    match Bytes.text? name with
    | some name => .ok (name, none)
    | none => .error .form
  | .object [(name, content)] =>
    match Bytes.text? name with
    | some name => .ok (name, some content)
    | none => .error .form
  | _ => .error .form

def toEmptyVariant : Option Json → Except Fault Unit
  | none | some .null => .ok ()
  | _ => .error .form

def toNamed {α : Type} (variants : List (String × α)) (json : Json) : Except Fault α := do
  let (name, content) ← json.toVariant
  match variants.lookup name with
  | some a => do
    toEmptyVariant content
    return a
  | none => .error .form

def toContent {α : Type} [Codec α] : Option Json → Except Fault α
  | some json => Codec.decode json
  | none => .error .form

def toPair {α β : Type} [Codec α] [Codec β] : Option Json → Except Fault (α × β)
  | some (.array (first :: rest)) => do
    let a ← Codec.decode first
    match rest with
    | [] => .error .form
    | second :: rest =>
      let b ← Codec.decode second
      if rest.isEmpty then return (a, b) else .error .form
  | _ => .error .form

def ofVariant (name : String) (content : Json) : Json :=
  record [(name, content)]

end Json

end Playback
