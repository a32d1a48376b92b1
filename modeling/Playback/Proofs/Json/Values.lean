import Playback.Coordinate
import Playback.Field
import Playback.Proofs.Json.Records

/-! What the values that records are made of are read from.

An exact codec reads nothing but what it writes: a number has one form, and no number outside the
bounds of its type has any. Variants without content are not exact, since their names may also stand
beside an empty content.
-/

set_option autoImplicit false

namespace Playback

class ExactCodec (α : Type) [Codec α] : Prop extends DocumentCodec α where
  eq_encode : ∀ {json : Json} {a : α}, Codec.decode json = .ok a → json = Codec.encode a

theorem ExactCodec.decode_eq_ok_iff {α : Type} [Codec α] [ExactCodec α] {json : Json} {a : α} :
    Codec.decode json = .ok a ↔ json = Codec.encode a := by
  constructor
  · exact eq_encode
  · rintro rfl
    exact LawfulCodec.decode_encode a

namespace Json

theorem toNatBelow_eq_ok_iff {limit n : Nat} {json : Json} :
    toNatBelow limit json = .ok n ↔ n < limit ∧ json = ofNat n := by
  constructor
  · intro read
    cases json with
    | integer i =>
      simp only [toNatBelow] at read
      split at read
      next bounds =>
        cases read
        have whole : ((i.toNat : Nat) : Int) = i := Int.toNat_of_nonneg bounds.1
        exact ⟨by omega, by rw [ofNat, whole]⟩
      next => cases read
    | _ => cases read
  · rintro ⟨small, rfl⟩
    exact toNatBelow_ofNat small

theorem eq_ofNat_of_read {α : Type} {limit : Nat} {make : Nat → α} {number : α → Nat}
    (back : ∀ n, n < limit → number (make n) = n) {json : Json} {a : α}
    (read : (do return make (← json.toNatBelow limit)) = (.ok a : Except Fault α)) :
    json = ofNat (number a) := by
  obtain ⟨n, found, made⟩ := bind_eq_ok_iff.1 read
  obtain ⟨small, rfl⟩ := toNatBelow_eq_ok_iff.1 found
  rw [← Except.ok.inj made, back n small]

instance : ExactCodec UInt8 where
  plain _ := .integer _
  eq_encode := eq_ofNat_of_read fun _ => UInt8.toNat_ofNat_of_lt'

instance : ExactCodec UInt16 where
  plain _ := .integer _
  eq_encode := eq_ofNat_of_read fun _ => UInt16.toNat_ofNat_of_lt'

instance : ExactCodec UInt32 where
  plain _ := .integer _
  eq_encode := eq_ofNat_of_read fun _ => UInt32.toNat_ofNat_of_lt'

instance : ExactCodec UInt64 where
  plain _ := .integer _
  eq_encode := eq_ofNat_of_read fun _ => UInt64.toNat_ofNat_of_lt'

instance : ExactCodec Bool where
  plain b := .bool b
  eq_encode {json a} read := by
    cases json with
    | bool b => exact congrArg Json.bool (Except.ok.inj read)
    | _ => cases read

theorem exactCodec_site {kind : String} {size : Nat} (small : size ≤ 0x10000) :
    ExactCodec (Site kind size) where
  decode_encode site := by
    have bound : site.index < 0x10000 := Nat.lt_of_lt_of_le site.index_lt small
    simp only [Codec.decode, Codec.encode]
    rw [toNatBelow_ofNat bound]
    simp [Site.ofIndex_eq_ok_iff.2 rfl, bind, Except.bind, pure, Except.pure]
  plain _ := .integer _
  eq_encode {json site} read := by
    obtain ⟨n, found, made⟩ := bind_eq_ok_iff.1 read
    obtain ⟨-, rfl⟩ := toNatBelow_eq_ok_iff.1 found
    split at made
    next other named =>
      cases made
      exact congrArg ofNat (Site.ofIndex_eq_ok_iff.1 named).symm
    next => cases made

instance : ExactCodec TimerOnChip := exactCodec_site (by decide)
instance : ExactCodec SynramOnChip := exactCodec_site (by decide)
instance : ExactCodec NeuronOnChip := exactCodec_site (by decide)
instance : ExactCodec SynapseRowOnChip := exactCodec_site (by decide)
instance : ExactCodec SynapseQuadColumn := exactCodec_site (by decide)
instance : ExactCodec AdpllOnChip := exactCodec_site (by decide)

theorem exactCodec_field {kind : String} {width lo hi : Nat} (fits : hi < 1 <<< width) :
    ExactCodec (Field kind width lo hi) where
  decode_encode field := by
    have bound : field.value < 1 <<< width := Nat.lt_of_le_of_lt field.le_hi fits
    simp only [Codec.decode, Codec.encode]
    rw [toNatBelow_ofNat bound]
    simp [Field.ofNat_eq_ok_iff.2 rfl, bind, Except.bind, pure, Except.pure]
  plain _ := .integer _
  eq_encode {json field} read := by
    obtain ⟨n, found, made⟩ := bind_eq_ok_iff.1 read
    obtain ⟨-, rfl⟩ := toNatBelow_eq_ok_iff.1 found
    split at made
    next other named =>
      cases made
      exact congrArg ofNat (Field.ofNat_eq_ok_iff.1 named).symm
    next => cases made

theorem decode_some_eq_map {α : Type} [Codec α] {json : Json} (given : json ≠ .null) :
    (Codec.decode json : Except Fault (Option α)) = some <$> Codec.decode json := by
  cases json with
  | null => exact absurd rfl given
  | _ => rfl

theorem exactCodec_option {α : Type} [Codec α] [ExactCodec α]
    (given : ∀ a : α, Codec.encode a ≠ .null) : ExactCodec (Option α) where
  decode_encode
    | none => rfl
    | some a => by
      change Codec.decode (Codec.encode a) = _
      rw [decode_some_eq_map (given a), LawfulCodec.decode_encode a]
      rfl
  plain
    | none => .null
    | some a => DocumentCodec.plain a
  eq_encode {json a} read := by
    by_cases empty : json = .null
    · subst empty
      cases read
      rfl
    · rw [decode_some_eq_map empty] at read
      cases found : (Codec.decode json : Except Fault α) with
      | error e =>
        rw [found] at read
        cases read
      | ok b =>
        rw [found] at read
        cases read
        exact (ExactCodec.eq_encode found : json = Codec.encode b)

instance : ExactCodec (Option UInt64) := exactCodec_option nofun

instance {α : Type} [Codec α] [DocumentCodec α] {n : Nat} : DocumentCodec (Vector α n) where
  plain items := .array fun item written => by
    obtain ⟨a, -, rfl⟩ := List.mem_map.1 written
    exact DocumentCodec.plain a

end Json

end Playback
