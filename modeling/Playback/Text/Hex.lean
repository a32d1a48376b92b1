import Playback.Bytes

/-! Byte strings as lower-case hexadecimal text, two digits a byte. -/

set_option autoImplicit false

namespace Playback.Hex

def ofByte (b : UInt8) : List Char :=
  [Nat.digitChar (b.toNat / 16), Nat.digitChar (b.toNat % 16)]

def ofBytes (bytes : Bytes) : String :=
  String.ofList (bytes.flatMap ofByte)

def digitValue? (c : Char) : Option Nat :=
  if '0' ≤ c ∧ c ≤ '9' then some (c.toNat - '0'.toNat)
  else if 'a' ≤ c ∧ c ≤ 'f' then some (c.toNat - 'a'.toNat + 10)
  else if 'A' ≤ c ∧ c ≤ 'F' then some (c.toNat - 'A'.toNat + 10)
  else none

def bytesOf? : List Char → Option Bytes
  | [] => some []
  | [_] => none
  | high :: low :: rest => do
    let h ← digitValue? high
    let l ← digitValue? low
    return UInt8.ofNat (16 * h + l) :: (← bytesOf? rest)

/-- The bytes written by pairs of digits; `none` for an odd number of digits or any
other character. -/
def toBytes? (text : String) : Option Bytes :=
  bytesOf? text.toList

theorem digitValue?_digitChar : ∀ n < 16, digitValue? (Nat.digitChar n) = some n := by
  decide

theorem bytesOf?_flatMap_ofByte (bytes : Bytes) : bytesOf? (bytes.flatMap ofByte) = some bytes := by
  induction bytes with
  | nil => rfl
  | cons b rest ih =>
    have bound := b.toNat_lt
    have high := digitValue?_digitChar (b.toNat / 16) (by omega)
    have low := digitValue?_digitChar (b.toNat % 16) (by omega)
    have whole : 16 * (b.toNat / 16) + b.toNat % 16 = b.toNat := by omega
    simp only [List.flatMap_cons, ofByte, List.cons_append, List.nil_append, bytesOf?, high, low,
      ih, whole, Option.bind_eq_bind, Option.bind_some, UInt8.ofNat_toNat]
    rfl

@[simp] theorem toBytes?_ofBytes (bytes : Bytes) : toBytes? (ofBytes bytes) = some bytes := by
  simp [toBytes?, ofBytes, bytesOf?_flatMap_ofByte]

end Playback.Hex
