import Playback.Register.Backend
import Playback.Text.Numeral

/-! Addresses, words and single register writes.

Addresses and words carry their backend in the constructor. A write is formed only from an address
and a word of the same backend (`WriteAccess.pair?_eq_some_iff`).
-/

set_option autoImplicit false

namespace Playback

inductive Address where
  | omnibus (address : UInt32)
  | jtag (register : UInt16)
  deriving DecidableEq, Repr, Inhabited

namespace Address

def backend : Address → Backend
  | omnibus _ => .omnibus
  | jtag _ => .jtag

/-- The address of a raw number; a backend keeps as many low bits as it has. -/
def ofNat (backend : Backend) (raw : Nat) : Address :=
  match backend with
  | .omnibus => omnibus (UInt32.ofNat raw)
  | .jtag => jtag (UInt16.ofNat raw)

@[simp] theorem backend_ofNat (b : Backend) (raw : Nat) : (ofNat b raw).backend = b := by
  cases b <;> rfl

def text : Address → String
  | omnibus a => "omnibus:" ++ Numeral.hex 8 a.toNat
  | jtag r => "jtag:" ++ Numeral.hex 4 r.toNat

end Address

instance : Codec Address where
  encode
    | .omnibus a => .ofVariant "Omnibus" (Codec.encode a)
    | .jtag r => .ofVariant "Jtag" (Codec.encode r)
  decode json := do
    match ← json.toVariant with
    | ("Omnibus", content) => return .omnibus (← Json.toContent content)
    | ("Jtag", content) => return .jtag (← Json.toContent content)
    | _ => .error .form

inductive Word where
  | omnibus (bits : UInt32)
  | jtag (bits : UInt64)
  deriving DecidableEq, Repr, Inhabited

namespace Word

def backend : Word → Backend
  | omnibus _ => .omnibus
  | jtag _ => .jtag

def ofNat (backend : Backend) (raw : Nat) : Word :=
  match backend with
  | .omnibus => omnibus (UInt32.ofNat raw)
  | .jtag => jtag (UInt64.ofNat raw)

def raw : Word → Nat
  | omnibus w => w.toNat
  | jtag w => w.toNat

@[simp] theorem backend_ofNat (b : Backend) (raw : Nat) : (ofNat b raw).backend = b := by
  cases b <;> rfl

theorem raw_ofNat_of_lt {b : Backend} {n : Nat} (h : n < 0x100000000) : (ofNat b n).raw = n := by
  cases b
  · exact UInt32.toNat_ofNat_of_lt' h
  · exact UInt64.toNat_ofNat_of_lt' (Nat.lt_trans h (by decide))

theorem ofNat_raw (w : Word) : ofNat w.backend w.raw = w := by
  cases w <;> simp [ofNat, raw, backend]

def text : Word → String
  | omnibus w => Numeral.hex 8 w.toNat
  | jtag w => Numeral.hex 16 w.toNat

end Word

instance : Codec Word where
  encode
    | .omnibus w => .ofVariant "Omnibus" (Codec.encode w)
    | .jtag w => .ofVariant "Jtag" (Codec.encode w)
  decode json := do
    match ← json.toVariant with
    | ("Omnibus", content) => return .omnibus (← Json.toContent content)
    | ("Jtag", content) => return .jtag (← Json.toContent content)
    | _ => .error .form

inductive WriteAccess where
  | omnibus (address : UInt32) (bits : UInt32)
  | jtag (register : UInt16) (bits : UInt64)
  deriving DecidableEq, Repr, Inhabited

namespace WriteAccess

def pair? : Address → Word → Option WriteAccess
  | .omnibus a, .omnibus w => some (omnibus a w)
  | .jtag r, .jtag w => some (jtag r w)
  | _, _ => none

def address : WriteAccess → Address
  | omnibus a _ => .omnibus a
  | jtag r _ => .jtag r

def word : WriteAccess → Word
  | omnibus _ w => .omnibus w
  | jtag _ w => .jtag w

def backend (access : WriteAccess) : Backend :=
  access.address.backend

theorem pair?_eq_some_iff {a : Address} {w : Word} {access : WriteAccess} :
    pair? a w = some access ↔ access.address = a ∧ access.word = w := by
  cases a <;> cases w <;> cases access <;> simp [pair?, address, word, eq_comm]

theorem pair?_isSome_iff {a : Address} {w : Word} :
    (pair? a w).isSome ↔ a.backend = w.backend := by
  cases a <;> cases w <;> simp [pair?, Address.backend, Word.backend]

end WriteAccess

instance : Codec WriteAccess where
  encode
    | .omnibus a w => .ofVariant "Omnibus" (.array [Codec.encode a, Codec.encode w])
    | .jtag r w => .ofVariant "Jtag" (.array [Codec.encode r, Codec.encode w])
  decode json := do
    match ← json.toVariant with
    | ("Omnibus", content) =>
      let (a, w) ← Json.toPair content
      return .omnibus a w
    | ("Jtag", content) =>
      let (r, w) ← Json.toPair content
      return .jtag r w
    | _ => .error .form

end Playback
