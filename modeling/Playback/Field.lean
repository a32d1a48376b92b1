import Playback.Json.Codec

/-! Integers restricted to the range of a register field.

A field that is narrower than the integer it is given as holds only values that survive encoding and
decoding, by its two proofs.
-/

set_option autoImplicit false

namespace Playback

structure RangeError where
  kind : String
  value : Nat
  min : Nat
  max : Nat
  deriving DecidableEq, Repr

def RangeError.message (e : RangeError) : String :=
  s!"{e.kind} value {e.value} out of range {e.min}..={e.max}"

/-- An integer from `lo` to `hi`; it is given and stored as one of `width` bits. -/
structure Field (kind : String) (width lo hi : Nat) where
  value : Nat
  lo_le : lo ≤ value
  le_hi : value ≤ hi
  deriving DecidableEq, Repr

namespace Field

variable {kind : String} {width lo hi : Nat}

theorem value_inj {a b : Field kind width lo hi} : a.value = b.value ↔ a = b := by
  cases a
  cases b
  simp

def ofNat (n : Nat) : Except RangeError (Field kind width lo hi) :=
  if h : lo ≤ n ∧ n ≤ hi then .ok ⟨n, h.1, h.2⟩
  else .error { kind, value := n, min := lo, max := hi }

theorem ofNat_eq_ok_iff {n : Nat} {field : Field kind width lo hi} :
    ofNat n = .ok field ↔ field.value = n := by
  unfold ofNat
  split
  · rw [Except.ok.injEq, ← value_inj]
    exact eq_comm
  · have := field.lo_le
    have := field.le_hi
    simp only [reduceCtorEq, false_iff]
    omega

/-- The nearest value in range. -/
def saturate (n : Nat) (bounds : lo ≤ hi := by decide) : Field kind width lo hi :=
  ⟨max lo (min n hi), by omega, by omega⟩

def lowest (bounds : lo ≤ hi := by decide) : Field kind width lo hi :=
  ⟨lo, Nat.le_refl _, bounds⟩

def highest (bounds : lo ≤ hi := by decide) : Field kind width lo hi :=
  ⟨hi, bounds, Nat.le_refl _⟩

end Field

instance {kind : String} {width lo hi : Nat} : Codec (Field kind width lo hi) where
  encode field := .ofNat field.value
  decode json := do
    match Field.ofNat (← json.toNatBelow (1 <<< width)) with
    | .ok field => return field
    | .error e => .error (.bounds e.message)

end Playback
