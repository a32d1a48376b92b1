/-! Numerals: hexadecimal and binary texts with a fixed number of places, and right-aligned
decimals. -/

set_option autoImplicit false

namespace Playback.Numeral

/-- Digits of `n` in lower case, filled with zeros on the left to at least `places`. -/
def padded (base places n : Nat) : String :=
  String.ofList ((Nat.toDigits base n).leftpad places '0')

def hex (places n : Nat) : String :=
  "0x" ++ padded 16 places n

def binary (places n : Nat) : String :=
  "0b" ++ padded 2 places n

def aligned (width n : Nat) : String :=
  String.ofList ((Nat.toDigits 10 n).leftpad width ' ')

example : hex 4 0x40 = "0x0040" ∧ hex 0 1024 = "0x400" ∧ hex 2 300 = "0x12c" := by decide

example : binary 3 1 = "0b001" ∧ binary 3 255 = "0b11111111" := by decide

end Playback.Numeral
