import Playback.Text.Numeral

/-! Spans of time. Everywhere in the library a span is a number of nanoseconds. -/

set_option autoImplicit false

namespace Playback.Duration

def ofMicroseconds (us : Nat) : Nat := us * 1000

def ofMilliseconds (ms : Nat) : Nat := ms * 1000000

def ofSeconds (s : Nat) : Nat := s * 1000000000

/-- `d` in a unit of as many nanoseconds as a one with `places` zeros, without zeros at the end of
the fraction. -/
def decimal (d unit places : Nat) : String :=
  let digits := (Nat.toDigits 10 (d % unit)).leftpad places '0'
  match (digits.reverse.dropWhile (· == '0')).reverse with
  | [] => toString (d / unit)
  | fraction => toString (d / unit) ++ "." ++ String.ofList fraction

/-- The span in the largest unit that leaves a nonzero integer part. -/
def text (d : Nat) : String :=
  if ofSeconds 1 ≤ d then decimal d (ofSeconds 1) 9 ++ "s"
  else if ofMilliseconds 1 ≤ d then decimal d (ofMilliseconds 1) 6 ++ "ms"
  else if ofMicroseconds 1 ≤ d then decimal d (ofMicroseconds 1) 3 ++ "µs"
  else toString d ++ "ns"

example : text 1500 = "1.5µs" ∧ text 10000000 = "10ms" ∧ text 0 = "0ns" := by decide

end Playback.Duration
