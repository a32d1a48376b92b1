import Playback.Json.Basic

/-! Tokens of a JSON document.

`tokens?` cuts a document into its tokens and refuses one that holds anything else. Blanks between
tokens are the four of the format.
-/

set_option autoImplicit false

namespace Playback.Json

inductive Token where
  | leftBrace | rightBrace | leftBracket | rightBracket | comma | colon
  | null
  | bool (value : Bool)
  | integer (value : Int)
  | decimal (lexeme : Bytes)
  | string (content : Bytes)
  deriving DecidableEq

def isSpace (b : UInt8) : Bool :=
  b == 0x20 || b == 0x09 || b == 0x0a || b == 0x0d

def isDigit (b : UInt8) : Bool :=
  0x30 ≤ b && b ≤ 0x39

def digitsValue (digits : Bytes) : Nat :=
  digits.foldl (fun n d => 10 * n + (d.toNat - 0x30)) 0

/-- An optional part of a number that opens with one of `marks` and must hold digits. -/
def numberPart? (marks : List Char) (signed : Bool) (bytes : Bytes) : Option (Bytes × Bytes) :=
  match bytes with
  | [] => some ([], [])
  | mark :: rest =>
    if marks.contains (Char.ofUInt8 mark) then
      let (sign, body) : Bytes × Bytes := match rest with
        | 0x2b :: more => if signed then ([0x2b], more) else ([], rest)
        | 0x2d :: more => if signed then ([0x2d], more) else ([], rest)
        | _ => ([], rest)
      let (digits, tail) := body.span isDigit
      if digits.isEmpty then none else some (mark :: sign ++ digits, tail)
    else some ([], bytes)

/-- A number. One with a fraction or an exponent, and a negative zero, is no plain integer. -/
def number? (bytes : Bytes) : Option (Token × Bytes) := do
  let (sign, body) : Bytes × Bytes := match bytes with
    | 0x2d :: rest => ([0x2d], rest)
    | _ => ([], bytes)
  let (whole, tail) := body.span isDigit
  if whole.isEmpty || (whole.head? == some 0x30 && whole.length != 1) then none
  let (fraction, tail) ← numberPart? ['.'] false tail
  let (exponent, tail) ← numberPart? ['e', 'E'] true tail
  let value := digitsValue whole
  if fraction.isEmpty && exponent.isEmpty && (sign.isEmpty || value != 0) then
    some (.integer (if sign.isEmpty then value else -value), tail)
  else some (.decimal (sign ++ whole ++ fraction ++ exponent), tail)

/-- One element of a string: a byte as it stands, or a UTF-16 unit given by number. -/
inductive Piece where
  | byte (b : UInt8)
  | unit (u : Nat)
  deriving DecidableEq

def hexValue? (b : UInt8) : Option Nat :=
  if 0x30 ≤ b ∧ b ≤ 0x39 then some (b.toNat - 0x30)
  else if 0x61 ≤ b ∧ b ≤ 0x66 then some (b.toNat - 0x61 + 10)
  else if 0x41 ≤ b ∧ b ≤ 0x46 then some (b.toNat - 0x41 + 10)
  else none

def hexUnit? (a b c d : UInt8) : Option Nat := do
  let a ← hexValue? a
  let b ← hexValue? b
  let c ← hexValue? c
  let d ← hexValue? d
  return ((a * 16 + b) * 16 + c) * 16 + d

def escaped? (letter : Char) : Option UInt8 :=
  match letter with
  | '"' => some 0x22
  | '\\' => some 0x5c
  | '/' => some 0x2f
  | 'b' => some 0x08
  | 'f' => some 0x0c
  | 'n' => some 0x0a
  | 'r' => some 0x0d
  | 't' => some 0x09
  | _ => none

/-- The pieces of a string up to its closing quote, and what follows the quote. -/
def pieces? : Bytes → Option (List Piece × Bytes)
  | [] => none
  | 0x5c :: 0x75 :: a :: b :: c :: d :: rest => do
    let u ← hexUnit? a b c d
    let (more, tail) ← pieces? rest
    return (.unit u :: more, tail)
  | 0x5c :: letter :: rest => do
    let b ← escaped? (Char.ofUInt8 letter)
    let (more, tail) ← pieces? rest
    return (.byte b :: more, tail)
  | b :: rest =>
    if b = 0x22 then some ([], rest)
    else if b < 0x20 then none
    else do
      let (more, tail) ← pieces? rest
      return (.byte b :: more, tail)

/-- The bytes of a code point; a lone surrogate gets the three bytes of its pattern, which no text
holds. -/
def codeBytes (n : Nat) : Bytes :=
  if n < 0x80 then [UInt8.ofNat n]
  else if n < 0x800 then [UInt8.ofNat (0xc0 + n / 64), UInt8.ofNat (0x80 + n % 64)]
  else if n < 0x10000 then
    [UInt8.ofNat (0xe0 + n / 4096), UInt8.ofNat (0x80 + n / 64 % 64), UInt8.ofNat (0x80 + n % 64)]
  else
    [UInt8.ofNat (0xf0 + n / 262144), UInt8.ofNat (0x80 + n / 4096 % 64),
      UInt8.ofNat (0x80 + n / 64 % 64), UInt8.ofNat (0x80 + n % 64)]

def isHighSurrogate (u : Nat) : Bool := 0xd800 ≤ u && u < 0xdc00

def isLowSurrogate (u : Nat) : Bool := 0xdc00 ≤ u && u < 0xe000

/-- The bytes of a string: a high and a low surrogate in a row are one code point. -/
def pieceBytes : List Piece → Bytes
  | [] => []
  | .byte b :: rest => b :: pieceBytes rest
  | .unit high :: .unit low :: rest =>
    if isHighSurrogate high && isLowSurrogate low then
      codeBytes (0x10000 + (high - 0xd800) * 0x400 + (low - 0xdc00)) ++ pieceBytes rest
    else codeBytes high ++ pieceBytes (.unit low :: rest)
  | .unit u :: rest => codeBytes u ++ pieceBytes rest

def keyword? (tail : String) (token : Token) (rest : Bytes) : Option (Token × Bytes) :=
  let letters := Bytes.ofText tail
  if letters.isPrefixOf rest then some (token, rest.drop letters.length) else none

def token? (bytes : Bytes) : Option (Token × Bytes) :=
  match bytes with
  | [] => none
  | first :: rest =>
    match Char.ofUInt8 first with
    | '\x7b' => some (.leftBrace, rest)
    | '\x7d' => some (.rightBrace, rest)
    | '[' => some (.leftBracket, rest)
    | ']' => some (.rightBracket, rest)
    | ',' => some (.comma, rest)
    | ':' => some (.colon, rest)
    | 'n' => keyword? "ull" .null rest
    | 't' => keyword? "rue" (.bool true) rest
    | 'f' => keyword? "alse" (.bool false) rest
    | '"' => (pieces? rest).map fun (pieces, after) => (.string (pieceBytes pieces), after)
    | _ => number? bytes

/-- Takes at most `fuel` tokens; every one of them is at least one byte long. -/
def tokensWithin : Nat → Bytes → Option (List Token)
  | fuel, bytes =>
    match bytes.dropWhile isSpace with
    | [] => some []
    | b :: rest =>
      match fuel with
      | 0 => none
      | fuel + 1 => do
        let (token, after) ← token? (b :: rest)
        return token :: (← tokensWithin fuel after)

def tokens? (bytes : Bytes) : Option (List Token) :=
  tokensWithin bytes.length bytes

end Playback.Json
