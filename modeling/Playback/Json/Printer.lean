import Playback.Json.Basic
import Playback.Text.Numeral

/-! Writing a JSON document, on one line or with an indent of two blanks. -/

set_option autoImplicit false

namespace Playback.Json

structure Layout where
  /-- What comes before an item or a closing bracket at this depth. -/
  lineBreak : Nat → Bytes
  afterColon : Bytes

namespace Layout

def compact : Layout := ⟨fun _ => [], []⟩

def indented : Layout := ⟨fun depth => 0x0a :: List.replicate (2 * depth) 0x20, [0x20]⟩

end Layout

def escapeByte (b : UInt8) : Bytes :=
  match b with
  | 0x22 => Bytes.ofText "\\\""
  | 0x5c => Bytes.ofText "\\\\"
  | 0x08 => Bytes.ofText "\\b"
  | 0x09 => Bytes.ofText "\\t"
  | 0x0a => Bytes.ofText "\\n"
  | 0x0c => Bytes.ofText "\\f"
  | 0x0d => Bytes.ofText "\\r"
  | b => if b < 0x20 then Bytes.ofText ("\\u" ++ Numeral.padded 16 4 b.toNat) else [b]

def quoted (content : Bytes) : Bytes :=
  0x22 :: content.flatMap escapeByte ++ [0x22]

mutual

def render (layout : Layout) (depth : Nat) : Json → Bytes
  | .null => Bytes.ofText "null"
  | .bool true => Bytes.ofText "true"
  | .bool false => Bytes.ofText "false"
  | .integer n => Bytes.ofText (toString n)
  | .decimal lexeme => lexeme
  | .string content => quoted content
  | .array [] => Bytes.ofText "[]"
  | .array (item :: items) =>
    0x5b :: layout.lineBreak (depth + 1) ++ render layout (depth + 1) item
      ++ renderItems layout (depth + 1) items ++ layout.lineBreak depth ++ [0x5d]
  | .object [] => Bytes.ofText "\x7b\x7d"
  | .object ((name, value) :: entries) =>
    0x7b :: layout.lineBreak (depth + 1) ++ quoted name ++ 0x3a :: layout.afterColon
      ++ render layout (depth + 1) value ++ renderEntries layout (depth + 1) entries
      ++ layout.lineBreak depth ++ [0x7d]

def renderItems (layout : Layout) (depth : Nat) : List Json → Bytes
  | [] => []
  | item :: rest =>
    0x2c :: layout.lineBreak depth ++ render layout depth item ++ renderItems layout depth rest

def renderEntries (layout : Layout) (depth : Nat) : List (Bytes × Json) → Bytes
  | [] => []
  | (name, value) :: rest =>
    0x2c :: layout.lineBreak depth ++ quoted name ++ 0x3a :: layout.afterColon
      ++ render layout depth value ++ renderEntries layout depth rest

end

def compact (json : Json) : Bytes := render .compact 0 json

/-- The document with one line an item and an indent of two blanks. -/
def pretty (json : Json) : Bytes := render .indented 0 json

end Playback.Json
