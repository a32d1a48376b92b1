import Playback.Text.Numeral
import Playback.Text.Unprintable

/-! Texts in double quotes, as error messages show them. -/

set_option autoImplicit false

namespace Playback.Quoted

/-- One character between double quotes: the named escapes first, then unprintable characters by
number. -/
def escape (c : Char) : String :=
  match c with
  | '\x00' => "\\0"
  | '\t' => "\\t"
  | '\n' => "\\n"
  | '\x0d' => "\\r"
  | '"' => "\\\""
  | '\\' => "\\\\"
  | c => if isUnprintable c then "\\u\x7b" ++ Numeral.padded 16 1 c.toNat ++ "\x7d" else c.toString

def quote (text : String) : String :=
  "\"" ++ String.join (text.toList.map escape) ++ "\""

end Playback.Quoted
