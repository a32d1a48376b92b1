import Playback.Json.Token

/-! Reading a JSON document. A document is one value and nothing else; nesting has no limit. -/

set_option autoImplicit false

namespace Playback.Json

mutual

/-- The value at the front of `tokens`. A value nests at most as deep as it has tokens. -/
def value? : Nat → List Token → Option (Json × List Token)
  | 0, _ => none
  | _ + 1, [] => none
  | fuel + 1, token :: rest =>
    match token with
    | .null => some (.null, rest)
    | .bool b => some (.bool b, rest)
    | .integer n => some (.integer n, rest)
    | .decimal lexeme => some (.decimal lexeme, rest)
    | .string content => some (.string content, rest)
    | .leftBracket =>
      match rest with
      | .rightBracket :: after => some (.array [], after)
      | _ => (items? fuel rest).map fun (items, after) => (.array items, after)
    | .leftBrace =>
      match rest with
      | .rightBrace :: after => some (.object [], after)
      | _ => (entries? fuel rest).map fun (entries, after) => (.object entries, after)
    | .rightBrace | .rightBracket | .comma | .colon => none

def items? : Nat → List Token → Option (List Json × List Token)
  | 0, _ => none
  | fuel + 1, tokens => do
    let (item, rest) ← value? fuel tokens
    match rest with
    | .comma :: rest =>
      let (items, after) ← items? fuel rest
      some (item :: items, after)
    | .rightBracket :: after => some ([item], after)
    | _ => none

def entries? : Nat → List Token → Option (List (Bytes × Json) × List Token)
  | 0, _ => none
  | fuel + 1, tokens =>
    match tokens with
    | .string name :: .colon :: rest => do
      let (value, rest) ← value? fuel rest
      match rest with
      | .comma :: rest =>
        let (entries, after) ← entries? fuel rest
        some ((name, value) :: entries, after)
      | .rightBrace :: after => some ([(name, value)], after)
      | _ => none
    | _ => none

end

def ofTokens? (tokens : List Token) : Option Json :=
  match value? tokens.length tokens with
  | some (json, []) => some json
  | _ => none

def parse? (bytes : Bytes) : Option Json :=
  (tokens? bytes).bind ofTokens?

end Playback.Json
