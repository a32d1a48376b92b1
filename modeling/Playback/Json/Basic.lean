import Playback.Bytes

/-! JSON values as they stand in a document.

A string is kept as its bytes after the escapes are resolved, since a document may hold strings that
name no text (a lone surrogate, bytes that are not UTF-8) and still be a document. An object keeps
its entries in order, repeated names included. A number that is not written as a plain integer keeps
its lexeme.
-/

set_option autoImplicit false

namespace Playback

inductive Json where
  | null
  | bool (value : Bool)
  | integer (value : Int)
  | decimal (lexeme : Bytes)
  | string (content : Bytes)
  | array (items : List Json)
  | object (entries : List (Bytes × Json))

namespace Json

instance : Inhabited Json := ⟨.null⟩

def ofText (text : String) : Json := .string (Bytes.ofText text)

def ofNat (n : Nat) : Json := .integer n

def record (members : List (String × Json)) : Json :=
  .object (members.map fun (name, value) => (Bytes.ofText name, value))

def text? : Json → Option String
  | .string content => Bytes.text? content
  | _ => none

def get? (json : Json) (name : String) : Option Json :=
  match json with
  | .object entries => (entries.find? fun entry => entry.1 == Bytes.ofText name).map Prod.snd
  | _ => none

def nameBefore : Bytes → Bytes → Bool
  | _, [] => false
  | [], _ :: _ => true
  | a :: as, b :: bs => if a = b then nameBefore as bs else a < b

/-- Adds an entry to a list with ascending distinct names; an entry of the same name gives way. -/
def insertEntry (name : Bytes) (value : Json) : List (Bytes × Json) → List (Bytes × Json)
  | [] => [(name, value)]
  | (other, old) :: rest =>
    if name = other then (name, value) :: rest
    else if nameBefore name other then (name, value) :: (other, old) :: rest
    else (other, old) :: insertEntry name value rest

def sortEntries (entries : List (Bytes × Json)) : List (Bytes × Json) :=
  entries.foldl (fun sorted (name, value) => insertEntry name value sorted) []

mutual

/-- The value read as a tree: every object has ascending names, and of a repeated name the last
entry. -/
def canonical : Json → Json
  | .array items => .array (canonicalItems items)
  | .object entries => .object (sortEntries (canonicalEntries entries))
  | other => other

def canonicalItems : List Json → List Json
  | [] => []
  | item :: rest => item.canonical :: canonicalItems rest

def canonicalEntries : List (Bytes × Json) → List (Bytes × Json)
  | [] => []
  | (name, value) :: rest => (name, value.canonical) :: canonicalEntries rest

end

end Json

end Playback
