import Playback.Json.Parser
import Playback.Json.Printer
import Playback.Json.Codec
import Playback.Text.Quoted

/-! Stores of configuration values.

A store keeps one byte string a key. A value is kept as an indented JSON document; a missing or an
empty one stands for no value. Every operation gives the store afterwards, because a store may count
its calls.
-/

set_option autoImplicit false

namespace Playback

inductive StoreError where
  | notFound
  | invalidKey (key : String)
  | io
  | malformed
  | other (detail : String)
  deriving DecidableEq, Repr

namespace StoreError

def cause : StoreError → String
  | notFound => "NotFound"
  | invalidKey _ => "InvalidKey"
  | io => "Io"
  | malformed => "Serde"
  | other _ => "Other"

/-- What is known of the cause. The file system and the reader of documents say nothing. -/
def message? : StoreError → Option String
  | notFound => some "not found"
  | invalidKey key => some ("invalid config key " ++ Quoted.quote key)
  | io | malformed => none
  | other detail => some ("other: " ++ detail)

end StoreError

class Store (σ : Type) where
  load : String → σ → Except StoreError Bytes × σ
  save : String → Bytes → σ → Except StoreError Unit × σ

namespace Store

variable {σ α : Type} [Store σ] [Codec α]

def decodeDocument (bytes : Bytes) : Except StoreError α :=
  match Json.parse? bytes with
  | none => .error .malformed
  | some json => (Codec.decode json).mapError fun _ => .malformed

def loadValue? (key : String) (store : σ) : Except StoreError (Option α) × σ :=
  match load key store with
  | (.ok [], store) => (.ok none, store)
  | (.ok bytes, store) => ((decodeDocument bytes).map some, store)
  | (.error .notFound, store) => (.ok none, store)
  | (.error e, store) => (.error e, store)

def loadValueOr (fallback : α) (key : String) (store : σ) : Except StoreError α × σ :=
  let (found, store) := loadValue? key store
  (found.map fun value => value.getD fallback, store)

def saveValue (key : String) (value : α) (store : σ) : Except StoreError Unit × σ :=
  save key (Json.pretty (Codec.encode value)) store

end Store

end Playback
