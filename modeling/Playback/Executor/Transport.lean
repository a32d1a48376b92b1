import Playback.Bytes
import Playback.Exception
import Playback.Register.Backend

/-! The link to a board. Calls are made one after another; each gives the link afterwards. -/

set_option autoImplicit false

namespace Playback

inductive TransportError where
  | io (detail : String)
  | rejected (operation detail : String)
  | disconnected
  deriving DecidableEq, Repr

def TransportError.cause : TransportError → String
  | io _ => "Io"
  | rejected .. => "Rejected"
  | disconnected => "Disconnected"

def TransportError.message : TransportError → String
  | io detail => s!"link i/o error: {detail}"
  | rejected operation detail => s!"board rejected {operation}: {detail}"
  | disconnected => "link disconnected"

class Transport (T : Type) where
  kind : T → ExecutorKind
  /-- Replaces program memory by the blocks, in order. -/
  transmit : List Bytes → T → Except TransportError Unit × T
  chipInReset : T → Except TransportError Bool × T
  trigger : T → Except TransportError Unit × T
  pollStatus : T → Except TransportError Bool × T
  readExceptionFlags : T → Except TransportError ExceptionFlags × T
  /-- The number of bytes that the last run wrote to result memory. -/
  readResultSize : T → Except TransportError Nat × T
  maxResultSize : T → Nat
  bulkRead : (offset length : Nat) → T → Except TransportError Bytes × T

end Playback
