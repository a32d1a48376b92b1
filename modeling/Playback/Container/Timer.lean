import Playback.Container.Tree

/-! The playback timers. Writing a timer restarts it at the written value. -/

set_option autoImplicit false

namespace Playback

structure Timer where
  value : TimerValue
  deriving DecidableEq, Repr, Inhabited

namespace Timer

def addresses (timer : TimerOnChip) : List Address :=
  [.ofNat .omnibus (0x00020000 + timer.index)]

def leaf : Leaf TimerOnChip Timer where
  name := "Timer"
  supported := [.omnibus]
  defaultBackend := .omnibus
  writeWords := 1
  readWords := 1
  writeAddresses timer _ := addresses timer
  readAddresses timer _ := addresses timer
  encode timer backend := wordsOf backend [timer.value.toNat]
  decode backend words _ := do
    return ⟨UInt32.ofNat (← rawWord "Timer" backend words)⟩
  timerReset value timer := some (timer, value.value)

def node : Node TimerOnChip Timer := leaf.node default

def record : Json.RecordCodec Timer where
  members := [.of "value" value fun value _ => ⟨value⟩]
  blank := default
  optional := false

end Timer

instance : Codec Timer := Timer.record.toCodec

end Playback
