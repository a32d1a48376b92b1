import Playback.Container.Spike
import Playback.Container.Timer
import Playback.Program.Builder

/-! Small programs that exercise a chip: writing a value and reading it back, and injecting spikes.
-/

set_option autoImplicit false

namespace Playback.Stimulus

/-- How far the first timer runs after a value was read back. -/
def readBackWait : TimerValue := 1000

def writeReadWait {C V : Type} (node : Node C V) (coord : C) (value : V) (ticket : TicketId) :
    Except BuildError Builder := do
  let b ← Builder.write node coord value none {}
  let b ← b.read node coord none ticket
  b.waitUntil (.first Nat.zero_lt_two) readBackWait

/-- The size of the pack at a place: the pattern goes round and its entries are brought into the
range from one to three. An empty pattern asks for packs of one. -/
def packSize (pattern : List Nat) (place : Nat) : Nat :=
  min spikePackSizes (max 1 ((pattern[place % pattern.length]?).getD 1))

theorem packSize_pos (pattern : List Nat) (place : Nat) : 0 < packSize pattern place := by
  simp only [packSize, spikePackSizes]
  omega

/-- The labels in packs from a place in the pattern on; the last pack may be smaller. -/
def packs (pattern : List Nat) (place : Nat) (labels : List SpikeLabel) : List (List SpikeLabel) :=
  match labels with
  | [] => []
  | label :: rest =>
    (label :: rest).take (packSize pattern place)
      :: packs pattern (place + 1) ((label :: rest).drop (packSize pattern place))
termination_by labels.length
decreasing_by
  have := packSize_pos pattern place
  simp only [List.length_drop, List.length_cons]
  omega

theorem flatten_packs (pattern : List Nat) (place : Nat) (labels : List SpikeLabel) :
    (packs pattern place labels).flatten = labels := by
  fun_induction packs pattern place labels with
  | case1 => rfl
  | case2 place label rest ih => rw [List.flatten_cons, ih, List.take_append_drop]

def writePack (labels : List SpikeLabel) (b : Builder) : Except BuildError Builder :=
  b.write (SpikePack.node labels.length) ⟨⟩ ⟨⟨labels.toArray, List.size_toArray⟩⟩ none

def spikeInjection (labels : List SpikeLabel) (pattern : List Nat) : Except BuildError Builder := do
  let b ← Builder.write Timer.node (.first Nat.zero_lt_two) default none {}
  (packs pattern 0 labels).foldlM (fun b pack => writePack pack b) b

end Playback.Stimulus
