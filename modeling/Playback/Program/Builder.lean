import Playback.Instruction
import Playback.Program.Slot

/-! Building programs.

A builder appends: every call adds instructions behind those of earlier calls, or fails and adds
nothing. For each timer it keeps a watermark, the value of the last wait on the timer or of the last
write that restarted it, so that waits on one timer never go backwards. The leading wait of a timer
is the first wait that nothing earlier in the builder covers; it is compared when the builder is
merged behind another.
-/

set_option autoImplicit false

namespace Playback

abbrev TimerTable := Vector (Option TimerValue) 2

namespace TimerTable

def get (table : TimerTable) (timer : TimerOnChip) : Option TimerValue :=
  timer.entry table

def set (table : TimerTable) (timer : TimerOnChip) (value : TimerValue) : TimerTable :=
  timer.setEntry (some value) table

/-- The values of the second table where there are some, else those of the first. -/
def overlay (lower upper : TimerTable) : TimerTable :=
  Vector.zipWith (fun below above => above.or below) lower upper

theorem get_set (table : TimerTable) (timer other : TimerOnChip) (value : TimerValue) :
    (table.set timer value).get other = if other = timer then some value else table.get other := by
  rw [get, set, Site.entry_setEntry]
  rfl

theorem get_overlay (lower upper : TimerTable) (timer : TimerOnChip) :
    (overlay lower upper).get timer = (upper.get timer).or (lower.get timer) := by
  simp [get, overlay, Site.entry]

end TimerTable

inductive BuildError where
  | unsupportedBackend (error : UnsupportedBackend)
  | nonMonotonicWait (timer : TimerOnChip) (previous requested : TimerValue)
  | conflictingRestriction (container : String) (existing requested : ExecutorKind)
  | wordCountMismatch (container : String) (addresses words : Nat)
  | backendMismatch (address : Address) (word : Word)
  | notReadable (container : String)
  | notWritable (container : String)
  deriving DecidableEq, Repr

namespace BuildError

def cause : BuildError → String
  | unsupportedBackend _ => "UnsupportedBackend"
  | nonMonotonicWait .. => "NonMonotonicWait"
  | conflictingRestriction .. => "ConflictingRestriction"
  | wordCountMismatch .. => "WordCountMismatch"
  | backendMismatch .. => "BackendMismatch"
  | notReadable _ => "NotReadable"
  | notWritable _ => "NotWritable"

def message : BuildError → String
  | unsupportedBackend e => e.message
  | nonMonotonicWait timer previous requested =>
    s!"wait_until({timer.text}, {requested.toNat}) after wait_until({timer.text}, {previous.toNat})"
  | conflictingRestriction container existing requested =>
    s!"{container} requires {requested.name} but the program is restricted to {existing.name}"
  | wordCountMismatch container addresses words =>
    s!"{container} produced {words} words for {addresses} addresses"
  | backendMismatch address word => s!"word {word.text} cannot be written to {address.text}"
  | notReadable container => s!"{container} is not readable"
  | notWritable container => s!"{container} is not writable"

end BuildError

structure Builder where
  instructions : List Instruction := []
  slots : List Slot := []
  /-- The only kind of executor that the program may run on, if it is restricted. -/
  restriction : Option ExecutorKind := none
  watermarks : TimerTable := .replicate 2 none
  leadingWaits : TimerTable := .replicate 2 none

namespace Builder

variable {C V : Type}

def restrict (container : String) (existing : Option ExecutorKind) (requested : List ExecutorKind) :
    Except BuildError (Option ExecutorKind) :=
  requested.foldlM (fun current kind =>
    match current with
    | some other =>
      if other = kind then .ok (some kind)
      else .error (.conflictingRestriction container other kind)
    | none => .ok (some kind)) existing

def pairs (accesses : List (Address × Word)) : Except BuildError (List WriteAccess) :=
  accesses.mapM fun (address, word) =>
    match WriteAccess.pair? address word with
    | some access => .ok access
    | none => .error (.backendMismatch address word)

/-- Writes a value at a coordinate, each leaf through the given backend or its default one. -/
def write (node : Node C V) (coord : C) (value : V) (explicit : Option Backend) (b : Builder) :
    Except BuildError Builder := do
  let leaves := node.leaves coord
  let addresses := Leaves.writeAddresses explicit leaves
  let words := Leaves.words explicit value leaves
  match Leaves.unsupported? explicit leaves with
  | some e => .error (.unsupportedBackend e)
  | none =>
    if addresses.isEmpty then .error (.notWritable node.name)
    else if addresses.length ≠ words.length then
      .error (.wordCountMismatch node.name addresses.length words.length)
    else do
      let restriction ← restrict node.name b.restriction (Leaves.restrictions explicit leaves)
      let accesses ← pairs (addresses.zip words)
      let resets := Leaves.timerResets explicit value leaves
      return { b with
        instructions := b.instructions ++ accesses.map .write
        restriction
        watermarks :=
          resets.foldl (fun table (timer, value) => table.set timer value) b.watermarks }

/-- Reads at a coordinate. The value is kept for the ticket with the given name, which must differ
from those of other reads. -/
def read (node : Node C V) (coord : C) (explicit : Option Backend) (ticket : TicketId)
    (b : Builder) : Except BuildError Builder := do
  let leaves := node.leaves coord
  let addresses := Leaves.readAddresses explicit leaves
  match Leaves.unsupported? explicit leaves with
  | some e => .error (.unsupportedBackend e)
  | none =>
    if addresses.isEmpty then .error (.notReadable node.name)
    else do
      let restriction ← restrict node.name b.restriction (Leaves.restrictions explicit leaves)
      return { b with
        instructions := b.instructions ++ addresses.map .read
        slots := b.slots ++ [.ofRead node coord explicit ticket]
        restriction }

def waitUntil (timer : TimerOnChip) (value : TimerValue) (b : Builder) :
    Except BuildError Builder :=
  let next : Builder :=
    { b with
      instructions := b.instructions ++ [.wait timer value]
      watermarks := b.watermarks.set timer value }
  match b.watermarks.get timer with
  | some previous =>
    if value < previous then .error (.nonMonotonicWait timer previous value) else .ok next
  | none =>
    if (b.leadingWaits.get timer).isSome then .ok next
    else .ok { next with leadingWaits := b.leadingWaits.set timer value }

def barrier (kind : Barrier) (b : Builder) : Builder :=
  { b with instructions := b.instructions ++ [.barrier kind] }

/-- The first timer whose leading wait, issued after the watermarks, would go backwards. -/
def backwardWait? (watermarks leadingWaits : TimerTable) : Option BuildError :=
  Site.all.findSome? fun timer => do
    let requested ← leadingWaits.get timer
    let previous ← watermarks.get timer
    if requested < previous then some (.nonMonotonicWait timer previous requested) else none

def mergedLeadingWaits (b other : Builder) : TimerTable :=
  Vector.ofFn fun i =>
    let timer : TimerOnChip := ⟨i⟩
    (b.leadingWaits.get timer).or
      (if (b.watermarks.get timer).isSome then none else other.leadingWaits.get timer)

def mergeBack (b other : Builder) : Except BuildError Builder := do
  match backwardWait? b.watermarks other.leadingWaits with
  | some e => .error e
  | none =>
    let restriction ←
      restrict "PlaybackProgramBuilder" b.restriction other.restriction.toList
    return {
      instructions := b.instructions ++ other.instructions
      slots := b.slots ++ other.slots
      restriction
      watermarks := b.watermarks.overlay other.watermarks
      leadingWaits := mergedLeadingWaits b other }

def text (b : Builder) : String :=
  s!"PlaybackProgramBuilder({b.instructions.length} instructions, {b.slots.length} tickets)\n"
    ++ Instruction.listing b.instructions

end Builder

end Playback
