import Playback.Proofs.Board.Places
import Playback.Proofs.Recording.Writes

/-! Recordings of accesses to a chip's own nodes.

A recording comes to the accesses that did not fail, in order, those of merged builders in the place
of the merge. They determine what the stream does with registers and which words belong to which
read.
-/

set_option autoImplicit false

namespace Playback

/-- A write or a read of one of a chip's own nodes. -/
inductive Access where
  | write (kind : NodeKind) (regular : kind.isRegular = true) (coord : kind.Coord)
    (value : kind.Value) (explicit : Option Backend)
  | read (kind : NodeKind) (regular : kind.isRegular = true) (coord : kind.Coord)
    (explicit : Option Backend) (ticket : TicketId)

inductive ChipCall where
  | access (access : Access)
  | wait (timer : TimerOnChip) (value : TimerValue)
  | barrier (kind : Barrier)
  -- Merges a new builder on which these calls were issued.
  | merge (calls : List ChipCall)

namespace Access

def call : Access → Call
  | write kind _ coord value explicit => .write kind.node coord value explicit
  | read kind _ coord explicit ticket => .read kind.node coord explicit ticket

def request? : Access → Option Request
  | write .. => none
  | read kind _ coord explicit ticket => some { node := kind.node, coord, explicit, ticket }

def written : Access → List LeafWrite
  | write kind _ coord value explicit =>
    (kind.parts coord).map fun leaf => ⟨leaf.place explicit, leaf.part.get value⟩
  | read .. => []

end Access

namespace ChipCall

mutual

def call : ChipCall → Call
  | access one => one.call
  | wait timer value => .wait timer value
  | barrier kind => .barrier kind
  | merge calls => .merge (history calls)

def history : List ChipCall → List Call
  | [] => []
  | call :: rest => call.call :: history rest

end

mutual

def accesses : ChipCall → List Access
  | access one => [one]
  | merge calls => recorded calls {}
  | wait .. => []
  | barrier _ => []

def recorded : List ChipCall → Builder → List Access
  | [], _ => []
  | call :: rest, b =>
    match call.call.perform b with
    | .ok next => call.accesses ++ recorded rest next
    | .error _ => recorded rest b

end

end ChipCall

open RegisterUse

namespace Access

def uses : Access → List RegisterUse
  | write kind _ coord value explicit =>
    (Leaves.assignments explicit value (kind.node.leaves coord)).map fun (address, word) =>
      .store address word
  | read kind _ coord explicit _ =>
    (Leaves.readAddresses explicit (kind.node.leaves coord)).map .load

/-- What an access needs not to fail, wherever it stands. -/
def Allowed : Access → Prop
  | write kind _ coord _ explicit =>
    Leaves.unsupported? explicit (kind.node.leaves coord) = none
  | read kind _ coord explicit _ =>
    Leaves.unsupported? explicit (kind.node.leaves coord) = none ∧
      Leaves.readAddresses explicit (kind.node.leaves coord) ≠ []

end Access

namespace Builder

structure Does (b : Builder) (accesses : List Access) : Prop where
  keeps : b.Keeps (accesses.filterMap Access.request?)
  uses : Instruction.uses b.instructions = accesses.flatMap Access.uses
  allowed : ∀ access ∈ accesses, access.Allowed

theorem does_empty : Does {} [] where
  keeps := keeps_empty
  uses := rfl
  allowed := nofun

theorem Does.joined {b other : Builder} {earlier later : List Access} (first : b.Does earlier)
    (second : other.Does later) : (b.joined other).Does (earlier ++ later) where
  keeps := by
    rw [List.filterMap_append]
    exact first.keeps.joined second.keeps
  uses := by
    rw [List.flatMap_append, ← first.uses, ← second.uses]
    exact Instruction.uses_append _ _
  allowed := List.forall_mem_append.2 ⟨first.allowed, second.allowed⟩

theorem Does.silent {b next : Builder} {accesses : List Access} {added : List Instruction}
    (does : b.Does accesses) (slots : next.slots = b.slots)
    (instructions : next.instructions = b.instructions ++ added)
    (none : Instruction.requested added = []) (quiet : Instruction.uses added = []) :
    next.Does accesses where
  keeps := does.keeps.silent slots instructions none
  uses := by rw [instructions, Instruction.uses_append, quiet, List.append_nil, does.uses]
  allowed := does.allowed

end Builder

theorem Instruction.uses_writes (accesses : List WriteAccess) :
    uses (accesses.map .write) =
      (accesses.map WriteAccess.assignment).map fun (address, word) => .store address word := by
  rw [uses, List.filterMap_map, List.map_map]
  exact congrFun List.filterMap_eq_map accesses

namespace Access

open Builder

theorem does_of_write {kind : NodeKind} {regular : kind.isRegular = true} {coord : kind.Coord}
    {value : kind.Value} {explicit : Option Backend} {part : Builder}
    (written : Builder.write kind.node coord value explicit {} = .ok part) :
    part.Does [.write kind regular coord value explicit] := by
  obtain ⟨supported, _, accesses, paired, rfl⟩ := assigned_of_write (kind.aligned coord) written
  refine ⟨⟨rfl, Instruction.requested_writes accesses⟩, ?_, List.forall_mem_singleton.2 supported⟩
  simp only [List.nil_append, Instruction.uses_writes, paired, List.flatMap_singleton, uses]

theorem does_of_read {kind : NodeKind} {regular : kind.isRegular = true} {coord : kind.Coord}
    {explicit : Option Backend} {ticket : TicketId} {part : Builder}
    (read : Builder.read kind.node coord explicit ticket {} = .ok part) :
    part.Does [.read kind regular coord explicit ticket] := by
  obtain ⟨supported, some, _, -, rfl⟩ := read_eq_ok_iff.1 read
  refine ⟨⟨rfl, ?_⟩, ?_, List.forall_mem_singleton.2 ⟨supported, some⟩⟩
  · simp [request?, Request.addresses]
  · simp only [List.nil_append, Instruction.uses_reads, List.flatMap_singleton, uses]

end Access

namespace ChipCall

open Builder

-- Along the tree of calls, as every call merges the part that it adds to an empty builder.
mutual

theorem does_part {part : Builder} :
    (call : ChipCall) → call.call.perform {} = .ok part → part.Does call.accesses
  | access (.write kind regular coord value explicit) => by
    intro performed
    exact Access.does_of_write performed
  | access (.read kind regular coord explicit ticket) => by
    intro performed
    exact Access.does_of_read performed
  | wait timer value => by
    intro performed
    rw [call, Call.perform, waitUntil_empty] at performed
    cases performed
    exact does_empty.silent rfl rfl rfl rfl
  | barrier kind => by
    intro performed
    cases performed
    exact does_empty.silent rfl rfl rfl rfl
  | merge calls => by
    intro performed
    rw [call, Call.perform, empty_mergeBack] at performed
    cases performed
    exact does_record calls covered_empty does_empty

theorem does_record {b : Builder} {earlier : List Access} :
    (calls : List ChipCall) → b.Covered → b.Does earlier →
      (Call.record (history calls) b).Does (earlier ++ recorded calls b)
  | [] => by
    intro _ does
    simpa [history, Call.record, recorded] using does
  | call :: rest => by
    intro covered does
    unfold history Call.record recorded
    cases performed : call.call.perform b with
    | error e => exact does_record rest covered does
    | ok next =>
      obtain ⟨part, alone, merged⟩ := (Call.perform_iff_part call.call covered).1 performed
      obtain ⟨-, rfl⟩ := mergeBack_eq_ok_iff.1 merged
      dsimp only
      rw [← List.append_assoc]
      exact does_record rest (covered.joined (Call.covered_part call.call alone))
        (does.joined (does_part call alone))

end

end ChipCall

end Playback
