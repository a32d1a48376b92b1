import Playback.Proofs.Recording.InPlace
import Playback.Proofs.Recording.Writes

/-! What the calls of a recording contribute.

A call has a contribution of its own, and a merge brings those of the merged builder. What a
recording comes to is made of the contributions of the calls that did not fail, in order, if joining
builders joins contributions (`Call.gathered_record`). The stream of a program is one case.
-/

set_option autoImplicit false

namespace Playback

namespace Call

open Builder

universe u

section Gathered

variable {α : Type u} (own : Call → List α)

mutual

/-- The contribution of a call that does not fail. A merge has that of the merged builder. -/
def contribution : Call → List α
  | write node coord value explicit => own (write node coord value explicit)
  | read node coord explicit ticket => own (read node coord explicit ticket)
  | wait timer value => own (wait timer value)
  | barrier kind => own (barrier kind)
  | merge calls => gathered calls {}

def gathered : List Call → Builder → List α
  | [], _ => []
  | call :: rest, b =>
    match call.perform b with
    | .ok next => contribution call ++ gathered rest next
    | .error _ => gathered rest b

end

theorem gathered_eq (calls : List Call) (b : Builder) :
    gathered own calls b = (accepted calls b).flatMap (contribution own) := by
  induction calls generalizing b with
  | nil => rfl
  | cons call rest ih =>
    unfold gathered accepted
    cases call.perform b with
    | ok next => exact congrArg (contribution own call ++ ·) (ih next)
    | error e => exact ih b

/-- What holds of a builder and the contributions it was recorded from, at every merge. -/
structure Follows (Holds : Builder → List α → Prop) : Prop where
  empty : Holds {} []
  joined {b other : Builder} {earlier later : List α} : b.Fits other → Holds b earlier →
    Holds other later → Holds (b.joined other) (earlier ++ later)
  alone {call : Call} {part : Builder} : (∀ calls, call ≠ merge calls) →
    call.perform {} = .ok part → Holds part (own call)

variable {own} {Holds : Builder → List α → Prop} (follows : Follows own Holds)

include follows

-- Along the tree of calls, as every call merges the part that it adds to an empty builder.
mutual

theorem contribution_part {part : Builder} :
    (call : Call) → call.perform {} = .ok part → Holds part (contribution own call)
  | write node coord value explicit => follows.alone (by simp)
  | read node coord explicit ticket => follows.alone (by simp)
  | wait timer value => follows.alone (by simp)
  | barrier kind => follows.alone (by simp)
  | merge calls => by
    intro performed
    rw [perform, empty_mergeBack] at performed
    cases performed
    exact gathered_record calls covered_empty follows.empty

theorem gathered_record {b : Builder} {earlier : List α} :
    (calls : List Call) → b.Covered → Holds b earlier →
      Holds (record calls b) (earlier ++ gathered own calls b)
  | [] => by
    intro _ holds
    simpa [record, gathered] using holds
  | call :: rest => by
    intro covered holds
    unfold record gathered
    cases performed : call.perform b with
    | error e => exact gathered_record rest covered holds
    | ok next =>
      obtain ⟨part, adds, merged⟩ := (perform_iff_part call covered).1 performed
      obtain ⟨fits, rfl⟩ := mergeBack_eq_ok_iff.1 merged
      dsimp only
      rw [← List.append_assoc]
      exact gathered_record rest (covered.joined (covered_part call adds))
        (follows.joined fits holds (contribution_part call adds))

end

end Gathered

def lowered : Call → List Instruction
  | write node coord value explicit =>
    ((Leaves.writeAddresses explicit (node.leaves coord)).zip
      (Leaves.words explicit value (node.leaves coord))).filterMap fun (address, word) =>
        (WriteAccess.pair? address word).map .write
  | read node coord explicit _ =>
    (Leaves.readAddresses explicit (node.leaves coord)).map .read
  | wait timer value => [.wait timer value]
  | barrier kind => [.barrier kind]
  | merge _ => []

theorem lowered_pairs (accesses : List WriteAccess) :
    ((accesses.map WriteAccess.assignment).filterMap fun (address, word) =>
      (WriteAccess.pair? address word).map Instruction.write) = accesses.map .write := by
  have back (access : WriteAccess) : WriteAccess.pair? access.address access.word = some access :=
    WriteAccess.pair?_eq_some_iff.2 ⟨rfl, rfl⟩
  rw [List.filterMap_map, ← List.filterMap_eq_map]
  congr 1
  funext access
  simp only [Function.comp_apply, WriteAccess.assignment, back, Option.map_some]

theorem instructions_alone {call : Call} {part : Builder} (single : ∀ calls, call ≠ merge calls)
    (performed : call.perform {} = .ok part) : part.instructions = lowered call := by
  cases call with
  | write node coord value explicit =>
    obtain ⟨-, -, -, restriction, accesses, -, paired, rfl⟩ := write_eq_ok_iff.1 performed
    rw [lowered, ← pairs_eq_ok_iff.1 paired, lowered_pairs]
    rfl
  | read node coord explicit ticket => exact (added_of_read performed).1
  | wait timer value => exact (added_of_wait performed).1
  | barrier kind =>
    cases performed
    rfl
  | merge calls => exact absurd rfl (single calls)

theorem follows_instructions : Follows lowered fun b stream => b.instructions = stream where
  empty := rfl
  joined _ first second := by rw [Builder.joined, first, second]
  alone := instructions_alone

theorem instructions_record (calls : List Call) :
    (record calls {}).instructions = gathered lowered calls {} :=
  gathered_record follows_instructions calls covered_empty rfl

theorem instructions_perform {b next : Builder} {call : Call} (covered : b.Covered)
    (performed : call.perform b = .ok next) :
    next.instructions = b.instructions ++ contribution lowered call := by
  obtain ⟨part, adds, merged⟩ := (perform_iff_part call covered).1 performed
  obtain ⟨fits, rfl⟩ := mergeBack_eq_ok_iff.1 merged
  exact follows_instructions.joined fits rfl (contribution_part follows_instructions call adds)

theorem slots_perform {b next : Builder} {call : Call} {earlier : List Request}
    (keeps : b.Keeps earlier) (performed : call.perform b = .ok next) :
    next.slots = b.slots ++ call.requests.map Request.slot := by
  rw [(keeps_perform call keeps performed).slots, keeps.slots, List.map_append]

-- Carried out in place, a call that fails leaves the builder as it is, and any other call appends
-- what it determines alone. So the stream of a program is what the successful calls contribute, in
-- order.
theorem edit_appends_or_leaves (earlier : List Call) (call : Call) (id : ProgramId) :
    let b := edited earlier {}
    let (outcome, after) := Edit.on call.edit b
    (∀ e, outcome = .error e → after = b) ∧
    (outcome = .ok () →
      after.instructions = b.instructions ++ contribution lowered call ∧
      after.slots = b.slots ++ call.requests.map Request.slot) ∧
    (Program.ofBuilder id b).instructions =
      (succeeding earlier {}).flatMap (contribution lowered) ∧
    Edit.on call.edit b = Edit.settle b (call.perform b) ∧ b = record earlier {} := by
  dsimp only
  rw [on_edit, edited_eq_record, succeeding_eq_accepted]
  refine ⟨?_, ?_, ?_, rfl, rfl⟩
  · intro e failed
    cases performed : call.perform (record earlier {}) with
    | error _ => rfl
    | ok next =>
      rw [performed] at failed
      cases failed
  · intro succeeded
    cases performed : call.perform (record earlier {}) with
    | error e =>
      rw [performed] at succeeded
      cases succeeded
    | ok next =>
      exact ⟨instructions_perform (covered_record earlier covered_empty) performed,
        slots_perform (keeps_record earlier keeps_empty) performed⟩
  · rw [← gathered_eq, ← instructions_record]
    rfl

end Call

end Playback
