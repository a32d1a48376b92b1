import Mathlib.Logic.Function.Basic
import Playback.Proofs.Recording.Requests
import Playback.Proofs.Wire.Sequences
import Playback.Response.Stream
import Playback.Board.Machine

/-! What a board does with its registers when it plays a stream.

To the registers a stream is a list of stores and loads; timers, spike packs and timestamps leave
them alone. The words of the response are what the loads find, in order, and a response that was cut
short has fewer words.
-/

set_option autoImplicit false

namespace Playback

inductive RegisterUse where
  | store (address : Address) (word : Word)
  | load (address : Address)

abbrev Memory := Address → Word

namespace RegisterUse

def effect (memory : Memory) : RegisterUse → Memory
  | store address word => Function.update memory address word
  | load _ => memory

def after (memory : Memory) (uses : List RegisterUse) : Memory :=
  uses.foldl effect memory

def found : Memory → List RegisterUse → List Word
  | _, [] => []
  | memory, store address word :: rest => found (Function.update memory address word) rest
  | memory, load address :: rest => memory address :: found memory rest

theorem after_append (memory : Memory) (first second : List RegisterUse) :
    after memory (first ++ second) = after (after memory first) second :=
  List.foldl_append

theorem found_append (memory : Memory) (first second : List RegisterUse) :
    found memory (first ++ second) = found memory first ++ found (after memory first) second := by
  induction first generalizing memory with
  | nil => rfl
  | cons use rest ih =>
    cases use with
    | store address word => exact ih _
    | load address => exact congrArg (memory address :: ·) (ih memory)

theorem found_loads (memory : Memory) (addresses : List Address) :
    found memory (addresses.map load) = addresses.map memory := by
  induction addresses with
  | nil => rfl
  | cons address rest ih => exact congrArg (memory address :: ·) ih

theorem found_stores (memory : Memory) (assignments : List (Address × Word)) :
    found memory (assignments.map fun (address, word) => .store address word) = [] := by
  induction assignments generalizing memory with
  | nil => rfl
  | cons assignment rest ih => exact ih _

theorem after_loads (memory : Memory) (addresses : List Address) :
    after memory (addresses.map load) = memory := by
  induction addresses with
  | nil => rfl
  | cons address rest ih => exact ih

end RegisterUse

open RegisterUse

namespace Instruction

def use? : Instruction → Option RegisterUse
  | write access => some (.store access.address access.word)
  | read address => some (.load address)
  | wait _ _ | barrier _ => none

def uses (instructions : List Instruction) : List RegisterUse :=
  instructions.filterMap use?

theorem uses_append (first second : List Instruction) :
    uses (first ++ second) = uses first ++ uses second :=
  List.filterMap_append

theorem uses_reads (addresses : List Address) :
    uses (addresses.map .read) = addresses.map load := by
  simp only [uses, List.filterMap_map]
  exact List.filterMap_eq_map.symm ▸ rfl

theorem length_found (memory : Memory) (instructions : List Instruction) :
    (found memory (uses instructions)).length = instructions.countP isRead := by
  induction instructions generalizing memory with
  | nil => rfl
  | cons instruction rest ih =>
    unfold uses at ih ⊢
    cases instruction <;>
      simp [List.filterMap_cons, List.countP_cons, use?, isRead, found, ih]

end Instruction

open Instruction

namespace Response.Record

def word? : Record → Option Word
  | word w => some w
  | _ => none

end Response.Record

open Response.Record

namespace Board

theorem Machine.read_write (machine : Machine) (access : WriteAccess) :
    (machine.write access).read = Function.update machine.read access.address access.word := by
  funext address
  unfold Machine.read Machine.write
  dsimp only
  rw [Table.get?_insert, Function.update_apply]
  split <;> rfl

theorem Machine.read_restartTimer (machine : Machine) (access : WriteAccess) :
    (machine.restartTimer access).read = machine.read := by
  unfold restartTimer
  split <;> rfl

namespace Play

theorem machine_send (annotate : Bool) (record : Response.Record) (play : Play) :
    (play.send annotate record).2.machine = play.machine := by
  unfold send stamp
  dsimp only
  split <;> rfl

theorem words_send (annotate : Bool) (record : Response.Record) (play : Play) :
    (play.send annotate record).1.filterMap word? = record.word?.toList := by
  unfold send stamp
  dsimp only
  split <;> cases record <;> rfl

theorem machine_offer (annotate : Bool) (place : PackPlace) (label : SpikeLabel) (play : Play) :
    (play.offer annotate place label).2.machine = play.machine := by
  unfold offer
  dsimp only
  split
  · exact machine_send _ _ _
  · rfl

theorem words_offer (annotate : Bool) (place : PackPlace) (label : SpikeLabel) (play : Play) :
    (play.offer annotate place label).1.filterMap word? = [] := by
  unfold offer
  dsimp only
  split
  · exact words_send _ _ _
  · rfl

theorem step_registers (annotate : Bool) (instruction : Instruction) (play : Play) :
    (play.step annotate instruction).2.machine.read = after play.machine.read (uses [instruction]) ∧
    (play.step annotate instruction).1.filterMap word? =
      found play.machine.read (uses [instruction]) := by
  cases instruction with
  | write access =>
    unfold step
    dsimp only
    cases packPlace? access.address with
    | none =>
      refine ⟨?_, rfl⟩
      exact (Machine.read_restartTimer _ access).trans (Machine.read_write _ access)
    | some place =>
      refine ⟨?_, words_offer _ _ _ _⟩
      dsimp only
      rw [Machine.read_restartTimer, machine_offer]
      exact Machine.read_write _ access
  | read address =>
    refine ⟨?_, words_send _ _ _⟩
    change (Play.send annotate _ _).2.machine.read = play.machine.tick.read
    rw [machine_send]
  | wait timer value => exact ⟨rfl, rfl⟩
  | barrier kind => exact ⟨rfl, rfl⟩

theorem steps_registers (annotate : Bool) (instructions : List Instruction) (play : Play) :
    (steps annotate instructions play).2.machine.read =
      after play.machine.read (uses instructions) ∧
    (steps annotate instructions play).1.filterMap word? =
      found play.machine.read (uses instructions) := by
  induction instructions generalizing play with
  | nil => exact ⟨rfl, rfl⟩
  | cons instruction rest ih =>
    obtain ⟨memory, words⟩ := step_registers annotate instruction play
    obtain ⟨memoryRest, wordsRest⟩ := ih (play.step annotate instruction).2
    rw [← List.singleton_append, uses_append, after_append, found_append, ← memory, ← words]
    refine ⟨memoryRest, ?_⟩
    rw [← wordsRest, ← List.filterMap_append]
    rfl

end Play

end Board

namespace Response

theorem words_prefix (records : List Record) (now : Option FpgaTime) :
    (ofRecordsFrom now records).words.map ResponseWord.word <+: records.filterMap word? := by
  induction records generalizing now with
  | nil => exact List.nil_prefix
  | cons record rest ih =>
    cases record with
    | word w => exact List.cons_prefix_cons.2 ⟨rfl, ih now⟩
    | timestamp time => exact ih (some time)
    | spikes pack => exact ih now
    | samples pack => exact ih now
    | halt => exact List.nil_prefix

theorem words_of_prefix {read sent : List Record} (cut : read <+: sent) (now : Option FpgaTime) :
    (ofRecordsFrom now read).words <+: (ofRecordsFrom now sent).words := by
  induction read generalizing sent now with
  | nil => exact List.nil_prefix
  | cons record rest ih =>
    obtain ⟨later, rfl⟩ := cut
    have next := ih (List.prefix_append rest later)
    cases record with
    | word w => exact List.cons_prefix_cons.2 ⟨rfl, next now⟩
    | timestamp time => exact next (some time)
    | spikes pack => exact next now
    | samples pack => exact next now
    | halt => exact List.nil_prefix

end Response

theorem records_of_demultiplex {annotate : Bool} {instructions : List Instruction}
    {machine : Board.Machine} {size : Nat} {response : Response}
    (reads : Response.demultiplex
      ((Response.encode (machine.play annotate instructions).1).take size) = .ok response) :
    ∃ read, read <+: (machine.play annotate instructions).1 ∧ .ofRecords read = response := by
  unfold Response.demultiplex at reads
  cases records : Response.records
      ((Response.encode (machine.play annotate instructions).1).take size) with
  | error e =>
    rw [records] at reads
    cases reads
  | ok read =>
    rw [records] at reads
    refine ⟨read, ?_, Except.ok.inj reads⟩
    have fills := RecordWire.readAll_eq_ok_iff.1 records
    obtain ⟨padding, apart⟩ : ∃ padding,
        (Response.encode (machine.play annotate instructions).1).take size =
          Response.Record.wire.writeAll read ++ padding := fills.exists_padding
    apply RecordWire.prefix_of_writeAll
    rw [← List.append_assoc, ← apart]
    exact (List.take_append_drop size _).symm

-- A response with a word for every read has the words that the reads found, even if the board
-- reported less than all of it.
theorem words_of_demultiplex {annotate : Bool} {instructions : List Instruction}
    {machine : Board.Machine} {size : Nat} {response : Response}
    (reads : Response.demultiplex
      ((Response.encode (machine.play annotate instructions).1).take size) = .ok response)
    (enough : response.words.length = instructions.countP isRead) :
    response.words.map ResponseWord.word = found machine.read (uses instructions) := by
  have all : (machine.play annotate instructions).1.filterMap word? =
      found machine.read (uses instructions) := by
    change ((Board.Play.steps annotate instructions { machine }).1 ++ [halt]).filterMap word? = _
    rw [List.filterMap_append]
    exact (List.append_nil _).trans (Board.Play.steps_registers annotate instructions _).2
  obtain ⟨read, cut, rfl⟩ := records_of_demultiplex reads
  have words := (Response.words_prefix read none).trans (all ▸ cut.filterMap word?)
  apply words.eq_of_length
  rw [length_found, ← enough, List.length_map]
  rfl

end Playback
