import Playback.Board.Machine
import Playback.Response.Stream

/-! What a board sends when it plays a stream.

Only the end of a stream sends a halt, so the response to a whole stream reads back as it was sent.
-/

set_option autoImplicit false

namespace Playback

namespace Board.Play

theorem send_ne_halt {annotate : Bool} {record : Response.Record} (play : Play)
    (other : record ≠ .halt) : ∀ sent ∈ (play.send annotate record).1, sent ≠ .halt := by
  intro sent member
  unfold send stamp at member
  dsimp only at member
  split at member
  · rcases List.mem_append.1 member with stamp | last
    · rw [List.mem_singleton.1 stamp]
      simp
    · rw [List.mem_singleton.1 last]
      exact other
  · rw [List.mem_singleton.1 member]
    exact other

theorem step_ne_halt (annotate : Bool) (instruction : Instruction) (play : Play) :
    ∀ sent ∈ (play.step annotate instruction).1, sent ≠ .halt := by
  cases instruction with
  | write access =>
    unfold step
    dsimp only
    cases packPlace? access.address with
    | none => simp
    | some place =>
      dsimp only
      unfold offer
      dsimp only
      split
      · exact send_ne_halt _ (by simp)
      · simp
  | read address => exact send_ne_halt _ (by simp)
  | wait timer value => simp [step]
  | barrier kind => simp [step]

theorem steps_ne_halt (annotate : Bool) (instructions : List Instruction) (play : Play) :
    ∀ sent ∈ (steps annotate instructions play).1, sent ≠ .halt := by
  induction instructions generalizing play with
  | nil => simp [steps]
  | cons instruction rest ih =>
    intro sent member
    rcases List.mem_append.1 member with here | later
    · exact step_ne_halt annotate instruction play sent here
    · exact ih _ sent later

end Board.Play

-- What a board writes when it plays a stream to the end reads back whole.
theorem demultiplex_play (annotate : Bool) (instructions : List Instruction)
    (machine : Board.Machine) :
    Response.demultiplex (Response.encode (machine.play annotate instructions).1) =
      .ok (.ofRecords (machine.play annotate instructions).1) := by
  have goesOn : ∀ record ∈ (Board.Play.steps annotate instructions { machine }).1,
      Response.Record.wire.isFinal record = false := by
    intro record member
    simpa [Response.Record.wire] using
      Board.Play.steps_ne_halt annotate instructions _ record member
  have halt (offset : Nat) :
      Response.Record.wire.readAll offset (Response.Record.wire.write .halt) = .ok [.halt] := by
    have single := Response.Record.wire.readAll_write_append offset .halt []
    simpa [Response.Record.wire] using single
  have whole := Response.Record.wire.readAll_writeAll_append 0 _
    (Response.Record.wire.write .halt) goesOn
  rw [halt] at whole
  have apart (records : List Response.Record) : Response.encode (records ++ [.halt]) =
      Response.Record.wire.writeAll records ++ Response.Record.wire.write .halt := by
    simp [Response.encode, RecordWire.writeAll]
  unfold Response.demultiplex Response.records Board.Machine.play
  dsimp only
  rw [apart, whole]
  rfl

end Playback
