import Playback.Program.Builder

/-! Histories of calls on a builder.

A merge is a call that carries the history of the builder it merges, so a history is a tree of
calls. Recording leaves the builder as it is where a call fails; replaying ends at the first
failure. What a recording accepted replays to what was recorded (`replay_accepted`).
-/

set_option autoImplicit false

namespace Playback

inductive Call : Type 1 where
  | write {C V : Type} (node : Node C V) (coord : C) (value : V) (explicit : Option Backend)
  | read {C V : Type} (node : Node C V) (coord : C) (explicit : Option Backend) (ticket : TicketId)
  | wait (timer : TimerOnChip) (value : TimerValue)
  | barrier (kind : Barrier)
  -- Merges a new builder on which these calls were issued.
  | merge (calls : List Call)

namespace Call

mutual

def perform : Call → Builder → Except BuildError Builder
  | write node coord value explicit, b => b.write node coord value explicit
  | read node coord explicit ticket, b => b.read node coord explicit ticket
  | wait timer value, b => b.waitUntil timer value
  | barrier kind, b => .ok (b.barrier kind)
  | merge calls, b => b.mergeBack (record calls {})

def record : List Call → Builder → Builder
  | [], b => b
  | call :: rest, b =>
    match call.perform b with
    | .ok next => record rest next
    | .error _ => record rest b

end

def accepted : List Call → Builder → List Call
  | [], _ => []
  | call :: rest, b =>
    match call.perform b with
    | .ok next => call :: accepted rest next
    | .error _ => accepted rest b

def replay (calls : List Call) (b : Builder) : Except BuildError Builder :=
  calls.foldlM (fun b call => call.perform b) b

theorem record_append (before after : List Call) (b : Builder) :
    record (before ++ after) b = record after (record before b) := by
  induction before generalizing b with
  | nil => rfl
  | cons call rest ih =>
    simp only [List.cons_append, record]
    cases call.perform b with
    | ok next => exact ih next
    | error e => exact ih b

theorem replay_accepted (calls : List Call) (b : Builder) :
    replay (accepted calls b) b = .ok (record calls b) := by
  induction calls generalizing b with
  | nil => rfl
  | cons call rest ih =>
    unfold accepted record
    cases performed : call.perform b with
    | error e => exact ih b
    | ok next =>
      simp only [replay, List.foldlM_cons, performed]
      exact ih next

end Call

end Playback
