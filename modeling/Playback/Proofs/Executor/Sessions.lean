import Playback.Proofs.Executor.Steps

/-! Sessions: commands to one executor over a board, in any order.

A command is taken apart into the stages that it goes through. A log lists them newest first, each
with its outcome and the session before and after it. Between commands anything may be set on the
board.
-/

set_option autoImplicit false

namespace Playback

structure Session where
  executor : Executor Board
  shelf : Shelf

inductive Knob where
  | stuck (on : Bool)
  | busyPolls (looks : Nat)
  | exception (flags : ExceptionFlags)
  | reportedSize (size : Option Nat)
  | maxResultSize (size : Nat)
  | resetChecks (looks : Nat)
  | failTransmit (on : Bool)
  | register (address : Address) (word : Word)

def Knob.turn : Knob → Board → Board
  | stuck on, board => { board with stuck := on }
  | busyPolls looks, board => { board with busyPolls := looks }
  | exception flags, board => { board with exception := flags }
  | reportedSize size, board => { board with reportedSize := size }
  | maxResultSize size, board => { board with maxResultSize := size }
  | resetChecks looks, board => { board with resetChecks := looks }
  | failTransmit on, board => { board with failTransmit := on }
  | register address word, board => board.poke address word

inductive Stage where
  | transfer (id : ProgramId)
  | execute (options : ExecuteOptions)
  | fetch (id : ProgramId)
  | turn (knob : Knob)

inductive Command where
  | stage (stage : Stage)
  -- Transfer, execute and fetch; the first failure ends it.
  | run (id : ProgramId) (options : ExecuteOptions)

namespace Session

def perform : Stage → Session → Except ExecutorError Unit × Session
  | .transfer id, s =>
    let (outcome, executor) := s.executor.transfer (s.shelf.get id)
    (outcome, { s with executor })
  | .execute options, s =>
    let (outcome, executor, shelf) := s.executor.execute options s.shelf
    (outcome, { executor, shelf })
  | .fetch id, s =>
    let (outcome, executor, shelf) := s.executor.fetch id s.shelf
    (outcome, { executor, shelf })
  | .turn knob, s =>
    (.ok (), { s with executor.transport := knob.turn s.executor.transport })

/-- What a stage can do to a session, as far as it matters for results. -/
inductive Performed (s : Session) :
    Stage → Except ExecutorError Unit → Footing → Shelf → Prop where
  | transfer {id : ProgramId} {outcome : Except ExecutorError Unit} {f : Footing}
      (ways : Executor.Transferred (s.shelf.get id) s.executor outcome f) :
    Performed s (.transfer id) outcome f s.shelf
  | execute {options : ExecuteOptions} {outcome : Except ExecutorError Unit} {f : Footing}
      {shelf : Shelf} (ways : Executor.Executed s.shelf s.executor outcome f shelf) :
    Performed s (.execute options) outcome f shelf
  | fetch {id : ProgramId} {outcome : Except ExecutorError Unit} {f : Footing} {shelf : Shelf}
      (ways : Executor.Fetched id s.shelf s.executor outcome f shelf) :
    Performed s (.fetch id) outcome f shelf
  -- The board's registers may be set as well.
  | turn {knob : Knob} {machine : Board.Machine} :
    Performed s (.turn knob) (.ok ()) { s.executor.footing with machine } s.shelf

theorem performed (s : Session) (stage : Stage) :
    Performed s stage (s.perform stage).1 (s.perform stage).2.executor.footing
      (s.perform stage).2.shelf := by
  cases stage with
  | transfer id => exact .transfer (s.executor.transfer_cases (s.shelf.get id))
  | execute options => exact .execute (s.executor.execute_cases options s.shelf)
  | fetch id => exact .fetch (s.executor.fetch_cases id s.shelf)
  | turn knob => cases knob <;> exact .turn

section Perform

variable {s : Session} {outcome : Except ExecutorError Unit} {executor : Executor Board}
  {shelf : Shelf}

theorem perform_transfer {id : ProgramId}
    (transfers : s.executor.transfer (s.shelf.get id) = (outcome, executor)) :
    s.perform (.transfer id) = (outcome, { s with executor }) := by
  simp only [perform, transfers]

theorem perform_execute {options : ExecuteOptions}
    (executes : s.executor.execute options s.shelf = (outcome, executor, shelf)) :
    s.perform (.execute options) = (outcome, ⟨executor, shelf⟩) := by
  simp only [perform, executes]

theorem perform_fetch {id : ProgramId}
    (fetches : s.executor.fetch id s.shelf = (outcome, executor, shelf)) :
    s.perform (.fetch id) = (outcome, ⟨executor, shelf⟩) := by
  simp only [perform, fetches]

end Perform

end Session

structure Entry where
  stage : Stage
  outcome : Except ExecutorError Unit
  before : Session
  after : Session

namespace Session

def entry (s : Session) (stage : Stage) : Entry where
  stage := stage
  outcome := (s.perform stage).1
  before := s
  after := (s.perform stage).2

/-- The stages of a command, newest first. -/
def entries (s : Session) : Command → List Entry
  | .stage stage => [s.entry stage]
  | .run id options =>
    let loaded := s.entry (.transfer id)
    match loaded.outcome with
    | .error _ => [loaded]
    | .ok () =>
      let ran := loaded.after.entry (.execute options)
      match ran.outcome with
      | .error _ => [ran, loaded]
      | .ok () => [ran.after.entry (.fetch id), ran, loaded]

-- Running a program ends as the last of its stages.
theorem run_eq_entries (s : Session) (id : ProgramId) (options : ExecuteOptions) :
    ∃ last earlier, s.entries (.run id options) = last :: earlier ∧
      s.executor.run id options s.shelf =
        (last.outcome, last.after.executor, last.after.shelf) := by
  unfold entries Executor.run
  simp only [entry, perform]
  rcases s.executor.transfer (s.shelf.get id) with ⟨outcome, loaded⟩
  cases outcome with
  | error error => exact ⟨_, _, rfl, rfl⟩
  | ok done =>
    simp only
    rcases loaded.execute options s.shelf with ⟨outcome, ran, shelf⟩
    cases outcome with
    | error error => exact ⟨_, _, rfl, rfl⟩
    | ok done => exact ⟨_, _, rfl, rfl⟩

def current (start : Session) : List Entry → Session
  | [] => start
  | entry :: _ => entry.after

def log (start : Session) (commands : List Command) : List Entry :=
  commands.foldl (fun log command => (start.current log).entries command ++ log) []

/-- Every stage starts where the one before it ended. -/
inductive Chain (start : Session) : List Entry → Prop where
  | start : Chain start []
  | next {log : List Entry} (chain : Chain start log) (stage : Stage) :
    Chain start ((start.current log).entry stage :: log)

theorem Chain.entries {start : Session} {log : List Entry} (chain : Chain start log)
    (command : Command) : Chain start ((start.current log).entries command ++ log) := by
  cases command with
  | stage stage => exact chain.next stage
  | run id options =>
    unfold Session.entries
    dsimp only
    have loaded := chain.next (.transfer id)
    split
    · exact loaded
    · have ran := loaded.next (.execute options)
      split
      · exact ran
      · exact ran.next (.fetch id)

theorem chain_log (start : Session) (commands : List Command) :
    Chain start (start.log commands) := by
  -- Over the commands left, from any log: the fold carries the log so far.
  have onward (commands : List Command) : ∀ log, Chain start log →
      Chain start
        (commands.foldl (fun log command => (start.current log).entries command ++ log) log) := by
    induction commands with
    | nil => exact fun log chain => chain
    | cons command rest ih => exact fun log chain => ih _ (chain.entries command)
  exact onward commands [] .start

theorem Chain.suffix {start : Session} {later earlier : List Entry}
    (chain : Chain start (later ++ earlier)) : Chain start earlier := by
  induction later with
  | nil => exact chain
  | cons last later ih =>
    cases chain with
    | next chain stage => exact ih chain

theorem Chain.split {start : Session} {later earlier : List Entry} {entry : Entry}
    (chain : Chain start (later ++ entry :: earlier)) :
    Chain start earlier ∧ entry = (start.current earlier).entry entry.stage := by
  replace chain := chain.suffix
  cases chain with
  | next chain stage => exact ⟨chain, rfl⟩

end Session

end Playback
