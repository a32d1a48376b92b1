import Playback.Board.Basic
import Playback.Executor.Basic

/-! What each step of an executor can do to a board.

Looks at the board spend polls and reset checks, nothing else. The rest is kept in a `Footing`: only
a transfer changes what is loaded, only a trigger changes result memory.
-/

set_option autoImplicit false

namespace Playback

structure Footing where
  settings : Settings
  transferred : Option ProgramId
  program : Option Packet
  machine : Board.Machine
  result : Bytes
  triggers : Nat

def Footing.playing (packet : Packet) (f : Footing) : Footing :=
  { f with
    machine := (f.machine.play packet.flags.annotates packet.instructions).2
    result := Response.encode (f.machine.play packet.flags.annotates packet.instructions).1
    triggers := f.triggers + 1 }

namespace Executor

def footing (e : Executor Board) : Footing where
  settings := e.settings
  transferred := e.transferred
  program := e.transport.program
  machine := e.transport.machine
  result := e.transport.result
  triggers := e.transport.triggers

def packet (settings : Settings) (program : Program) : Packet where
  flags := ProgramFlags.annotating settings.timeAnnotation
  instructions := program.instructions

@[simp] theorem footing_settled (outcome : Except ExecutorError Unit) (e : Executor Board) :
    (settled outcome e).footing = e.footing := by
  cases outcome <;> rfl

def Loadable (kind : ExecutorKind) (program : Program) : Prop :=
  program.isExecutableOn kind ∧ program.instructions.length < 0x100000000

theorem isExecutableOn_iff {program : Program} {kind : ExecutorKind} :
    program.isExecutableOn kind ↔ program.restriction.filter (· ≠ kind) = none := by
  unfold Program.isExecutableOn
  cases program.restriction <;> simp

theorem encode_eq_ok {packet : Packet} {bytes : Bytes} (encoded : packet.encode = .ok bytes) :
    packet.instructions.length < 0x100000000 := by
  unfold Packet.encode at encoded
  split at encoded
  case isTrue small => exact small
  case isFalse large => cases encoded

inductive Transferred (program : Program) (e : Executor Board) :
    Except ExecutorError Unit → Footing → Prop where
  -- The program loaded before stays.
  | incompatible {required : ExecutorKind} :
    Transferred program e
      (.error (.incompatibleProgram program.id required e.transport.kind)) e.footing
  | lost {error : ExecutorError}
      (compatible : ∀ id required available, error ≠ .incompatibleProgram id required available) :
    Transferred program e (.error error) { e.footing with transferred := none }
  | loaded (loadable : Loadable e.transport.kind program)
      (takes : e.transport.failTransmit = false) :
    Transferred program e (.ok ())
      { e.footing with
        transferred := some program.id
        program := some (packet e.settings program) }

theorem transmit_blocks {packet : Packet} {bytes : Bytes} (encoded : packet.encode = .ok bytes)
    (board : Board) :
    board.transmit (Packet.blocks bytes) =
      if board.failTransmit then
        (.error (.rejected "transmit" "simulated transfer failure"),
          { board with transmits := board.transmits + 1 })
      else
        (.ok (), { board with transmits := board.transmits + 1, program := some packet }) := by
  unfold Board.transmit
  simp only [Packet.flatten_blocks, Packet.decode_encode encoded]

theorem transfer_cases (program : Program) (e : Executor Board) :
    Transferred program e (e.transfer program).1 (e.transfer program).2.footing := by
  unfold transfer
  dsimp only
  rw [footing_settled]
  cases free : program.restriction.filter (· ≠ Transport.kind e.transport) with
  | some required => exact .incompatible
  | none =>
    unfold load
    dsimp only
    cases encoded : (packet e.settings program).encode with
    | error error =>
      simp only [packet] at encoded
      simp only [encoded]
      exact .lost (by simp)
    | ok bytes =>
      have loadable : Loadable e.transport.kind program :=
        ⟨isExecutableOn_iff.2 free, encode_eq_ok encoded⟩
      simp only [packet] at encoded
      simp only [encoded]
      simp only [Transport.transmit, transmit_blocks encoded]
      by_cases refused : e.transport.failTransmit
      · rw [if_pos refused]
        exact .lost (by simp)
      · rw [if_neg refused]
        exact .loaded loadable (Bool.eq_false_iff.2 refused)

theorem footing_awaitReset (attempts left : Nat) (e : Executor Board) :
    (awaitReset attempts left e).2.footing = e.footing := by
  induction left generalizing e with
  | zero => rfl
  | succ left ih =>
    unfold awaitReset
    simp only [Transport.chipInReset, Board.chipInReset]
    by_cases out : e.transport.resetChecks = 0
    · rw [if_pos out]
    · rw [if_neg out]
      exact ih _

theorem footing_pollStatus {e : Executor Board} {outcome : Except TransportError Bool}
    {board : Board} (looked : Transport.pollStatus e.transport = (outcome, board)) :
    { e with transport := board }.footing = e.footing := by
  simp only [Transport.pollStatus, Board.pollStatus] at looked
  split at looked
  · cases looked
    rfl
  · split at looked <;> cases looked <;> rfl

theorem footing_poll (backoff : Backoff) (e : Executor Board) :
    (poll backoff e).2.footing = e.footing := by
  fun_induction poll backoff e with
  | case1 backoff e error board looked => exact footing_pollStatus looked
  | case2 backoff e board looked => exact footing_pollStatus looked
  | case3 backoff e board looked pause later next ih =>
    rw [ih]
    exact footing_pollStatus looked
  | case4 backoff e board looked spent flags after read =>
    cases read
    exact footing_pollStatus looked

inductive Executed (shelf : Shelf) (e : Executor Board) :
    Except ExecutorError Unit → Footing → Shelf → Prop where
  -- Nothing is loaded, or the chip is in reset.
  | untried {error : ExecutorError} : Executed shelf e (.error error) e.footing shelf
  -- Program memory is empty.
  | blank {error : ExecutorError} {id : ProgramId} (loaded : e.transferred = some id)
      (none : e.transport.program = none) :
    Executed shelf e (.error error) { e.footing with triggers := e.transport.triggers + 1 }
      (shelf.modify id Program.beginRun)
  -- The stream is played; whether its end is seen in time is another matter.
  | played {outcome : Except ExecutorError Unit} {id : ProgramId} {packet : Packet}
      (loaded : e.transferred = some id) (resident : e.transport.program = some packet) :
    Executed shelf e outcome (e.footing.playing packet) (shelf.modify id Program.beginRun)

theorem start_cases (options : ExecuteOptions) (e : Executor Board) :
    (∃ error, e.transport.program = none ∧ (e.start options).1 = .error error ∧
      (e.start options).2.footing =
        { e.footing with triggers := e.transport.triggers + 1 }) ∨
    ∃ packet, e.transport.program = some packet ∧
      (e.start options).2.footing = e.footing.playing packet := by
  unfold start
  simp only [Transport.trigger, Board.trigger]
  cases resident : e.transport.program with
  | none =>
    left
    exact ⟨_, rfl, rfl, by simp only [footing, resident]⟩
  | some packet =>
    right
    refine ⟨packet, rfl, ?_⟩
    simp only [footing_poll]
    simp only [footing, Footing.playing, resident]

theorem execute_cases (options : ExecuteOptions) (shelf : Shelf) (e : Executor Board) :
    Executed shelf e (e.execute options shelf).1 (e.execute options shelf).2.1.footing
      (e.execute options shelf).2.2 := by
  unfold execute
  cases loaded : e.transferred with
  | none =>
    simp only [footing_settled]
    exact .untried
  | some id =>
    have same := footing_awaitReset e.resetAttempts e.resetAttempts e
    generalize awaitReset e.resetAttempts e.resetAttempts e = waited at same
    obtain ⟨outcome, ready⟩ := waited
    cases outcome with
    | error error =>
      simp only [footing_settled, same]
      exact .untried
    | ok done =>
      simp only [footing_settled]
      have program : ready.transport.program = e.transport.program := congrArg Footing.program same
      have count : ready.transport.triggers = e.transport.triggers :=
        congrArg Footing.triggers same
      rcases ready.start_cases options with ⟨error, none, fails, after⟩ | ⟨packet, resident, after⟩
      · rw [fails, after, same, count]
        exact .blank loaded (program ▸ none)
      · rw [after, same]
        exact .played loaded (program ▸ resident)

end Executor

def Board.reported (board : Board) : Bytes :=
  board.result.take (board.reportedSize.getD board.result.length)

namespace Executor

inductive Fetched (id : ProgramId) (shelf : Shelf) (e : Executor Board) :
    Except ExecutorError Unit → Footing → Shelf → Prop where
  | refused {error : ExecutorError} : Fetched id shelf e (.error error) e.footing shelf
  -- The response does not fit the program.
  | unfit {error : ExecutorError} {response : Response} {cause : ProgramError}
      (fails : ((shelf.get id).completeRun response).1 = .error cause) :
    Fetched id shelf e (.error error) e.footing
      (shelf.put id ((shelf.get id).completeRun response).2)
  | stored {response : Response} (loaded : e.transferred = some id)
      (reads : Response.demultiplex e.transport.reported = .ok response)
      (completes : ((shelf.get id).completeRun response).1 = .ok ()) :
    Fetched id shelf e (.ok ()) e.footing (shelf.put id ((shelf.get id).completeRun response).2)

theorem bulkRead_cases (board : Board) :
    (∃ error, board.bulkRead 0 (board.reportedSize.getD board.result.length) =
      (.error error, board)) ∨
    board.bulkRead 0 (board.reportedSize.getD board.result.length) =
      (.ok board.reported, board) := by
  unfold Board.bulkRead
  split
  · exact .inr rfl
  · exact .inl ⟨_, rfl⟩

theorem readResponse_cases (e : Executor Board) :
    (readResponse e).2.footing = e.footing ∧
      ∀ response, (readResponse e).1 = .ok response →
        Response.demultiplex e.transport.reported = .ok response := by
  unfold readResponse
  simp only [Transport.readResultSize, Board.readResultSize, Transport.maxResultSize,
    Transport.readExceptionFlags, Board.readExceptionFlags, Transport.bulkRead]
  by_cases large :
      e.transport.maxResultSize < e.transport.reportedSize.getD e.transport.result.length
  · rw [if_pos large]
    exact ⟨rfl, by simp⟩
  · rw [if_neg large]
    split
    · exact ⟨rfl, by simp⟩
    · rcases bulkRead_cases e.transport with ⟨error, fails⟩ | reads
      · simp only [fails]
        exact ⟨rfl, by simp⟩
      · simp only [reads]
        refine ⟨rfl, fun response taken => ?_⟩
        cases apart : Response.demultiplex e.transport.reported with
        | error error =>
          rw [apart] at taken
          cases taken
        | ok other =>
          rw [apart] at taken
          cases taken
          rfl

section Response

variable (e : Executor Board)

theorem readResponse_keeps :
    ∃ exception, (readResponse e).2 = { e with lastException := exception } := by
  unfold readResponse
  simp only [Transport.readResultSize, Board.readResultSize, Transport.maxResultSize,
    Transport.readExceptionFlags, Board.readExceptionFlags, Transport.bulkRead]
  split
  · exact ⟨_, rfl⟩
  · split
    · exact ⟨_, rfl⟩
    · rcases bulkRead_cases e.transport with ⟨error, fails⟩ | reads
      · simp only [fails]
        exact ⟨_, rfl⟩
      · simp only [reads]
        exact ⟨_, rfl⟩

theorem readResponse_congr {e other : Executor Board} (board : e.transport = other.transport)
    (settings : e.settings = other.settings) : (readResponse e).1 = (readResponse other).1 := by
  unfold readResponse
  simp only [Transport.readResultSize, Board.readResultSize, Transport.maxResultSize,
    Transport.readExceptionFlags, Board.readExceptionFlags, Transport.bulkRead, board, settings]
  split
  · rfl
  · split
    · rfl
    · rcases bulkRead_cases other.transport with ⟨error, fails⟩ | reads
      · simp only [fails]
      · simp only [reads]

def response (id : ProgramId) : Except ExecutorError Response :=
  match e.transferred with
  | none => .error .nothingTransferred
  | some transferred =>
    if transferred ≠ id then .error (.programMismatch transferred id)
    else (readResponse { e with state := .fetching }).1

theorem fetch_eq_response (id : ProgramId) (shelf : Shelf) :
    ∃ exception, e.fetch id shelf =
      match e.response id with
      | .error error =>
        (.error error, { e with state := .failed, lastException := exception }, shelf)
      | .ok answer =>
        let completed := (shelf.get id).completeRun answer
        let outcome := completed.1.mapError .resolve
        (outcome, settled outcome { e with state := .decoded, lastException := exception },
          shelf.put id completed.2) := by
  unfold fetch response
  obtain ⟨exception, after⟩ := readResponse_keeps { e with state := .fetching }
  obtain ⟨transport, settings, state, transferred, last⟩ := e
  cases transferred with
  | none => exact ⟨last, rfl⟩
  | some other =>
    dsimp only at after ⊢
    split
    · exact ⟨last, rfl⟩
    · generalize readResponse (T := Board) _ = read at after ⊢
      obtain ⟨outcome, read⟩ := read
      cases after
      cases outcome <;> exact ⟨exception, rfl⟩

variable {e} {id : ProgramId}

theorem response_fetch (shelf : Shelf) : (e.fetch id shelf).2.1.response id = e.response id := by
  have keeps : ∃ state exception,
      (e.fetch id shelf).2.1 = { e with state := state, lastException := exception } := by
    obtain ⟨exception, fetches⟩ := e.fetch_eq_response id shelf
    rw [fetches]
    cases e.response id with
    | error error => exact ⟨_, _, rfl⟩
    | ok answer =>
      dsimp only
      cases ((shelf.get id).completeRun answer).1 <;> exact ⟨_, _, rfl⟩
  obtain ⟨state, exception, same⟩ := keeps
  have reads : (readResponse { e with state := .fetching, lastException := exception }).1 =
      (readResponse { e with state := .fetching }).1 := readResponse_congr rfl rfl
  rw [same]
  unfold response
  rw [← reads]

theorem response_eq_ok {answer : Response} (reads : e.response id = .ok answer) :
    e.transferred = some id ∧ Response.demultiplex e.transport.reported = .ok answer := by
  unfold response at reads
  obtain ⟨-, whole⟩ := readResponse_cases { e with state := .fetching }
  obtain ⟨transport, settings, state, transferred, last⟩ := e
  cases transferred with
  | none => cases reads
  | some other =>
    dsimp only at reads whole ⊢
    split at reads
    case isTrue foreign => cases reads
    case isFalse own => exact ⟨congrArg some (Decidable.not_not.1 own), whole answer reads⟩

end Response

theorem fetch_cases (id : ProgramId) (shelf : Shelf) (e : Executor Board) :
    Fetched id shelf e (e.fetch id shelf).1 (e.fetch id shelf).2.1.footing
      (e.fetch id shelf).2.2 := by
  obtain ⟨exception, fetches⟩ := e.fetch_eq_response id shelf
  rw [fetches]
  cases reads : e.response id with
  | error error => exact .refused
  | ok answer =>
    obtain ⟨loaded, whole⟩ := response_eq_ok reads
    simp only [footing_settled]
    cases completes : ((shelf.get id).completeRun answer).1 with
    | error error => exact .unfit completes
    | ok done => exact .stored loaded whole completes

/-! ### Without faults -/

/-- The board takes programs, runs them at once and reports what they wrote. -/
structure Faultless (e : Executor Board) : Prop where
  takes : e.transport.failTransmit = false
  ready : e.transport.resetChecks = 0
  moving : e.transport.stuck = false
  prompt : e.transport.busyPolls = 0
  honest : e.transport.reportedSize = none
  tolerated : (e.settings.exceptionPolicy.fatal e.transport.exception).isEmpty = true

def loaded (program : Program) (e : Executor Board) : Executor Board :=
  { e with
    state := .transferring
    transferred := some program.id
    transport := { e.transport with
      transmits := e.transport.transmits + 1
      program := some (packet e.settings program) } }

theorem transfer_eq_loaded {program : Program} {e : Executor Board}
    (loadable : Loadable e.transport.kind program) (takes : e.transport.failTransmit = false) :
    e.transfer program = (.ok (), e.loaded program) := by
  obtain ⟨compatible, small⟩ := loadable
  have free : program.restriction.filter (· ≠ Transport.kind e.transport) = none :=
    isExecutableOn_iff.1 compatible
  have encoded : (packet e.settings program).encode = .ok _ := if_pos small
  unfold transfer
  dsimp only
  rw [free]
  unfold load
  simp only [packet] at encoded
  simp only [encoded, Transport.transmit, transmit_blocks encoded, takes, Bool.false_eq_true,
    if_false]
  simp only [settled, Executor.loaded, packet, takes]

def executed (packet : Packet) (e : Executor Board) : Executor Board :=
  { e with
    state := .polling
    transport := { e.transport with
      machine := (e.transport.machine.play packet.flags.annotates packet.instructions).2
      result := Response.encode
        (e.transport.machine.play packet.flags.annotates packet.instructions).1
      busyLeft := 0
      triggers := e.transport.triggers + 1
      polls := e.transport.polls + 1 } }

namespace Faultless

variable {e : Executor Board}

theorem loaded (faultless : e.Faultless) (program : Program) : (e.loaded program).Faultless where
  takes := faultless.takes
  ready := faultless.ready
  moving := faultless.moving
  prompt := faultless.prompt
  honest := faultless.honest
  tolerated := faultless.tolerated

theorem executed (faultless : e.Faultless) (packet : Packet) :
    (e.executed packet).Faultless where
  takes := faultless.takes
  ready := faultless.ready
  moving := faultless.moving
  prompt := faultless.prompt
  honest := faultless.honest
  tolerated := faultless.tolerated

theorem transfer_eq (faultless : e.Faultless) {program : Program}
    (loadable : Loadable e.transport.kind program) :
    e.transfer program = (.ok (), e.loaded program) :=
  transfer_eq_loaded loadable faultless.takes

theorem execute_eq (faultless : e.Faultless) {options : ExecuteOptions} {shelf : Shelf}
    {id : ProgramId} {packet : Packet} (loaded : e.transferred = some id)
    (resident : e.transport.program = some packet) :
    e.execute options shelf =
      (.ok (), e.executed packet, shelf.modify id Program.beginRun) := by
  obtain ⟨left, attempts⟩ : ∃ left, e.resetAttempts = left + 1 := by
    refine ⟨e.resetAttempts - 1, ?_⟩
    unfold resetAttempts
    omega
  unfold execute
  rw [attempts]
  unfold awaitReset start
  simp only [loaded, Transport.chipInReset, Board.chipInReset, faultless.ready, if_true,
    Transport.trigger, Board.trigger, resident]
  rw [poll]
  simp only [Transport.pollStatus, Board.pollStatus, faultless.moving, faultless.prompt,
    Bool.false_eq_true, if_false, if_true]
  simp only [settled, Executor.executed, loaded, resident, faultless.ready, faultless.moving,
    faultless.prompt]

theorem fetch_eq (faultless : e.Faultless) {id : ProgramId} {shelf : Shelf} {response : Response}
    {program : Program} (loaded : e.transferred = some id)
    (fits : e.transport.result.length ≤ e.transport.maxResultSize)
    (reads : Response.demultiplex e.transport.result = .ok response)
    (completes : (shelf.get id).completeRun response = (.ok (), program)) :
    e.fetch id shelf =
      (.ok (), { e with state := .decoded, lastException := some e.transport.exception },
        shelf.put id program) := by
  have whole : (e.transport.result.drop 0).take e.transport.result.length =
      e.transport.result := by simp
  have passed : (Except.ok response : Except Wire.RecordError Response).mapError
      ExecutorError.response = .ok response := rfl
  unfold fetch readResponse
  simp only [loaded, ne_eq, not_true_eq_false, if_false, Transport.readResultSize,
    Board.readResultSize, faultless.honest, Option.getD_none, Transport.maxResultSize,
    Nat.not_lt.2 fits, Transport.readExceptionFlags, Board.readExceptionFlags,
    faultless.tolerated, Bool.not_true, Bool.false_eq_true, Transport.bulkRead, Board.bulkRead,
    Nat.zero_add, Nat.le_refl, if_true, whole, reads, passed, completes]
  rfl

end Faultless

end Executor

end Playback
