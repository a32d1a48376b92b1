import Playback.Executor.Transport
import Playback.Packet
import Playback.Program.Shelf
import Playback.Settings

/-! Running programs over a link, one step at a time.

Transfer loads a program, execute runs the loaded program and waits for its end, fetch stores the
results in the program. Every step gives its outcome and the executor after it; those that change
results of programs give the shelf as well. A step that fails leaves the executor in the state
`failed`.
-/

set_option autoImplicit false

namespace Playback

inductive ExecutorState where
  | idle
  | transferring
  | triggered
  | polling
  | fetching
  | decoded
  | failed
  deriving DecidableEq, Repr

def ExecutorState.name : ExecutorState → String
  | idle => "Idle"
  | transferring => "Transferring"
  | triggered => "Triggered"
  | polling => "Polling"
  | fetching => "Fetching"
  | decoded => "Decoded"
  | failed => "Failed"

inductive ExecutorError where
  | transport (error : TransportError)
  | packet (error : PacketError)
  | response (error : Wire.RecordError)
  | incompatibleProgram (program : ProgramId) (required available : ExecutorKind)
  | nothingTransferred
  /-- Results were asked for another program than the one on the board. -/
  | programMismatch (transferred requested : ProgramId)
  | chipInReset (attempts : Nat)
  /-- The run did not end in time; with the exception register at that moment, if it could
  be read. -/
  | timeout (waited : Nat) (exception : Option ExceptionFlags)
  | resultTooLarge (size max : Nat)
  | hardwareException (flags : ExceptionFlags)
  | resolve (error : ProgramError)
  deriving DecidableEq, Repr

namespace ExecutorError

def cause : ExecutorError → String
  | transport error => "Transport." ++ error.cause
  | packet error => "Wire." ++ error.cause
  | response error => "Wire." ++ error.cause
  | incompatibleProgram .. => "IncompatibleProgram"
  | nothingTransferred => "NothingTransferred"
  | programMismatch .. => "ProgramMismatch"
  | chipInReset _ => "ChipInReset"
  | timeout .. => "Timeout"
  | resultTooLarge .. => "ResultTooLarge"
  | hardwareException _ => "HardwareException"
  | resolve error => "Resolve." ++ error.cause

def message : ExecutorError → String
  | transport error => error.message
  | packet error => error.message
  | response error => error.message
  | incompatibleProgram program required available =>
    s!"program {ProgramId.text program} requires a {required.name} executor, "
      ++ s!"this one is {available.name}"
  | nothingTransferred => "no playback program has been transferred yet"
  | programMismatch transferred requested =>
    s!"program {ProgramId.text requested} was not transferred; {ProgramId.text transferred} was"
  | chipInReset attempts => s!"chip still in reset after {attempts} checks"
  | timeout waited exception =>
    let flags := match exception with
      | none => "unreadable"
      | some flags => flags.text
    s!"execute flag not cleared after {Duration.text waited} (exceptions: {flags})"
  | resultTooLarge size max => s!"result size {size} exceeds result memory of {max} bytes"
  | hardwareException flags => s!"hardware exception raised: {flags.text}"
  | resolve error => error.message

end ExecutorError

structure Executor (T : Type) where
  transport : T
  settings : Settings := {}
  state : ExecutorState := .idle
  transferred : Option ProgramId := none
  /-- The exception register as it was last read. -/
  lastException : Option ExceptionFlags := none

namespace Executor

variable {T : Type} [Transport T]

def settled (outcome : Except ExecutorError Unit) (e : Executor T) : Executor T :=
  match outcome with
  | .ok () => e
  | .error _ => { e with state := .failed }

/-! ### Transfer -/

def load (program : Program) (e : Executor T) : Except ExecutorError Unit × Executor T :=
  let e := { e with transferred := none, state := .transferring }
  let flags := ProgramFlags.annotating e.settings.timeAnnotation
  match Packet.encode { flags, instructions := program.instructions } with
  | .error error => (.error (.packet error), e)
  | .ok bytes =>
    match Transport.transmit (Packet.blocks bytes) e.transport with
    | (.error error, transport) => (.error (.transport error), { e with transport })
    | (.ok (), transport) => (.ok (), { e with transport, transferred := some program.id })

/-- Loads a program. One that is restricted to another kind of executor is refused at once, and the
program loaded before stays. -/
def transfer (program : Program) (e : Executor T) : Except ExecutorError Unit × Executor T :=
  let available := Transport.kind e.transport
  let (outcome, e) :=
    match program.restriction.filter (· ≠ available) with
    | some required => (.error (.incompatibleProgram program.id required available), e)
    | none => e.load program
  (outcome, settled outcome e)

/-! ### Execute -/

/-- Looks until the chip is out of reset; `attempts` times at most, of which `left` are left. -/
def awaitReset (attempts : Nat) : (left : Nat) → Executor T →
    Except ExecutorError Unit × Executor T
  | 0, e => (.error (.chipInReset attempts), e)
  | left + 1, e =>
    match Transport.chipInReset e.transport with
    | (.error error, transport) => (.error (.transport error), { e with transport })
    | (.ok false, transport) => (.ok (), { e with transport })
    | (.ok true, transport) => awaitReset attempts left { e with transport }

/-- At least one look, whatever the settings say. -/
def resetAttempts (e : Executor T) : Nat :=
  max 1 e.settings.resetAttempts.toNat

def poll (backoff : Backoff) (e : Executor T) : Except ExecutorError Unit × Executor T :=
  match Transport.pollStatus e.transport with
  | (.error error, transport) => (.error (.transport error), { e with transport })
  | (.ok false, transport) => (.ok (), { e with transport })
  | (.ok true, transport) =>
    match _found : backoff.next? with
    | some (_, later) => poll later { e with transport }
    | none =>
      let (flags, transport) := Transport.readExceptionFlags transport
      let exception := flags.toOption
      (.error (.timeout backoff.waited exception),
        { e with transport, lastException := exception })
termination_by backoff.remaining
decreasing_by exact Backoff.remaining_lt_of_next? _found

def start (options : ExecuteOptions) (e : Executor T) : Except ExecutorError Unit × Executor T :=
  match Transport.trigger e.transport with
  | (.error error, transport) => (.error (.transport error), { e with transport })
  | (.ok (), transport) => poll (.start options.limits) { e with transport, state := .polling }

/-- Runs the program on the board. Its results are cleared before it is started. -/
def execute (options : ExecuteOptions) (shelf : Shelf) (e : Executor T) :
    Except ExecutorError Unit × Executor T × Shelf :=
  match e.transferred with
  | none => (.error .nothingTransferred, settled (.error .nothingTransferred) e, shelf)
  | some id =>
    match awaitReset e.resetAttempts e.resetAttempts e with
    | (.error error, e) => (.error error, settled (.error error) e, shelf)
    | (.ok (), e) =>
      let (outcome, e) := e.start options
      (outcome, settled outcome e, shelf.modify id Program.beginRun)

/-! ### Fetch -/

/-- Reads the response of the last run. Flags that fail a run are looked for before result memory is
read, and the reported size is checked before both. -/
def readResponse (e : Executor T) : Except ExecutorError Response × Executor T :=
  match Transport.readResultSize e.transport with
  | (.error error, transport) => (.error (.transport error), { e with transport })
  | (.ok size, transport) =>
    let max := Transport.maxResultSize transport
    if max < size then (.error (.resultTooLarge size max), { e with transport })
    else
      match Transport.readExceptionFlags transport with
      | (.error error, transport) => (.error (.transport error), { e with transport })
      | (.ok flags, transport) =>
        let e := { e with transport, lastException := some flags }
        if !(e.settings.exceptionPolicy.fatal flags).isEmpty then
          (.error (.hardwareException flags), e)
        else
          match Transport.bulkRead 0 size e.transport with
          | (.error error, transport) => (.error (.transport error), { e with transport })
          | (.ok bytes, transport) =>
            ((Response.demultiplex bytes).mapError .response, { e with transport })

/-- Stores the results of the last run in the program, which must be the one on the board. -/
def fetch (id : ProgramId) (shelf : Shelf) (e : Executor T) :
    Except ExecutorError Unit × Executor T × Shelf :=
  match e.transferred with
  | none => (.error .nothingTransferred, settled (.error .nothingTransferred) e, shelf)
  | some transferred =>
    if transferred ≠ id then
      let error := .programMismatch transferred id
      (.error error, settled (.error error) e, shelf)
    else
      match readResponse { e with state := .fetching } with
      | (.error error, e) => (.error error, settled (.error error) e, shelf)
      | (.ok response, e) =>
        let (outcome, program) := (shelf.get id).completeRun response
        let outcome := outcome.mapError .resolve
        (outcome, settled outcome { e with state := .decoded }, shelf.put id program)

def run (id : ProgramId) (options : ExecuteOptions) (shelf : Shelf) (e : Executor T) :
    Except ExecutorError Unit × Executor T × Shelf :=
  match e.transfer (shelf.get id) with
  | (.error error, e) => (.error error, e, shelf)
  | (.ok (), e) =>
    match e.execute options shelf with
    | (.error error, e, shelf) => (.error error, e, shelf)
    | (.ok (), e, shelf) => e.fetch id shelf

end Executor

end Playback
