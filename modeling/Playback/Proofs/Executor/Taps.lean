import Playback.Board.Rig
import Playback.Executor.Basic

/-! Links that write down the calls they get.

A tap passes every call on, so an executor does the same with a tap on its link as without it.
-/

set_option autoImplicit false

namespace Playback

/-- A link that is seen as another one: a call gives the same answer on both, and what it leaves is
seen as what it leaves of the other. -/
structure Transport.Mirrors {S T : Type} [Transport S] [Transport T] (view : S → T) : Prop where
  maxResultSize (link : S) : Transport.maxResultSize (view link) = Transport.maxResultSize link
  chipInReset (link : S) :
    Transport.chipInReset (view link) =
      ((Transport.chipInReset link).1, view (Transport.chipInReset link).2)
  trigger (link : S) :
    Transport.trigger (view link) = ((Transport.trigger link).1, view (Transport.trigger link).2)
  pollStatus (link : S) :
    Transport.pollStatus (view link) =
      ((Transport.pollStatus link).1, view (Transport.pollStatus link).2)
  readExceptionFlags (link : S) :
    Transport.readExceptionFlags (view link) =
      ((Transport.readExceptionFlags link).1, view (Transport.readExceptionFlags link).2)
  readResultSize (link : S) :
    Transport.readResultSize (view link) =
      ((Transport.readResultSize link).1, view (Transport.readResultSize link).2)
  bulkRead (offset length : Nat) (link : S) :
    Transport.bulkRead offset length (view link) =
      ((Transport.bulkRead offset length link).1, view (Transport.bulkRead offset length link).2)

namespace Executor

def seenAs {S T : Type} (view : S → T) (e : Executor S) : Executor T where
  transport := view e.transport
  settings := e.settings
  state := e.state
  transferred := e.transferred
  lastException := e.lastException

theorem settled_seenAs {S T : Type} (view : S → T) (outcome : Except ExecutorError Unit)
    (e : Executor S) : settled outcome (e.seenAs view) = (settled outcome e).seenAs view := by
  cases outcome <;> rfl

section Poll

variable {T : Type} [Transport T] {backoff : Backoff} {e : Executor T} {link : T}

theorem poll_of_error {error : TransportError}
    (looked : Transport.pollStatus e.transport = (.error error, link)) :
    poll backoff e = (.error (.transport error), { e with transport := link }) := by
  rw [poll, looked]

theorem poll_of_done (looked : Transport.pollStatus e.transport = (.ok false, link)) :
    poll backoff e = (.ok (), { e with transport := link }) := by
  rw [poll, looked]

theorem poll_of_left {pause : Nat} {later : Backoff}
    (looked : Transport.pollStatus e.transport = (.ok true, link))
    (left : backoff.next? = some (pause, later)) :
    poll backoff e = poll later { e with transport := link } := by
  rw [poll, looked]
  dsimp only
  split
  · rename_i found
    cases left.symm.trans found
    rfl
  · rename_i found
    cases left.symm.trans found

theorem poll_of_spent (looked : Transport.pollStatus e.transport = (.ok true, link))
    (spent : backoff.next? = none) :
    poll backoff e =
      (.error (.timeout backoff.waited (Transport.readExceptionFlags link).1.toOption),
        { e with
          transport := (Transport.readExceptionFlags link).2
          lastException := (Transport.readExceptionFlags link).1.toOption }) := by
  rw [poll, looked]
  dsimp only
  split
  · rename_i found
    cases spent.symm.trans found
  · rfl

end Poll

end Executor

namespace Transport.Mirrors

open Executor

variable {S T : Type} [Transport S] [Transport T] {view : S → T} (mirrors : Mirrors view)

include mirrors

theorem awaitReset (attempts left : Nat) (e : Executor S) :
    Executor.awaitReset attempts left (e.seenAs view) =
      ((Executor.awaitReset attempts left e).1,
        (Executor.awaitReset attempts left e).2.seenAs view) := by
  induction left generalizing e with
  | zero => rfl
  | succ left ih =>
    have looked : Transport.chipInReset (e.seenAs view).transport = _ :=
      mirrors.chipInReset e.transport
    unfold Executor.awaitReset
    rw [looked]
    obtain ⟨outcome, link⟩ := Transport.chipInReset e.transport
    rcases outcome with error | held
    · rfl
    · cases held with
      | false => rfl
      | true => exact ih { e with transport := link }

theorem poll (backoff : Backoff) (e : Executor S) :
    Executor.poll backoff (e.seenAs view) =
      ((Executor.poll backoff e).1, (Executor.poll backoff e).2.seenAs view) := by
  have looked {e : Executor S} {outcome : Except TransportError Bool} {link : S}
      (polled : Transport.pollStatus e.transport = (outcome, link)) :
      Transport.pollStatus (e.seenAs view).transport = (outcome, view link) := by
    refine (mirrors.pollStatus e.transport).trans ?_
    rw [polled]
  fun_induction Executor.poll backoff e with
  | case1 backoff e error link polled => exact poll_of_error (looked polled)
  | case2 backoff e link polled => exact poll_of_done (looked polled)
  | case3 backoff e link polled pause later next ih =>
    exact (poll_of_left (looked polled) next).trans ih
  | case4 backoff e link polled spent flags after read =>
    rw [poll_of_spent (looked polled) spent, mirrors.readExceptionFlags, read]
    rfl

theorem start (options : ExecuteOptions) (e : Executor S) :
    (e.seenAs view).start options = ((e.start options).1, (e.start options).2.seenAs view) := by
  have triggered : Transport.trigger (e.seenAs view).transport = _ := mirrors.trigger e.transport
  unfold Executor.start
  rw [triggered]
  obtain ⟨outcome, link⟩ := Transport.trigger e.transport
  cases outcome with
  | error error => rfl
  | ok done => exact mirrors.poll _ { e with transport := link, state := .polling }

theorem execute (options : ExecuteOptions) (shelf : Shelf) (e : Executor S) :
    (e.seenAs view).execute options shelf =
      ((e.execute options shelf).1, (e.execute options shelf).2.1.seenAs view,
        (e.execute options shelf).2.2) := by
  have waited := mirrors.awaitReset e.resetAttempts e.resetAttempts e
  have attempts : (e.seenAs view).resetAttempts = e.resetAttempts := rfl
  have same : (e.seenAs view).transferred = e.transferred := rfl
  unfold Executor.execute
  rw [same, attempts]
  cases e.transferred with
  | none => rfl
  | some program =>
    dsimp only
    rw [waited]
    obtain ⟨outcome, ready⟩ := Executor.awaitReset e.resetAttempts e.resetAttempts e
    cases outcome with
    | error error => rfl
    | ok done =>
      dsimp only
      rw [mirrors.start, settled_seenAs]

theorem readResponse (e : Executor S) :
    Executor.readResponse (e.seenAs view) =
      ((Executor.readResponse e).1, (Executor.readResponse e).2.seenAs view) := by
  have sized : Transport.readResultSize (e.seenAs view).transport = _ :=
    mirrors.readResultSize e.transport
  have settings : (e.seenAs view).settings = e.settings := rfl
  unfold Executor.readResponse
  rw [sized]
  obtain ⟨outcome, link⟩ := Transport.readResultSize e.transport
  cases outcome with
  | error error => rfl
  | ok size =>
    dsimp only
    rw [mirrors.maxResultSize]
    by_cases large : Transport.maxResultSize link < size
    · rw [if_pos large, if_pos large]
      rfl
    · rw [if_neg large, if_neg large, mirrors.readExceptionFlags]
      obtain ⟨outcome, link⟩ := Transport.readExceptionFlags link
      cases outcome with
      | error error => rfl
      | ok flags =>
        dsimp only
        rw [settings]
        by_cases fails : (!(e.settings.exceptionPolicy.fatal flags).isEmpty) = true
        · rw [if_pos fails, if_pos fails]
          rfl
        · rw [if_neg fails, if_neg fails, mirrors.bulkRead]
          obtain ⟨outcome, link⟩ := Transport.bulkRead 0 size link
          cases outcome <;> rfl

theorem fetch (program : ProgramId) (shelf : Shelf) (e : Executor S) :
    (e.seenAs view).fetch program shelf =
      ((e.fetch program shelf).1, (e.fetch program shelf).2.1.seenAs view,
        (e.fetch program shelf).2.2) := by
  obtain ⟨link, settings, state, transferred, last⟩ := e
  have same : seenAs view ⟨link, settings, state, transferred, last⟩ =
      ⟨view link, settings, state, transferred, last⟩ := rfl
  rw [same]
  cases transferred with
  | none => rfl
  | some other =>
    have read : Executor.readResponse ⟨view link, settings, .fetching, some other, last⟩ = _ :=
      mirrors.readResponse ⟨link, settings, .fetching, some other, last⟩
    unfold Executor.fetch
    dsimp only
    by_cases foreign : other ≠ program
    · rw [if_pos foreign, if_pos foreign]
      rfl
    · rw [if_neg foreign, if_neg foreign, read]
      obtain ⟨outcome, answered⟩ := Executor.readResponse (T := S) _
      cases outcome with
      | error error => rfl
      | ok response =>
        dsimp only
        rw [← settled_seenAs]
        rfl

end Transport.Mirrors

/-- A link and the calls that it got, oldest first. -/
structure Tap (T : Type) where
  link : T
  calls : List LinkCall := []

namespace Tap

variable {T : Type}

def through {α : Type} (call : LinkCall) (act : T → Except TransportError α × T) (tap : Tap T) :
    Except TransportError α × Tap T :=
  let (outcome, link) := act tap.link
  (outcome, { link, calls := tap.calls ++ [call] })

instance [Transport T] : Transport (Tap T) where
  kind tap := Transport.kind tap.link
  transmit blocks := through .transmit (Transport.transmit blocks)
  chipInReset := through .chipInReset Transport.chipInReset
  trigger := through .trigger Transport.trigger
  pollStatus := through .pollStatus Transport.pollStatus
  readExceptionFlags := through .readExceptionFlags Transport.readExceptionFlags
  readResultSize := through .readResultSize Transport.readResultSize
  maxResultSize tap := Transport.maxResultSize tap.link
  bulkRead offset length := through .bulkRead (Transport.bulkRead offset length)

theorem mirrors_link [Transport T] : Transport.Mirrors (Tap.link : Tap T → T) where
  maxResultSize _ := rfl
  chipInReset _ := rfl
  trigger _ := rfl
  pollStatus _ := rfl
  readExceptionFlags _ := rfl
  readResultSize _ := rfl
  bulkRead _ _ _ := rfl

end Tap

namespace Executor

variable {T : Type}

def tapped (e : Executor T) : Executor (Tap T) :=
  e.seenAs fun link => { link }

/-- After these calls, which left the link in this way. -/
def called (calls : List LinkCall) (change : T → T) (e : Executor (Tap T)) : Executor (Tap T) :=
  { e with
    transport := { link := change e.transport.link, calls := e.transport.calls ++ calls } }

def asked (calls : List LinkCall) (e : Executor (Tap T)) : Executor (Tap T) :=
  e.called calls fun link => link

theorem through_called {α : Type} {call : LinkCall} {act : T → Except TransportError α × T}
    {outcome : Except TransportError α} {change : T → T} {e : Executor (Tap T)}
    (acts : act e.transport.link = (outcome, change e.transport.link)) :
    Tap.through call act e.transport = (outcome, (e.called [call] change).transport) := by
  rw [Tap.through, acts]
  rfl

theorem called_called (first second : List LinkCall) (change further : T → T)
    (e : Executor (Tap T)) :
    (e.called first change).called second further =
      e.called (first ++ second) fun link => further (change link) := by
  simp only [called, List.append_assoc]

end Executor

end Playback
