import Playback.Proofs.Executor.Steps

/-! What stays of a link, whatever an executor does.

If no single call changes what is seen of a link, no step of an executor does. A board keeps its
kind and the result size that it reports in place of the real one.
-/

set_option autoImplicit false

namespace Playback

/-- No call changes what is seen of a link. -/
structure Transport.Keeps {T α : Type} [Transport T] (view : T → α) : Prop where
  transmit (blocks : List Bytes) (link : T) : view (Transport.transmit blocks link).2 = view link
  chipInReset (link : T) : view (Transport.chipInReset link).2 = view link
  trigger (link : T) : view (Transport.trigger link).2 = view link
  pollStatus (link : T) : view (Transport.pollStatus link).2 = view link
  readExceptionFlags (link : T) : view (Transport.readExceptionFlags link).2 = view link
  readResultSize (link : T) : view (Transport.readResultSize link).2 = view link
  bulkRead (offset length : Nat) (link : T) :
    view (Transport.bulkRead offset length link).2 = view link

namespace Executor

@[simp] theorem transport_settled {T : Type} (outcome : Except ExecutorError Unit)
    (e : Executor T) : (settled outcome e).transport = e.transport := by
  cases outcome <;> rfl

end Executor

namespace Transport.Keeps

open Executor

variable {T α : Type} [Transport T] {view : T → α} (keeps : Keeps view)

include keeps

theorem transfer (program : Program) (e : Executor T) :
    view (e.transfer program).2.transport = view e.transport := by
  unfold Executor.transfer
  dsimp only
  rw [transport_settled]
  cases program.restriction.filter (· ≠ Transport.kind e.transport) with
  | some required => rfl
  | none =>
    unfold load
    dsimp only
    split
    · rfl
    · rename_i bytes _
      have sent := keeps.transmit (Packet.blocks bytes) e.transport
      generalize Transport.transmit (Packet.blocks bytes) e.transport = result at sent ⊢
      obtain ⟨outcome, link⟩ := result
      cases outcome <;> exact sent

theorem awaitReset (attempts left : Nat) (e : Executor T) :
    view (Executor.awaitReset attempts left e).2.transport = view e.transport := by
  induction left generalizing e with
  | zero => rfl
  | succ left ih =>
    unfold Executor.awaitReset
    have looked := keeps.chipInReset e.transport
    generalize Transport.chipInReset e.transport = result at looked ⊢
    obtain ⟨outcome, link⟩ := result
    rcases outcome with error | held
    · exact looked
    · cases held with
      | false => exact looked
      | true => exact (ih _).trans looked

theorem poll (backoff : Backoff) (e : Executor T) :
    view (Executor.poll backoff e).2.transport = view e.transport := by
  have looked {e : Executor T} {outcome : Except TransportError Bool} {link : T}
      (polled : Transport.pollStatus e.transport = (outcome, link)) :
      view link = view e.transport := by
    rw [← keeps.pollStatus e.transport, polled]
  fun_induction Executor.poll backoff e with
  | case1 backoff e error link polled => exact looked polled
  | case2 backoff e link polled => exact looked polled
  | case3 backoff e link polled pause later next ih => exact ih.trans (looked polled)
  | case4 backoff e link polled spent flags after read =>
    rw [← looked polled, ← keeps.readExceptionFlags link, read]

theorem start (options : ExecuteOptions) (e : Executor T) :
    view (e.start options).2.transport = view e.transport := by
  unfold Executor.start
  have triggered := keeps.trigger e.transport
  generalize Transport.trigger e.transport = result at triggered ⊢
  obtain ⟨outcome, link⟩ := result
  cases outcome with
  | error error => exact triggered
  | ok done => exact (keeps.poll _ _).trans triggered

theorem execute (options : ExecuteOptions) (shelf : Shelf) (e : Executor T) :
    view (e.execute options shelf).2.1.transport = view e.transport := by
  unfold Executor.execute
  cases e.transferred with
  | none => exact congrArg view (transport_settled _ e)
  | some id =>
    have waited := keeps.awaitReset e.resetAttempts e.resetAttempts e
    generalize Executor.awaitReset e.resetAttempts e.resetAttempts e = result at waited ⊢
    obtain ⟨outcome, ready⟩ := result
    dsimp only at waited ⊢
    cases outcome with
    | error error => rwa [transport_settled]
    | ok done =>
      dsimp only
      rw [transport_settled, keeps.start, waited]

theorem readResponse (e : Executor T) :
    view (Executor.readResponse e).2.transport = view e.transport := by
  unfold Executor.readResponse
  have sized := keeps.readResultSize e.transport
  generalize Transport.readResultSize e.transport = result at sized ⊢
  obtain ⟨outcome, link⟩ := result
  cases outcome with
  | error error => exact sized
  | ok size =>
    dsimp only at sized ⊢
    split
    · exact sized
    · rw [← sized]
      have flagged := keeps.readExceptionFlags link
      generalize Transport.readExceptionFlags link = result at flagged ⊢
      obtain ⟨outcome, link⟩ := result
      cases outcome with
      | error error => exact flagged
      | ok flags =>
        dsimp only at flagged ⊢
        split
        · exact flagged
        · rw [← flagged]
          have read := keeps.bulkRead 0 size link
          generalize Transport.bulkRead 0 size link = result at read ⊢
          obtain ⟨outcome, link⟩ := result
          cases outcome <;> exact read

theorem fetch (id : ProgramId) (shelf : Shelf) (e : Executor T) :
    view (e.fetch id shelf).2.1.transport = view e.transport := by
  unfold Executor.fetch
  obtain ⟨link, settings, state, transferred, last⟩ := e
  cases transferred with
  | none => rfl
  | some transferred =>
    dsimp only
    split
    · rfl
    · have read := keeps.readResponse ⟨link, settings, .fetching, some transferred, last⟩
      generalize Executor.readResponse (T := T) _ = result at read ⊢
      obtain ⟨outcome, answered⟩ := result
      cases outcome with
      | error error => exact read
      | ok response =>
        dsimp only at read ⊢
        rwa [transport_settled]

end Transport.Keeps

namespace Board

def fixture (board : Board) : ExecutorKind × Option Nat :=
  (board.kind, board.reportedSize)

theorem keeps_fixture : Transport.Keeps fixture where
  transmit blocks board := by
    change (board.transmit blocks).2.fixture = board.fixture
    unfold transmit
    dsimp only
    split
    · rfl
    · split <;> rfl
  chipInReset board := by
    change board.chipInReset.2.fixture = board.fixture
    unfold chipInReset
    split <;> rfl
  trigger board := by
    change board.trigger.2.fixture = board.fixture
    unfold trigger
    dsimp only
    split <;> rfl
  pollStatus board := by
    change board.pollStatus.2.fixture = board.fixture
    unfold pollStatus
    dsimp only
    split
    · rfl
    · split <;> rfl
  readExceptionFlags board := rfl
  readResultSize board := rfl
  bulkRead offset length board := by
    change (board.bulkRead offset length).2.fixture = board.fixture
    unfold bulkRead
    split <;> rfl

end Board

end Playback
