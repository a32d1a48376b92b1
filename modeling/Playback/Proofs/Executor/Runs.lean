import Playback.Proofs.Executor.Fetching
import Playback.Proofs.Program.Repetition

/-! What a run leaves of a program.

A run that fails either ends before the board is triggered, and no result has changed, or after it,
and the program has no results. The other programs keep theirs.
-/

set_option autoImplicit false

namespace Playback

theorem Ticket.results_congr {C V : Type} [Coordinate C] {ticket : Ticket C V}
    {shelf other : Shelf} (same : other.slot? ticket.id = shelf.slot? ticket.id) :
    ticket.isValid other = ticket.isValid shelf ∧ ticket.get other = ticket.get shelf ∧
      ticket.fpgaTime other = ticket.fpgaTime shelf := by
  simp only [isValid, get, fpgaTime, answer, same, and_self]

namespace Executor

theorem failed_settled_iff {T : Type} {outcome : Except ExecutorError Unit} {e : Executor T}
    (alive : outcome = .ok () → e.state ≠ .failed) :
    (settled outcome e).state = .failed ↔ ∃ error, outcome = .error error := by
  cases outcome with
  | error error => exact ⟨fun _ => ⟨error, rfl⟩, fun _ => rfl⟩
  | ok done => simp [settled, alive rfl]

section State

variable {T : Type} [Transport T]

theorem state_load (program : Program) (e : Executor T) :
    (e.load program).2.state = .transferring := by
  unfold load
  dsimp only
  split
  · rfl
  · split <;> rfl

theorem failed_transfer_iff (program : Program) (e : Executor T) :
    (e.transfer program).2.state = .failed ↔
      ∃ error, (e.transfer program).1 = .error error := by
  unfold transfer
  dsimp only
  apply failed_settled_iff
  cases program.restriction.filter (· ≠ Transport.kind e.transport) with
  | some required => simp
  | none => simp [state_load]

theorem state_poll (backoff : Backoff) (e : Executor T) : (poll backoff e).2.state = e.state := by
  fun_induction poll backoff e with
  | case1 => rfl
  | case2 => rfl
  | case3 backoff e board looked pause later next ih => exact ih
  | case4 => rfl

theorem state_start {options : ExecuteOptions} {e : Executor T}
    (done : (e.start options).1 = .ok ()) : (e.start options).2.state = .polling := by
  unfold start at done ⊢
  split
  · rename_i failed
    rw [failed] at done
    cases done
  · exact state_poll _ _

theorem failed_execute_iff (options : ExecuteOptions) (shelf : Shelf) (e : Executor T) :
    (e.execute options shelf).2.1.state = .failed ↔
      ∃ error, (e.execute options shelf).1 = .error error := by
  unfold execute
  split
  · exact failed_settled_iff (by simp)
  · split
    · exact failed_settled_iff (by simp)
    · exact failed_settled_iff fun done => by simp [state_start done]

theorem failed_fetch_iff (id : ProgramId) (shelf : Shelf) (e : Executor T) :
    (e.fetch id shelf).2.1.state = .failed ↔
      ∃ error, (e.fetch id shelf).1 = .error error := by
  unfold fetch
  split
  · exact failed_settled_iff (by simp)
  · split
    · exact failed_settled_iff (by simp)
    · split
      · exact failed_settled_iff (by simp)
      · exact failed_settled_iff (by simp)

theorem failed_run_iff (id : ProgramId) (options : ExecuteOptions) (shelf : Shelf)
    (e : Executor T) :
    (e.run id options shelf).2.1.state = .failed ↔
      ∃ error, (e.run id options shelf).1 = .error error := by
  have transfers := e.failed_transfer_iff (shelf.get id)
  unfold run
  generalize e.transfer (shelf.get id) = result at transfers ⊢
  obtain ⟨outcome, loaded⟩ := result
  cases outcome with
  | error error => exact transfers
  | ok done =>
    have executes := loaded.failed_execute_iff options shelf
    dsimp only
    generalize loaded.execute options shelf = result at executes ⊢
    obtain ⟨outcome, ran, after⟩ := result
    cases outcome with
    | error error => exact executes
    | ok done => exact ran.failed_fetch_iff id after

end State

section Run

variable {id : ProgramId} {shelf after : Shelf} {e : Executor Board} {f : Footing}
  {outcome : Except ExecutorError Unit} {program : Program}

theorem Transferred.triggers (ways : Transferred program e outcome f) :
    f.triggers = e.transport.triggers := by
  cases ways <;> rfl

theorem Transferred.loads (ways : Transferred program e (.ok ()) f) :
    f.transferred = some program.id := by
  cases ways
  rfl

theorem Fetched.triggers (ways : Fetched id shelf e outcome f after) :
    f.triggers = e.transport.triggers := by
  cases ways <;> rfl

theorem Executed.begun (ways : Executed shelf e outcome f after)
    (loaded : e.transferred = some id) :
    (f.triggers = e.transport.triggers ∧ after = shelf ∧ outcome ≠ .ok ()) ∨
      (f.triggers = e.transport.triggers + 1 ∧ after = shelf.modify id Program.beginRun) := by
  cases ways with
  | untried => exact .inl ⟨rfl, rfl, by simp⟩
  | blank other none =>
    cases loaded.symm.trans other
    exact .inr ⟨rfl, rfl⟩
  | played other resident =>
    cases loaded.symm.trans other
    exact .inr ⟨rfl, rfl⟩

/-- What a run can come to: its outcome, the number of triggers after it and the shelf after it. -/
inductive Ran (id : ProgramId) (shelf : Shelf) (triggers : Nat) :
    Except ExecutorError Unit → Nat → Shelf → Prop where
  | untried {error : ExecutorError} : Ran id shelf triggers (.error error) triggers shelf
  -- The board was triggered, and there is no response.
  | unanswered {error : ExecutorError} :
    Ran id shelf triggers (.error error) (triggers + 1) (shelf.modify id Program.beginRun)
  | unfit {error : ExecutorError} {response : Response} {cause : ProgramError}
      (fails : ((shelf.get id).beginRun.completeRun response).1 = .error cause) :
    Ran id shelf triggers (.error error) (triggers + 1)
      ((shelf.modify id Program.beginRun).put id ((shelf.get id).beginRun.completeRun response).2)
  | stored {response : Response}
      (completes : ((shelf.get id).beginRun.completeRun response).1 = .ok ()) :
    Ran id shelf triggers (.ok ()) (triggers + 1)
      ((shelf.modify id Program.beginRun).put id ((shelf.get id).beginRun.completeRun response).2)

theorem run_cases (options : ExecuteOptions) (named : (shelf.get id).id = id) :
    Ran id shelf e.transport.triggers (e.run id options shelf).1
      (e.run id options shelf).2.1.transport.triggers (e.run id options shelf).2.2 := by
  have transfers := e.transfer_cases (shelf.get id)
  unfold run
  generalize e.transfer (shelf.get id) = result at transfers ⊢
  obtain ⟨outcome, loaded⟩ := result
  have silent : loaded.transport.triggers = e.transport.triggers := transfers.triggers
  rw [← silent]
  cases outcome with
  | error error => exact .untried
  | ok done =>
    have own : loaded.transferred = some id := transfers.loads.trans (congrArg some named)
    have executes := loaded.execute_cases options shelf
    dsimp only
    generalize loaded.execute options shelf = result at executes ⊢
    obtain ⟨outcome, ran, begun⟩ := result
    rcases executes.begun own with ⟨count, rfl, fails⟩ | ⟨count, rfl⟩
    · change ran.transport.triggers = _ at count
      cases outcome with
      | error error =>
        dsimp only
        rw [count]
        exact .untried
      | ok done => exact absurd rfl fails
    · change ran.transport.triggers = _ at count
      cases outcome with
      | error error =>
        dsimp only
        rw [count]
        exact .unanswered
      | ok done =>
        have cleared : (shelf.modify id Program.beginRun).get id = (shelf.get id).beginRun := by
          rw [Shelf.get_modify, if_pos rfl]
        have fetches := ran.fetch_cases id (shelf.modify id Program.beginRun)
        dsimp only
        generalize ran.fetch id (shelf.modify id Program.beginRun) = result at fetches ⊢
        obtain ⟨outcome, fetched, after⟩ := result
        have quiet : fetched.transport.triggers = ran.transport.triggers := fetches.triggers
        dsimp only at fetches ⊢
        rw [quiet, count]
        generalize fetched.footing = g at fetches
        cases fetches with
        | refused => exact .unanswered
        | unfit fails =>
          rw [cleared] at fails ⊢
          exact .unfit fails
        | stored other reads completes =>
          rw [cleared] at completes ⊢
          exact .stored completes

namespace Ran

variable {triggers count : Nat}

theorem get_other (ways : Ran id shelf triggers outcome count after) {other : ProgramId}
    (foreign : other ≠ id) : after.get other = shelf.get other := by
  cases ways <;> simp [Shelf.get_put, Shelf.get_modify, foreign]

theorem slots_reset (ways : Ran id shelf triggers outcome count after) :
    (after.get id).slots.map Slot.reset = (shelf.get id).slots.map Slot.reset := by
  have begun := (shelf.get id).beginRun_reset
  cases ways with
  | untried => rfl
  | unanswered => rw [Shelf.get_modify, if_pos rfl, begun]
  | unfit => rw [Shelf.get_put, if_pos rfl, Program.completeRun_reset, begun]
  | stored => rw [Shelf.get_put, if_pos rfl, Program.completeRun_reset, begun]

theorem of_error {error : ExecutorError} (ways : Ran id shelf triggers (.error error) count after) :
    (after.get id).runs = (shelf.get id).runs ∧
      (count = triggers ∧ after = shelf ∨
        count = triggers + 1 ∧ (∀ slot ∈ (after.get id).slots, slot.isResolved = false) ∧
          (after.get id).events = {}) := by
  have cleared : ∀ slot ∈ (shelf.get id).beginRun.slots, slot.isResolved = false := by
    intro slot member
    obtain ⟨earlier, -, rfl⟩ := List.mem_map.1 member
    rfl
  cases ways with
  | untried => exact ⟨rfl, .inl ⟨rfl, rfl⟩⟩
  | unanswered =>
    rw [Shelf.get_modify, if_pos rfl]
    exact ⟨rfl, .inr ⟨rfl, cleared, rfl⟩⟩
  | unfit fails =>
    rw [Shelf.get_put, if_pos rfl]
    obtain ⟨resolved, events, runs⟩ := Program.completeRun_error fails
    refine ⟨runs, .inr ⟨rfl, ?_, events⟩⟩
    rw [← List.forall_mem_map (P := fun valid => valid = false), resolved, List.forall_mem_map]
    exact cleared

theorem of_ok (ways : Ran id shelf triggers (.ok ()) count after) :
    count = triggers + 1 ∧ (∀ slot ∈ (after.get id).slots, slot.isResolved) ∧
      (after.get id).runs = (shelf.get id).runs + 1 := by
  cases ways with
  | stored completes =>
    rw [Shelf.get_put, if_pos rfl]
    obtain ⟨-, resolved, -, runs⟩ := Program.completeRun_ok completes
    exact ⟨rfl, resolved, runs⟩

theorem tickets (ways : Ran id shelf triggers outcome count after) :
    after.slots.map Slot.ticket = shelf.slots.map Slot.ticket := by
  have begun : (shelf.modify id Program.beginRun).slots.map Slot.ticket =
      shelf.slots.map Slot.ticket :=
    Shelf.tickets_put (shelf.get id).beginRun_reset
  have completed (response : Response) :
      ((shelf.modify id Program.beginRun).put id
          ((shelf.get id).beginRun.completeRun response).2).slots.map Slot.ticket =
        shelf.slots.map Slot.ticket := by
    rw [← begun]
    apply Shelf.tickets_put
    rw [Shelf.get_modify, if_pos rfl, Program.completeRun_reset]
  cases ways with
  | untried => rfl
  | unanswered => exact begun
  | unfit fails => exact completed _
  | stored completes => exact completed _

theorem isValid_iff {C V : Type} [Coordinate C] {ticket : Ticket C V}
    (ways : Ran id shelf triggers outcome count after)
    (distinct : (shelf.slots.map Slot.ticket).Nodup)
    (own : ticket.id ∈ (shelf.get id).slots.map Slot.ticket) :
    ticket.isValid after ↔ outcome = .ok () ∨ count = triggers ∧ ticket.isValid shelf := by
  have kept : (after.get id).slots.map Slot.ticket = (shelf.get id).slots.map Slot.ticket := by
    simpa [Function.comp_def, Slot.reset] using congrArg (List.map Slot.ticket) ways.slots_reset
  obtain ⟨slot, member, named⟩ := List.mem_map.1 (kept ▸ own)
  have valid : ticket.isValid after = slot.isResolved :=
    Ticket.isValid_of_slot? (named ▸ Shelf.slot?_of_get (ways.tickets ▸ distinct) member)
  cases outcome with
  | error error =>
    rcases ways.of_error.2 with ⟨silent, rfl⟩ | ⟨count, invalid, -⟩
    · simp [silent]
    · simp [valid, invalid slot member, count]
  | ok done => simp [valid, ways.of_ok.2.1 slot member]

theorem slot?_other (ways : Ran id shelf triggers outcome count after)
    (distinct : (shelf.slots.map Slot.ticket).Nodup) {other : ProgramId} (foreign : other ≠ id)
    {ticket : TicketId} (there : ticket ∈ (shelf.get other).slots.map Slot.ticket) :
    after.slot? ticket = shelf.slot? ticket := by
  obtain ⟨slot, member, rfl⟩ := List.mem_map.1 there
  rw [Shelf.slot?_of_get distinct member]
  exact Shelf.slot?_of_get (ways.tickets ▸ distinct) (ways.get_other foreign ▸ member)

end Ran

end Run

end Executor

namespace Session

-- A run leaves its program as it was, without results or with all of them, as its outcome and the
-- number of triggers tell. The other programs keep theirs.
theorem run_all_or_none (s : Session) (id : ProgramId) (options : ExecuteOptions)
    (named : (s.shelf.get id).id = id) :
    let (outcome, executor, after) := s.executor.run id options s.shelf
    let triggers := s.executor.transport.triggers
    (after.get id).slots.map Slot.reset = (s.shelf.get id).slots.map Slot.reset ∧
    (∀ error, outcome = .error error → (after.get id).runs = (s.shelf.get id).runs ∧
      (executor.transport.triggers = triggers ∧ after = s.shelf ∨
        executor.transport.triggers = triggers + 1 ∧
          (∀ slot ∈ (after.get id).slots, slot.isResolved = false) ∧
          (after.get id).events = {})) ∧
    (outcome = .ok () → executor.transport.triggers = triggers + 1 ∧
      (∀ slot ∈ (after.get id).slots, slot.isResolved) ∧
      (after.get id).runs = (s.shelf.get id).runs + 1) ∧
    (∀ other, other ≠ id → after.get other = s.shelf.get other) ∧
    ((s.shelf.slots.map Slot.ticket).Nodup →
      ∀ {C V : Type} [Coordinate C] (ticket : Ticket C V),
        (ticket.id ∈ (s.shelf.get id).slots.map Slot.ticket →
          (ticket.isValid after ↔ outcome = .ok () ∨
            executor.transport.triggers = triggers ∧ ticket.isValid s.shelf)) ∧
        ∀ other, other ≠ id → ticket.id ∈ (s.shelf.get other).slots.map Slot.ticket →
          ticket.isValid after = ticket.isValid s.shelf ∧ ticket.get after = ticket.get s.shelf ∧
            ticket.fpgaTime after = ticket.fpgaTime s.shelf) ∧
    (executor.state = .failed ↔ ∃ error, outcome = .error error) ∧
    ∀ stage, (∀ knob, stage ≠ .turn knob) →
      ((s.perform stage).2.executor.state = .failed ↔
        ∃ error, (s.perform stage).1 = .error error) := by
  have ways := s.executor.run_cases options named
  have state := s.executor.failed_run_iff id options s.shelf
  generalize s.executor.run id options s.shelf = result at ways state ⊢
  obtain ⟨outcome, executor, after⟩ := result
  dsimp only at ways state ⊢
  refine ⟨ways.slots_reset, fun error fails => ?_, fun done => ?_, fun other => ways.get_other,
    fun distinct C V coordinate ticket => ⟨fun own => ?_, fun other foreign there => ?_⟩, state,
    fun stage turn => ?_⟩
  · subst fails
    exact ways.of_error
  · subst done
    exact ways.of_ok
  · exact ways.isValid_iff distinct own
  · exact Ticket.results_congr (ways.slot?_other distinct foreign there)
  · cases stage with
    | transfer other => exact Executor.failed_transfer_iff _ _
    | execute options => exact Executor.failed_execute_iff _ _ _
    | fetch other => exact Executor.failed_fetch_iff _ _ _
    | turn knob => exact absurd rfl (turn knob)

-- The board has no room for the result, so the run fails after the trigger.
theorem restarting_unread :
    let s := initial [restarting] { maxResultSize := 0 } {}
    let (outcome, executor, after) := s.executor.run 1 {} s.shelf
    outcome ≠ .ok () ∧ executor.transport.triggers = 1 ∧ executor.state = .failed ∧
      ∀ slot ∈ (after.get 1).slots, slot.isResolved = false := by
  intro s
  have tolerated : (({} : ExceptionPolicy).fatal .empty).isEmpty = true := by decide
  have faultless : s.executor.Faultless := ⟨rfl, rfl, rfl, rfl, rfl, tolerated⟩
  have transfers : s.executor.transfer (s.shelf.get 1) =
      (.ok (), s.executor.loaded (s.shelf.get 1)) :=
    faultless.transfer_eq ⟨rfl, by decide⟩
  have executes : (s.executor.loaded (s.shelf.get 1)).execute {} s.shelf =
      (.ok (), s.executedWith 1, s.shelf.modify 1 Program.beginRun) :=
    (faultless.loaded _).execute_eq rfl rfl
  have unread : (s.executedWith 1).response 1 = .error (.resultTooLarge 15 0) := rfl
  obtain ⟨exception, fetches⟩ :=
    (s.executedWith 1).fetch_eq_response 1 (s.shelf.modify 1 Program.beginRun)
  rw [unread] at fetches
  have ends : s.executor.run 1 {} s.shelf =
      (.error (.resultTooLarge 15 0),
        { s.executedWith 1 with state := .failed, lastException := exception },
        s.shelf.modify 1 Program.beginRun) := by
    unfold Executor.run
    rw [transfers]
    dsimp only
    rw [executes]
    exact fetches
  have ran := run_all_or_none s 1 {} (Shelf.named_ofBuilders _ 1)
  rw [ends] at ran ⊢
  obtain ⟨-, failed, -, -, -, state, -⟩ := ran
  obtain ⟨-, ⟨silent, -⟩ | ⟨count, invalid, -⟩⟩ := failed _ rfl
  · cases silent
  · exact ⟨by simp, count, state.2 ⟨_, rfl⟩, invalid⟩

end Session

end Playback
