import Playback.Container.Timer
import Playback.Proofs.Executor.Provenance
import Playback.Proofs.Recording.Calls

/-! When the results that a fetch stores are those of the program.

A fetch checks that its program was loaded last. It does not check that the program was executed
since then, nor that the execute saw the end of the run.
-/

set_option autoImplicit false

namespace Playback

namespace Session

theorem stage_of_triggers {s : Session} {stage : Stage}
    (triggers : (s.entry stage).triggers = true) : ∃ options, stage = .execute options := by
  have moved : (s.perform stage).2.executor.footing.triggers ≠ s.executor.footing.triggers :=
    bne_iff_ne.1 triggers
  have ways := s.performed stage
  generalize (s.perform stage).1 = outcome at ways
  generalize (s.perform stage).2.executor.footing = g at ways moved
  generalize (s.perform stage).2.shelf = shelf at ways
  cases ways with
  | @execute options => exact ⟨options, rfl⟩
  | transfer ways => cases ways <;> exact absurd rfl moved
  | fetch ways => cases ways <;> exact absurd rfl moved
  | turn => exact absurd rfl moved

theorem triggers_of_completes {s : Session} {stage : Stage}
    (completes : (s.entry stage).Completes) : (s.entry stage).triggers = true := by
  obtain ⟨⟨options, execute⟩, done⟩ := completes
  change stage = _ at execute
  subst execute
  change (s.perform (.execute options)).1 = .ok () at done
  apply bne_iff_ne.2
  change (s.perform (.execute options)).2.executor.footing.triggers ≠
    s.executor.footing.triggers
  have ways := s.performed (.execute options)
  rw [done] at ways
  generalize (s.perform (.execute options)).2.executor.footing = g at ways ⊢
  generalize (s.perform (.execute options)).2.shelf = shelf at ways
  cases ways with
  | execute ways =>
    -- The other ways of an execute end in an error.
    cases ways with
    | played loaded resident => exact Nat.succ_ne_self _

theorem stored_of_fetch {s : Session} {id : ProgramId}
    (done : (s.entry (.fetch id)).outcome = .ok ()) :
    s.executor.transferred = some id ∧
      ∃ response, Response.demultiplex s.executor.transport.reported = .ok response ∧
        (s.shelf.get id).completeRun response =
          (.ok (), (s.entry (.fetch id)).after.shelf.get id) := by
  change (s.perform (.fetch id)).1 = .ok () at done
  change s.executor.transferred = some id ∧
    ∃ response, Response.demultiplex s.executor.transport.reported = .ok response ∧
      (s.shelf.get id).completeRun response = (.ok (), (s.perform (.fetch id)).2.shelf.get id)
  have ways := s.performed (.fetch id)
  rw [done] at ways
  generalize (s.perform (.fetch id)).2.executor.footing = g at ways
  generalize (s.perform (.fetch id)).2.shelf = shelf at ways ⊢
  cases ways with
  | fetch ways =>
    cases ways with
    | @stored response loaded reads completes =>
      refine ⟨loaded, response, reads, ?_⟩
      rw [Shelf.get_put, if_pos rfl, ← completes]

theorem Chain.entry_of_mem {start : Session} {log : List Entry} {entry : Entry}
    (chain : Chain start log) (member : entry ∈ log) :
    ∃ (s : Session) (stage : Stage), entry = s.entry stage := by
  obtain ⟨later, earlier, rfl⟩ := List.append_of_mem member
  exact ⟨_, _, chain.split.2⟩

/-- What a caller of fetch relies on: the program was loaded last, an execute has seen the end of a
run since then, and what is in result memory comes from such a run of the program. -/
structure OwnResults (log : List Entry) (id : ProgramId) : Prop where
  loaded : lastLoaded log = some id
  executed : ∃ entry ∈ sinceLoaded log, entry.Completes
  played : ∃ ran, lastTrigger log = some ran ∧ ran.Completes ∧
    ran.before.executor.transferred = some id

theorem ownResults_iff {start : Session} {log : List Entry} {f : Footing} {shelf : Shelf}
    {id : ProgramId} (chain : Chain start log) (grounded : Grounded start log f shelf)
    (loaded : lastLoaded log = some id) :
    OwnResults log id ↔
      ∃ ran, lastTrigger (sinceLoaded log) = some ran ∧ ran.outcome = .ok () := by
  constructor
  · intro own
    -- The execute that saw the end triggered the board, so the last trigger is no older than it.
    obtain ⟨entry, member, completes⟩ := own.executed
    obtain ⟨ran, last, done, -⟩ := own.played
    have triggers : entry.triggers = true := by
      obtain ⟨s, stage, rfl⟩ := chain.entry_of_mem ((List.takeWhile_sublist _).mem member)
      exact triggers_of_completes completes
    have found : (lastTrigger (sinceLoaded log)).isSome :=
      List.find?_isSome.2 ⟨entry, member, triggers⟩
    obtain ⟨other, since⟩ := Option.isSome_iff_exists.1 found
    have same : some other = some ran := (lastTrigger_of_since since).symm.trans last
    cases same
    exact ⟨ran, since, done.2⟩
  · rintro ⟨ran, since, done⟩
    have member := List.mem_of_find?_eq_some since
    have last := lastTrigger_of_since since
    have execute : ∃ options, ran.stage = .execute options := by
      have triggers := List.find?_some since
      obtain ⟨s, stage, rfl⟩ := chain.entry_of_mem ((List.takeWhile_sublist _).mem member)
      exact stage_of_triggers triggers
    exact ⟨loaded, ⟨ran, member, execute, done⟩, ran, last, ⟨execute, done⟩,
      (grounded.own ran since).symm.trans loaded⟩

/-! ### Without faults -/

section Faultless

variable {start : Session} (faultless : start.executor.Faultless)
  (named : ∀ id, (start.shelf.get id).id = id)

def executedWith (start : Session) (id : ProgramId) : Executor Board :=
  (start.executor.loaded (start.shelf.get id)).executed
    (Executor.packet start.executor.settings (start.shelf.get id))

def completedWith (start : Session) (id : ProgramId) : Session where
  executor :=
    { start.executedWith id with
      state := .decoded
      lastException := some start.executor.transport.exception }
  shelf :=
    let begun := start.shelf.modify id Program.beginRun
    begun.put id ((begun.get id).completeRun (.ofRecords (start.played (start.shelf.get id)))).2

theorem result_executedWith (start : Session) (id : ProgramId) :
    (start.executedWith id).transport.result =
      Response.encode (start.played (start.shelf.get id)) := by
  simp only [executedWith, Executor.loaded, Executor.executed, Executor.packet, played,
    ProgramFlags.annotates_annotating]

include faultless

theorem perform_load {id : ProgramId}
    (loads : Executor.Loadable start.executor.transport.kind (start.shelf.get id)) :
    start.perform (.transfer id) =
      (.ok (), ⟨start.executor.loaded (start.shelf.get id), start.shelf⟩) :=
  perform_transfer (faultless.transfer_eq loads)

include named

theorem execute_loaded (options : ExecuteOptions) (id : ProgramId) :
    (start.executor.loaded (start.shelf.get id)).execute options start.shelf =
      (.ok (), start.executedWith id, start.shelf.modify id Program.beginRun) := by
  have executes : (start.executor.loaded (start.shelf.get id)).execute options start.shelf = _ :=
    (faultless.loaded _).execute_eq rfl rfl
  rw [named id] at executes
  exact executes

theorem perform_play (options : ExecuteOptions) (id : ProgramId) :
    perform (.execute options) ⟨start.executor.loaded (start.shelf.get id), start.shelf⟩ =
      (.ok (), ⟨start.executedWith id, start.shelf.modify id Program.beginRun⟩) :=
  perform_execute (execute_loaded faultless named options id)

omit faultless in
theorem named_modify (id other : ProgramId) :
    ((start.shelf.modify id Program.beginRun).get other).id = other :=
  ((start.shelf.alike_beginRun id other).1).trans (named other)

omit faultless named in
-- What was played last can be fetched for any program that is loaded and can decode it.
theorem perform_fetch_eq {first id : ProgramId} {e : Executor Board} (healthy : e.Faultless)
    (loaded : e.transferred = some id)
    (result : e.transport.result = Response.encode (start.played (start.shelf.get first)))
    (room : (Response.encode (start.played (start.shelf.get first))).length ≤
      e.transport.maxResultSize)
    (decodes : (((start.shelf.modify first Program.beginRun).get id).completeRun
      (.ofRecords (start.played (start.shelf.get first)))).1 = .ok ()) :
    perform (.fetch id) ⟨e, start.shelf.modify first Program.beginRun⟩ =
      (.ok (),
        { executor :=
            { e with state := .decoded, lastException := some e.transport.exception }
          shelf := (start.shelf.modify first Program.beginRun).put id
            (((start.shelf.modify first Program.beginRun).get id).completeRun
              (.ofRecords (start.played (start.shelf.get first)))).2 }) := by
  have reads : Response.demultiplex e.transport.result =
      .ok (.ofRecords (start.played (start.shelf.get first))) := by
    rw [result]
    exact demultiplex_play _ _ _
  have fetches := healthy.fetch_eq loaded (by rw [result]; exact room) reads (Prod.ext decodes rfl)
  rw [perform_fetch fetches]

omit faultless named in
theorem perform_store {first id : ProgramId} {e : Executor Board} (healthy : e.Faultless)
    (loaded : e.transferred = some id)
    (result : e.transport.result = Response.encode (start.played (start.shelf.get first)))
    (room : (Response.encode (start.played (start.shelf.get first))).length ≤
      e.transport.maxResultSize)
    (decodes : (((start.shelf.modify first Program.beginRun).get id).completeRun
      (.ofRecords (start.played (start.shelf.get first)))).1 = .ok ()) :
    (perform (.fetch id) ⟨e, start.shelf.modify first Program.beginRun⟩).1 = .ok () := by
  rw [perform_fetch_eq healthy loaded result room decodes]

theorem entries_run (options : ExecuteOptions) (id : ProgramId)
    (loads : Executor.Loadable start.executor.transport.kind (start.shelf.get id)) :
    start.entries (.run id options) =
      [entry ⟨start.executedWith id, start.shelf.modify id Program.beginRun⟩ (.fetch id),
        entry ⟨start.executor.loaded (start.shelf.get id), start.shelf⟩ (.execute options),
        start.entry (.transfer id)] := by
  unfold entries
  simp only [entry, perform_load faultless loads, perform_play faultless named options id]

theorem run_eq (options : ExecuteOptions) (id : ProgramId)
    (loads : Executor.Loadable start.executor.transport.kind (start.shelf.get id))
    (room : (Response.encode (start.played (start.shelf.get id))).length ≤
      start.executor.transport.maxResultSize)
    (decodes : (((start.shelf.modify id Program.beginRun).get id).completeRun
      (.ofRecords (start.played (start.shelf.get id)))).1 = .ok ()) :
    start.executor.run id options start.shelf =
      (.ok (), (start.completedWith id).executor, (start.completedWith id).shelf) := by
  have healthy : (start.executedWith id).Faultless := (faultless.loaded _).executed _
  have fetches := perform_fetch_eq healthy (congrArg some (named id))
    (start.result_executedWith id) room decodes
  obtain ⟨last, earlier, stages, ends⟩ := start.run_eq_entries id options
  rw [entries_run faultless named options id loads] at stages
  obtain ⟨rfl, -⟩ := List.cons.inj stages
  rw [ends]
  simp only [entry, fetches]
  rfl

theorem run_eq_ok (options : ExecuteOptions) (id : ProgramId)
    (loads : Executor.Loadable start.executor.transport.kind (start.shelf.get id))
    (room : (Response.encode (start.played (start.shelf.get id))).length ≤
      start.executor.transport.maxResultSize)
    (decodes : (((start.shelf.modify id Program.beginRun).get id).completeRun
      (.ofRecords (start.played (start.shelf.get id)))).1 = .ok ()) :
    (start.executor.run id options start.shelf).1 = .ok () := by
  rw [run_eq faultless named options id loads room decodes]

theorem run_own (options : ExecuteOptions) (id : ProgramId)
    (loads : Executor.Loadable start.executor.transport.kind (start.shelf.get id))
    (room : (Response.encode (start.played (start.shelf.get id))).length ≤
      start.executor.transport.maxResultSize)
    (decodes : (((start.shelf.modify id Program.beginRun).get id).completeRun
      (.ofRecords (start.played (start.shelf.get id)))).1 = .ok ()) :
    ∃ fetch earlier, start.log [.run id options] = fetch :: earlier ∧ fetch.stage = .fetch id ∧
      fetch.outcome = .ok () ∧ OwnResults earlier id := by
  have healthy : (start.executedWith id).Faultless := (faultless.loaded _).executed _
  have fetches := perform_store healthy (congrArg some (named id))
    (start.result_executedWith id) room decodes
  let loaded := start.entry (.transfer id)
  let ran := entry ⟨start.executor.loaded (start.shelf.get id), start.shelf⟩ (.execute options)
  have loads : loaded.outcome = .ok () :=
    congrArg Prod.fst (perform_load faultless loads)
  have completes : ran.Completes :=
    ⟨⟨options, rfl⟩, congrArg Prod.fst (perform_play faultless named options id)⟩
  have stages : start.log [.run id options] = [_, ran, loaded] :=
    (List.append_nil _).trans (entries_run faultless named options id ‹_›)
  refine ⟨_, _, stages, rfl, fetches, ?_, ⟨ran, ?_, completes⟩, ran, ?_, completes,
    congrArg some (named id)⟩
  · rw [lastLoaded_cons_of_none rfl]
    exact lastLoaded_cons_of_some (Entry.loaded?_of_transfer rfl loads)
  · rw [sinceLoaded_cons_of_none rfl]
    exact List.mem_cons_self
  · exact lastTrigger_cons_of_true (triggers_of_completes completes)

-- A program that was loaded and not executed gets what the program before it was answered, if it
-- can decode that.
theorem leftover_fetched (options : ExecuteOptions) (first second : ProgramId)
    (firstLoads : Executor.Loadable start.executor.transport.kind (start.shelf.get first))
    (secondLoads : Executor.Loadable start.executor.transport.kind
      ((start.shelf.modify first Program.beginRun).get second))
    (room : (Response.encode (start.played (start.shelf.get first))).length ≤
      start.executor.transport.maxResultSize)
    (decodes : (((start.shelf.modify first Program.beginRun).get second).completeRun
      (.ofRecords (start.played (start.shelf.get first)))).1 = .ok ()) :
    ∃ fetch earlier,
      start.log [.stage (.transfer first), .stage (.execute options), .stage (.transfer second),
        .stage (.fetch second)] = fetch :: earlier ∧
      fetch.stage = .fetch second ∧ fetch.outcome = .ok () ∧ ¬ OwnResults earlier second := by
  have one := perform_load faultless firstLoads
  have two := perform_play faultless named options first
  have healthy : (start.executedWith first).Faultless := (faultless.loaded _).executed _
  have three : perform (.transfer second)
      ⟨start.executedWith first, start.shelf.modify first Program.beginRun⟩ = _ :=
    perform_load healthy secondLoads
  have four := perform_store (healthy.loaded _)
    (congrArg some (named_modify named first second))
    (start.result_executedWith first) room decodes
  refine ⟨_, _, rfl, rfl, ?_, ?_⟩
  · change (perform (.fetch second) (perform (.transfer second) (perform (.execute options)
      (start.perform (.transfer first)).2).2).2).1 = .ok ()
    rw [one, two, three]
    exact four
  · rintro ⟨-, ⟨entry, member, -⟩, -⟩
    have done : (perform (.transfer second) (perform (.execute options)
        (start.perform (.transfer first)).2).2).1 = .ok () := by
      rw [one, two, three]
    have reloads : ((perform (.execute options) (start.perform (.transfer first)).2).2.entry
        (.transfer second)).loaded? = some second := Entry.loaded?_of_transfer rfl done
    have none : sinceLoaded
        (_ :: start.log [.stage (.transfer first), .stage (.execute options)]) = [] :=
      sinceLoaded_cons_of_some reloads
    exact List.not_mem_nil ((congrArg (entry ∈ ·) none).mp member)

end Faultless

/-! ### Any session -/

def initial (builders : List Builder) (board : Board) (settings : Settings) : Session where
  executor := { transport := board, settings }
  shelf := .ofBuilders builders

-- A fetch that succeeds is one of the program loaded last, but what it stores is what the last
-- trigger played. The two belong together exactly if this trigger came after the load and its
-- execute saw the end of the run.
theorem fetched_results (builders : List Builder) (board : Board) (settings : Settings)
    (commands : List Command) {later earlier : List Entry} {entry : Entry} {id : ProgramId}
    (happened : (initial builders board settings).log commands = later ++ entry :: earlier)
    (fetch : entry.stage = .fetch id) (done : entry.outcome = .ok ()) :
    let programs := Shelf.ofBuilders builders
    let result := entry.before.executor.transport.result
    lastLoaded earlier = some id ∧
    (∃ response,
      Response.demultiplex entry.before.executor.transport.reported = .ok response ∧
      (entry.before.shelf.get id).completeRun response = (.ok (), entry.after.shelf.get id)) ∧
    (lastTrigger earlier = none → result = board.result) ∧
    (∀ ran, lastTrigger earlier = some ran →
      ∃ other, ran.before.executor.transferred = some other ∧
        result = Response.encode (ran.before.played (programs.get other))) ∧
    (∀ ran, lastTrigger (sinceLoaded earlier) = some ran →
      result = Response.encode (ran.before.played (programs.get id))) ∧
    (OwnResults earlier id ↔
      ∃ ran, lastTrigger (sinceLoaded earlier) = some ran ∧ ran.outcome = .ok ()) := by
  intro programs result
  obtain ⟨chain, same⟩ := (happened ▸ chain_log _ commands).split
  have grounded := grounded_of_chain (Shelf.named_ofBuilders builders) rfl chain
  rw [fetch] at same
  have before : entry.before = (initial builders board settings).current earlier := by
    rw [same]
    rfl
  have after : entry.after =
      (((initial builders board settings).current earlier).entry (.fetch id)).after := by rw [same]
  obtain ⟨loaded, response, reads, completes⟩ := stored_of_fetch (same ▸ done)
  have last := (grounded.resident id loaded).1
  simp only [result, programs, before, after]
  refine ⟨last, ⟨response, reads, completes⟩, grounded.untouched, grounded.memory, ?_,
    ownResults_iff chain grounded last⟩
  -- A trigger after the load found the program that was loaded.
  intro ran since
  obtain ⟨other, own, memory⟩ := grounded.memory ran (lastTrigger_of_since since)
  have same : some id = some other := last.symm.trans ((grounded.own ran since).trans own)
  cases same
  exact memory

def restarting : Builder :=
  Call.record
    [.write Timer.node (.first Nat.zero_lt_two) ⟨7⟩ none,
      .read Timer.node (.first Nat.zero_lt_two) none 0] {}

def reading : Builder :=
  Call.record [.read Timer.node ⟨⟨1, Nat.one_lt_two⟩⟩ none 1] {}

theorem faultless_initial (builders : List Builder) :
    (initial builders {} {}).executor.Faultless := by
  have tolerated : (({} : ExceptionPolicy).fatal .empty).isEmpty = true := by decide
  exact ⟨rfl, rfl, rfl, rfl, rfl, tolerated⟩

theorem restarting_fetched :
    ∃ (fetch : Entry) (earlier : List Entry), fetch.stage = .fetch 1 ∧ fetch.outcome = .ok () ∧
      ∃ ran, lastTrigger (sinceLoaded earlier) = some ran ∧ ran.outcome = .ok () := by
  obtain ⟨fetch, earlier, happened, stage, done, own⟩ :=
    run_own (faultless_initial [restarting]) (Shelf.named_ofBuilders _) {} 1
      ⟨rfl, by decide⟩ (by decide) rfl
  rw [← List.nil_append (fetch :: earlier)] at happened
  have results := fetched_results [restarting] {} {} _ happened stage done
  obtain ⟨-, -, -, -, -, exactly⟩ := results
  exact ⟨fetch, earlier, stage, done, exactly.1 own⟩

-- The second program gets the reading of the first.
theorem not_always_own : ¬ ∀ (builders : List Builder) (board : Board) (settings : Settings)
    (commands : List Command) (later earlier : List Entry) (entry : Entry) (id : ProgramId),
    (initial builders board settings).log commands = later ++ entry :: earlier →
      entry.stage = .fetch id → entry.outcome = .ok () → OwnResults earlier id := by
  intro always
  obtain ⟨fetch, earlier, happened, stage, done, foreign⟩ :=
    leftover_fetched (faultless_initial [restarting, reading]) (Shelf.named_ofBuilders _) {} 1 2
      ⟨rfl, by decide⟩ ⟨rfl, by decide⟩ (by decide) rfl
  exact foreign (always _ _ _ _ [] earlier fetch 2 happened stage done)

end Session

end Playback
