import Playback.Proofs.Executor.Fetching
import Playback.Proofs.Program.Repetition

/-! How often a session completes a program.

Seen from one program, a session is a list of begins and completions (`Session.runSteps`): an
execute that triggers the board begins a run of the loaded program, a fetch that can read a response
completes one. What holds of such lists holds of sessions.
-/

set_option autoImplicit false

namespace Playback

namespace Entry

def starts (id : ProgramId) (entry : Entry) : Bool :=
  entry.triggers && decide (entry.before.executor.transferred = some id)

/-- What the stage does to this program, if it does anything. -/
def step? (id : ProgramId) (entry : Entry) : Option RunStep :=
  match entry.stage with
  | .execute _ => if entry.starts id then some .begin else none
  | .fetch other =>
    if other = id then (entry.before.executor.response id).toOption.map .complete else none
  | _ => none

end Entry

namespace Session

def runSteps (id : ProgramId) (log : List Entry) : List RunStep :=
  log.reverse.filterMap (Entry.step? id)

section Stages

variable {s : Session} {stage : Stage} {id : ProgramId}

theorem get_execute (s : Session) (options : ExecuteOptions) (id : ProgramId) :
    (s.perform (.execute options)).2.shelf.get id =
      if (s.entry (.execute options)).starts id then (s.shelf.get id).beginRun
      else s.shelf.get id := by
  have count : (s.entry (.execute options)).triggers =
      ((s.perform (.execute options)).2.executor.footing.triggers !=
        s.executor.footing.triggers) := rfl
  have before : (s.entry (.execute options)).before = s := rfl
  have ways := s.performed (.execute options)
  unfold Entry.starts
  rw [count, before]
  generalize (s.perform (.execute options)).1 = outcome at ways
  generalize (s.perform (.execute options)).2.executor.footing = g at ways ⊢
  generalize (s.perform (.execute options)).2.shelf = shelf at ways ⊢
  -- Whether the board then plays the program makes no difference here.
  have triggered {other : ProgramId} (loaded : s.executor.transferred = some other) :
      (s.shelf.modify other Program.beginRun).get id =
        if s.executor.transferred = some id then (s.shelf.get id).beginRun
        else s.shelf.get id := by
    rw [Shelf.get_modify, loaded]
    by_cases same : id = other
    · rw [if_pos same, if_pos (congrArg some same.symm), same]
    · rw [if_neg same, if_neg fun here => same (Option.some.inj here).symm]
  cases ways with
  | execute ways =>
    cases ways with
    | untried => simp
    | blank loaded none => simpa [Executor.footing] using triggered loaded
    | played loaded resident =>
      simpa [Executor.footing, Footing.playing] using triggered loaded

theorem starts_eq_false (other : ∀ options, stage ≠ .execute options) :
    (s.entry stage).starts id = false := by
  unfold Entry.starts
  cases triggers : (s.entry stage).triggers with
  | false => rfl
  | true =>
    obtain ⟨options, execute⟩ := stage_of_triggers triggers
    exact absurd execute (other options)

theorem step?_execute (options : ExecuteOptions) :
    (s.entry (.execute options)).step? id =
      if (s.entry (.execute options)).starts id then some .begin else none :=
  rfl

theorem step?_fetch (other : ProgramId) :
    (s.entry (.fetch other)).step? id =
      if other = id then (s.executor.response id).toOption.map .complete else none :=
  rfl

theorem get_entry (s : Session) (stage : Stage) (id : ProgramId) :
    (s.entry stage).after.shelf.get id =
      (s.shelf.get id).after ((s.entry stage).step? id).toList := by
  change (s.perform stage).2.shelf.get id = _
  cases stage with
  | transfer other => rfl
  | turn knob => rfl
  | execute options =>
    rw [get_execute, step?_execute]
    by_cases starts : (s.entry (.execute options)).starts id
    · rw [if_pos starts, if_pos starts]
      rfl
    · rw [if_neg starts, if_neg starts]
      rfl
  | fetch other =>
    obtain ⟨exception, fetches⟩ := s.executor.fetch_eq_response other s.shelf
    rw [step?_fetch]
    simp only [perform, fetches]
    by_cases same : other = id
    · subst same
      rw [if_pos rfl]
      cases s.executor.response other with
      | error error => rfl
      | ok answer => exact (Shelf.get_put ..).trans (if_pos rfl)
    · rw [if_neg same]
      cases s.executor.response other with
      | error error => rfl
      | ok answer => exact (Shelf.get_put ..).trans (if_neg (Ne.symm same))

theorem begins_step? (s : Session) (stage : Stage) (id : ProgramId) :
    (((s.entry stage).step? id).map RunStep.begins).getD false = (s.entry stage).starts id := by
  cases stage with
  | transfer other => exact (starts_eq_false (by simp)).symm
  | turn knob => exact (starts_eq_false (by simp)).symm
  | execute options =>
    rw [step?_execute]
    cases (s.entry (.execute options)).starts id <;> rfl
  | fetch other =>
    rw [step?_fetch, starts_eq_false (by simp)]
    split
    · cases s.executor.response id <;> rfl
    · rfl

theorem fetched_iff (s : Session) (id : ProgramId) :
    (s.entry (.fetch id)).outcome = .ok () ↔
      ∃ answer, s.executor.response id = .ok answer ∧
        ((s.shelf.get id).completeRun answer).1 = .ok () := by
  change (s.perform (.fetch id)).1 = .ok () ↔ _
  obtain ⟨exception, fetches⟩ := s.executor.fetch_eq_response id s.shelf
  simp only [perform, fetches]
  cases s.executor.response id with
  | error error => simp
  | ok answer =>
    cases outcome : ((s.shelf.get id).completeRun answer).1 <;> simp [outcome, Except.mapError]

-- A completion of a program is a fetch of it that has a response.
theorem step?_eq_complete_iff {response : Response} :
    (s.entry stage).step? id = some (.complete response) ↔
      stage = .fetch id ∧ s.executor.response id = .ok response := by
  cases stage with
  | transfer other => simp [Entry.step?, entry]
  | turn knob => simp [Entry.step?, entry]
  | execute options =>
    rw [step?_execute]
    split <;> simp
  | fetch other =>
    rw [step?_fetch]
    split
    · rename_i same
      cases reads : s.executor.response id <;> simp [same, Except.toOption]
    · rename_i foreign
      simp [foreign]

end Stages

section Logs

variable {start : Session} {log later earlier : List Entry} {id : ProgramId}

theorem runSteps_append (id : ProgramId) (later earlier : List Entry) :
    runSteps id (later ++ earlier) = runSteps id earlier ++ runSteps id later := by
  simp [runSteps]

theorem get_current (chain : Chain start log) (id : ProgramId) :
    (start.current log).shelf.get id = (start.shelf.get id).after (runSteps id log) := by
  induction chain with
  | start => rfl
  | @next log chain stage ih =>
    have single : runSteps id [(start.current log).entry stage] =
        (((start.current log).entry stage).step? id).toList := by
      simp only [runSteps, List.reverse_singleton, List.filterMap_cons, List.filterMap_nil]
      cases ((start.current log).entry stage).step? id <;> rfl
    change ((start.current log).entry stage).after.shelf.get id = _
    rw [get_entry, ih, ← Program.after_append, ← single, ← runSteps_append, List.singleton_append]

theorem countP_runSteps (id : ProgramId)
    (performed : ∀ entry ∈ log, ∃ (s : Session) (stage : Stage), entry = s.entry stage) :
    (runSteps id log).countP RunStep.begins = log.countP (Entry.starts id) := by
  rw [runSteps, List.countP_filterMap, List.countP_reverse]
  refine List.countP_congr fun entry member => ?_
  obtain ⟨s, stage, rfl⟩ := performed entry member
  rw [begins_step?]

theorem runSteps_eq_append {before after : List RunStep}
    (apart : runSteps id log = before ++ after) :
    ∃ later earlier, log = later ++ earlier ∧ runSteps id earlier = before ∧
      runSteps id later = after := by
  obtain ⟨front, back, reversed, first, second⟩ := List.filterMap_eq_append_iff.1 apart
  refine ⟨back.reverse, front.reverse, ?_, ?_, ?_⟩
  · rw [← List.reverse_append, ← reversed, List.reverse_reverse]
  · rw [runSteps, List.reverse_reverse, first]
  · rw [runSteps, List.reverse_reverse, second]

theorem runSteps_eq_append_cons {before after : List RunStep} {step : RunStep}
    (apart : runSteps id log = before ++ step :: after) :
    ∃ later entry earlier, log = later ++ entry :: earlier ∧ runSteps id earlier = before ∧
      entry.step? id = some step := by
  obtain ⟨rest, earlier, rfl, first, others⟩ := runSteps_eq_append apart
  obtain ⟨quiet, entry, later, reversed, silent, found, -⟩ := List.filterMap_eq_cons_iff.1 others
  refine ⟨later.reverse, entry, quiet.reverse ++ earlier, ?_, ?_, found⟩
  · have ends := congrArg List.reverse reversed
    simp only [List.reverse_reverse, List.reverse_append, List.reverse_cons] at ends
    simp [ends]
  · have none : runSteps id quiet.reverse = [] := by
      rw [runSteps, List.reverse_reverse, List.filterMap_eq_nil_iff]
      exact silent
    rw [runSteps_append, none, List.append_nil, first]

/-- A log in which the runs of this program never outnumber its starts. -/
def WithinStarts (start : Session) (id : ProgramId) (log : List Entry) : Prop :=
  ∀ later earlier, log = later ++ earlier →
    ((start.current earlier).shelf.get id).runs ≤ earlier.countP (Entry.starts id)

theorem withinStarts_iff_begins (chain : Chain start log) :
    WithinStarts start id log ↔ (start.shelf.get id).WithinBegins (runSteps id log) := by
  constructor
  · intro within before after apart
    obtain ⟨later, earlier, rfl, rfl, -⟩ := runSteps_eq_append apart
    rw [← get_current chain.suffix, countP_runSteps id fun _ => chain.suffix.entry_of_mem]
    exact within later earlier rfl
  · intro within later earlier apart
    subst apart
    rw [get_current chain.suffix, ← countP_runSteps id fun _ => chain.suffix.entry_of_mem]
    exact within (runSteps id earlier) (runSteps id later) (runSteps_append ..)

-- The runs of a program with tickets outnumber its starts only after a fetch without any.
theorem withinStarts_iff (chain : Chain start log) (tickets : (start.shelf.get id).slots ≠ [])
    (unrun : (start.shelf.get id).runs = 0) :
    WithinStarts start id log ↔
      ∀ later entry earlier, log = later ++ entry :: earlier → entry.stage = .fetch id →
        entry.outcome = .ok () → ∃ ran ∈ earlier, ran.starts id := by
  -- A start in the log is a begin among the steps.
  have started {earlier : List Entry} (chain : Chain start earlier) :
      RunStep.begin ∈ runSteps id earlier ↔ ∃ ran ∈ earlier, ran.starts id := by
    rw [← Program.begins_pos_iff, countP_runSteps id fun _ => chain.entry_of_mem,
      List.countP_pos_iff]
  rw [withinStarts_iff_begins chain, Program.withinBegins_iff tickets unrun]
  constructor
  · intro begun later entry earlier apart fetch done
    subst apart
    obtain ⟨shorter, same⟩ := chain.split
    rw [fetch] at same
    obtain ⟨answer, reads, completes⟩ := (fetched_iff _ id).1 (same ▸ done)
    rw [get_current shorter] at completes
    have steps : runSteps id (later ++ entry :: earlier) =
        runSteps id earlier ++ .complete answer :: runSteps id later := by
      have found : entry.step? id = some (.complete answer) :=
        same ▸ step?_eq_complete_iff.2 ⟨rfl, reads⟩
      simp [runSteps, found]
    exact (started shorter).1 (begun _ _ _ steps completes)
  · intro ran before answer after apart done
    obtain ⟨later, entry, earlier, rfl, rfl, found⟩ := runSteps_eq_append_cons apart
    obtain ⟨shorter, same⟩ := chain.split
    rw [same] at found
    obtain ⟨fetch, reads⟩ := step?_eq_complete_iff.1 found
    rw [← get_current shorter] at done
    rw [fetch] at same
    exact (started shorter).2 (ran later entry earlier rfl fetch
      (same ▸ (fetched_iff _ id).2 ⟨answer, reads, done⟩))

theorem runs_since (chain : Chain start (later ++ earlier))
    (tickets : (start.shelf.get id).slots ≠ []) :
    ((start.current (later ++ earlier)).shelf.get id).runs ≤
      ((start.current earlier).shelf.get id).runs + later.countP (Entry.starts id) + 1 := by
  have performed : ∀ entry ∈ later, ∃ (s : Session) (stage : Stage), entry = s.entry stage :=
    fun entry member => chain.entry_of_mem (List.mem_append_left _ member)
  rw [get_current chain, get_current chain.suffix, runSteps_append, ← countP_runSteps id performed]
  exact Program.runs_after_append tickets _ _

end Logs

theorem fetched_again_iff {s : Session} {id : ProgramId}
    (done : (s.entry (.fetch id)).outcome = .ok ()) :
    ((s.entry (.fetch id)).after.entry (.fetch id)).outcome = .ok () ↔
      (s.shelf.get id).slots = [] := by
  obtain ⟨answer, reads, completes⟩ := (fetched_iff s id).1 done
  have stored : (s.entry (.fetch id)).after.shelf.get id =
      ((s.shelf.get id).completeRun answer).2 := by
    rw [get_entry, step?_eq_complete_iff.2 ⟨rfl, reads⟩]
    rfl
  have again : (s.entry (.fetch id)).after.executor.response id = .ok answer :=
    (Executor.response_fetch s.shelf).trans reads
  rw [fetched_iff, again, stored, ← Program.completeRun_again_iff completes]
  simp

-- A program is completed at most once between two begins exactly if it has tickets. Its runs then
-- outnumber the begins only if a completion came before the first of them. Without tickets, a fetch
-- that has succeeded succeeds again.
theorem completions_between_begins (builders : List Builder) (id : ProgramId) :
    let p := (Shelf.ofBuilders builders).get id
    ((∀ steps response, p.Answered steps → ((p.after steps).completeRun response).1 ≠ .ok ()) ↔
      p.slots ≠ []) ∧
    (p.slots ≠ [] → ∀ steps, p.WithinBegins steps ↔
      ∀ before response later, steps = before ++ .complete response :: later →
        ((p.after before).completeRun response).1 = .ok () → .begin ∈ before) ∧
    ∀ (board : Board) (settings : Settings) (commands : List Command),
      let start := initial builders board settings
      let log := start.log commands
      (p.slots ≠ [] → ∀ later earlier, log = later ++ earlier →
        ((start.current log).shelf.get id).runs ≤
          ((start.current earlier).shelf.get id).runs + later.countP (Entry.starts id) + 1) ∧
      (p.slots ≠ [] → (WithinStarts start id log ↔
        ∀ later entry earlier, log = later ++ entry :: earlier → entry.stage = .fetch id →
          entry.outcome = .ok () → ∃ ran ∈ earlier, ran.starts id)) ∧
      ∀ entry ∈ log, entry.stage = .fetch id → entry.outcome = .ok () →
        ((entry.after.entry (.fetch id)).outcome = .ok () ↔ p.slots = []) := by
  intro p
  have unrun : p.runs = 0 :=
    Shelf.forall_ofBuilders (P := fun _ program => program.runs = 0) (fun _ => rfl)
      (fun _ _ => rfl) builders id
  refine ⟨⟨fun once bare => ?_, fun tickets steps response answered done => ?_⟩,
    fun tickets steps => Program.withinBegins_iff tickets unrun steps,
    fun board settings commands => ⟨fun tickets later earlier apart => ?_,
      fun tickets => withinStarts_iff (chain_log _ commands) tickets unrun,
      fun entry member fetch done => ?_⟩⟩
  · let response : Response := { words := List.replicate p.readCount ⟨.omnibus 0, none⟩ }
    have first : (p.completeRun response).1 = .ok () :=
      Program.completeRun_of_no_slots bare List.length_replicate
    have answered : p.Answered [.complete response] := ⟨[], response, [], rfl, by simp, first⟩
    exact once _ response answered ((Program.completeRun_again_iff first).2 bare)
  · obtain ⟨e, taken, -⟩ := Program.completeRun_of_answered tickets answered response
    rw [taken] at done
    cases done
  · rw [apart]
    exact runs_since (apart ▸ chain_log _ commands) tickets
  · obtain ⟨later, earlier, apart⟩ := List.append_of_mem member
    obtain ⟨chain, same⟩ := (apart ▸ chain_log _ commands).split
    rw [fetch] at same
    rw [same] at done ⊢
    rw [fetched_again_iff done, get_current chain, Program.slots_after_eq_nil_iff]
    rfl

-- A program without tickets takes an empty response twice in one run.
theorem not_once_between_begins : ¬ ∀ (id : ProgramId) (calls : List Call) (steps : List RunStep)
    (response : Response), (Program.ofBuilder id (Call.record calls {})).Answered steps →
      (((Program.ofBuilder id (Call.record calls {})).after steps).completeRun response).1 ≠
        .ok () := by
  intro once
  exact once 1 [] [.begin, .complete {}] {} ⟨[.begin], {}, [], rfl, by simp, rfl⟩ rfl

end Session

end Playback
