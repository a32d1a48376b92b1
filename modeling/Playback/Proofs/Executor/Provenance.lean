import Playback.Proofs.Board.Playing
import Playback.Proofs.Executor.Sessions
import Playback.Proofs.Program.Shelves

/-! Where the results of a fetch come from.

A fetch looks at the program loaded last and at result memory, and nothing ties the two together but
the order of the stages before it (`Session.Grounded`). Memory holds what the last trigger played,
whichever program that was and however its run ended.
-/

set_option autoImplicit false

namespace Playback

namespace Entry

def loaded? (entry : Entry) : Option ProgramId :=
  match entry.stage, entry.outcome with
  | .transfer id, .ok () => some id
  | _, _ => none

theorem loaded?_of_error {entry : Entry} {error : ExecutorError}
    (fails : entry.outcome = .error error) : entry.loaded? = none := by
  unfold loaded?
  rw [fails]
  cases entry.stage <;> rfl

theorem loaded?_of_transfer {entry : Entry} {id : ProgramId}
    (transfers : entry.stage = .transfer id) (done : entry.outcome = .ok ()) :
    entry.loaded? = some id := by
  unfold loaded?
  rw [transfers, done]

theorem loaded?_of_ne {entry : Entry} (other : ∀ id, entry.stage ≠ .transfer id) :
    entry.loaded? = none := by
  unfold loaded?
  split
  · exact absurd ‹_› (other _)
  · rfl

def triggers (entry : Entry) : Bool :=
  entry.after.executor.transport.triggers != entry.before.executor.transport.triggers

/-- The stage is an execute that saw the end of its run. -/
def Completes (entry : Entry) : Prop :=
  (∃ options, entry.stage = .execute options) ∧ entry.outcome = .ok ()

end Entry

namespace Session

def lastLoaded (log : List Entry) : Option ProgramId :=
  log.findSome? Entry.loaded?

def sinceLoaded (log : List Entry) : List Entry :=
  log.takeWhile fun entry => entry.loaded?.isNone

def lastTrigger (log : List Entry) : Option Entry :=
  log.find? Entry.triggers

def played (s : Session) (program : Program) : List Response.Record :=
  (s.executor.transport.machine.play s.executor.settings.timeAnnotation program.instructions).1

section Logs

variable {entry : Entry} {log : List Entry}

theorem lastLoaded_cons_of_none (unloaded : entry.loaded? = none) :
    lastLoaded (entry :: log) = lastLoaded log := by
  simp [lastLoaded, unloaded]

theorem lastLoaded_cons_of_some {id : ProgramId} (loaded : entry.loaded? = some id) :
    lastLoaded (entry :: log) = some id := by
  simp [lastLoaded, loaded]

theorem sinceLoaded_cons_of_none (unloaded : entry.loaded? = none) :
    sinceLoaded (entry :: log) = entry :: sinceLoaded log := by
  simp [sinceLoaded, unloaded]

theorem sinceLoaded_cons_of_some {id : ProgramId} (loaded : entry.loaded? = some id) :
    sinceLoaded (entry :: log) = [] := by
  simp [sinceLoaded, loaded]

theorem lastTrigger_cons_of_false (quiet : entry.triggers = false) :
    lastTrigger (entry :: log) = lastTrigger log := by
  simp [lastTrigger, quiet]

theorem lastTrigger_cons_of_true (triggers : entry.triggers = true) :
    lastTrigger (entry :: log) = some entry := by
  simp [lastTrigger, triggers]

theorem lastTrigger_of_since (since : lastTrigger (sinceLoaded log) = some entry) :
    lastTrigger log = some entry := by
  unfold lastTrigger sinceLoaded at *
  rw [← List.takeWhile_append_dropWhile (p := fun entry => entry.loaded?.isNone) (l := log),
    List.find?_append, since, Option.some_or]

end Logs

/-- What the log says about the board and the programs at its end. -/
structure Grounded (start : Session) (log : List Entry) (f : Footing) (shelf : Shelf) : Prop where
  settings : f.settings = start.executor.settings
  named : ∀ id, (shelf.get id).id = id
  streams : ∀ id, (shelf.get id).instructions = (start.shelf.get id).instructions
  -- The loaded program is the last one that was loaded, and its packet is on the board.
  resident : ∀ id, f.transferred = some id → lastLoaded log = some id ∧
    f.program = some (Executor.packet start.executor.settings (start.shelf.get id))
  untouched : lastTrigger log = none → f.result = start.executor.transport.result
  -- Result memory is what the last trigger played.
  memory : ∀ ran, lastTrigger log = some ran → ∃ id, ran.before.executor.transferred = some id ∧
    f.result = Response.encode (ran.before.played (start.shelf.get id))
  -- A trigger after the last load is one of that program.
  own : ∀ ran, lastTrigger (sinceLoaded log) = some ran →
    lastLoaded log = ran.before.executor.transferred

theorem grounded_start {start : Session} (named : ∀ id, (start.shelf.get id).id = id)
    (unloaded : start.executor.transferred = none) :
    Grounded start [] start.executor.footing start.shelf where
  settings := rfl
  named := named
  streams _ := rfl
  resident id loaded := by
    change start.executor.transferred = some id at loaded
    rw [unloaded] at loaded
    cases loaded
  untouched _ := rfl
  memory ran triggers := by simp [lastTrigger] at triggers
  own ran triggers := by simp [lastTrigger, sinceLoaded] at triggers

namespace Grounded

variable {start : Session} {log : List Entry} {entry : Entry} {f g : Footing}
  {shelf other : Shelf}

theorem quiet (grounded : Grounded start log f shelf) (unloaded : entry.loaded? = none)
    (silent : entry.triggers = false) (settings : g.settings = f.settings)
    (result : g.result = f.result)
    (kept : g.transferred = none ∨ g.transferred = f.transferred ∧ g.program = f.program)
    (alike : shelf.Alike other) : Grounded start (entry :: log) g other where
  settings := settings.trans grounded.settings
  named id := (alike id).1.trans (grounded.named id)
  streams id := (alike id).2.trans (grounded.streams id)
  resident id loaded := by
    rw [lastLoaded_cons_of_none unloaded]
    rcases kept with lost | ⟨same, program⟩
    · rw [lost] at loaded
      cases loaded
    · rw [program]
      exact grounded.resident id (same ▸ loaded)
  untouched none := by
    rw [lastTrigger_cons_of_false silent] at none
    rw [result]
    exact grounded.untouched none
  memory ran last := by
    rw [lastTrigger_cons_of_false silent] at last
    rw [result]
    exact grounded.memory ran last
  own ran last := by
    rw [sinceLoaded_cons_of_none unloaded, lastTrigger_cons_of_false silent] at last
    rw [lastLoaded_cons_of_none unloaded]
    exact grounded.own ran last

theorem load (grounded : Grounded start log f shelf) {id : ProgramId}
    (loaded : entry.loaded? = some id) (silent : entry.triggers = false) :
    Grounded start (entry :: log)
      { f with
        transferred := some id
        program := some (Executor.packet start.executor.settings (start.shelf.get id)) }
      shelf where
  settings := grounded.settings
  named := grounded.named
  streams := grounded.streams
  resident other here := by
    cases here
    exact ⟨lastLoaded_cons_of_some loaded, rfl⟩
  untouched none := by
    rw [lastTrigger_cons_of_false silent] at none
    exact grounded.untouched none
  memory ran last := by
    rw [lastTrigger_cons_of_false silent] at last
    exact grounded.memory ran last
  own ran last := by
    rw [sinceLoaded_cons_of_some loaded] at last
    cases last

theorem trigger (grounded : Grounded start log f shelf) {id : ProgramId}
    (unloaded : entry.loaded? = none) (triggers : entry.triggers = true)
    (footing : entry.before.executor.footing = f) (loaded : f.transferred = some id)
    (settings : g.settings = f.settings) (transferred : g.transferred = f.transferred)
    (program : g.program = f.program)
    (result : g.result = Response.encode (entry.before.played (start.shelf.get id)))
    (alike : shelf.Alike other) : Grounded start (entry :: log) g other where
  settings := settings.trans grounded.settings
  named id := (alike id).1.trans (grounded.named id)
  streams id := (alike id).2.trans (grounded.streams id)
  resident other here := by
    rw [lastLoaded_cons_of_none unloaded, program]
    exact grounded.resident other (transferred ▸ here)
  untouched none := by
    rw [lastTrigger_cons_of_true triggers] at none
    cases none
  memory ran last := by
    rw [lastTrigger_cons_of_true triggers] at last
    cases last
    exact ⟨id, (congrArg Footing.transferred footing).trans loaded, result⟩
  own ran last := by
    rw [sinceLoaded_cons_of_none unloaded, lastTrigger_cons_of_true triggers] at last
    cases last
    rw [lastLoaded_cons_of_none unloaded, (grounded.resident id loaded).1]
    exact loaded.symm.trans (congrArg Footing.transferred footing).symm

-- The packet of a program that is on the shelf now is its packet at the start.
theorem packet_eq (grounded : Grounded start log f shelf) (id : ProgramId) :
    Executor.packet f.settings (shelf.get id) =
      Executor.packet start.executor.settings (start.shelf.get id) := by
  simp only [Executor.packet, grounded.settings, grounded.streams id]

theorem after_transfer {s : Session} (grounded : Grounded start log s.executor.footing s.shelf)
    {id : ProgramId} {outcome : Except ExecutorError Unit}
    (ways : Executor.Transferred (s.shelf.get id) s.executor outcome g)
    (stage : entry.stage = .transfer id) (ends : entry.outcome = outcome)
    (count : entry.triggers = (g.triggers != s.executor.footing.triggers)) :
    Grounded start (entry :: log) g s.shelf := by
  cases ways with
  | incompatible =>
    exact grounded.quiet (Entry.loaded?_of_error ends) (by simpa using count) rfl rfl
      (.inr ⟨rfl, rfl⟩) (Shelf.alike_refl _)
  | lost =>
    exact grounded.quiet (Entry.loaded?_of_error ends) (by simpa using count) rfl rfl
      (.inl rfl) (Shelf.alike_refl _)
  | loaded =>
    have same := grounded.packet_eq id
    change Executor.packet s.executor.settings _ = _ at same
    rw [grounded.named id, same]
    exact grounded.load (Entry.loaded?_of_transfer stage ends) (by simpa using count)

theorem executed_cases {s : Session} (grounded : Grounded start log s.executor.footing s.shelf)
    {outcome : Except ExecutorError Unit}
    (ways : Executor.Executed s.shelf s.executor outcome g other) :
    g = s.executor.footing ∧ other = s.shelf ∨
      ∃ id, s.executor.transferred = some id ∧ other = s.shelf.modify id Program.beginRun ∧
        g = s.executor.footing.playing
          (Executor.packet start.executor.settings (start.shelf.get id)) := by
  cases ways with
  | untried => exact .inl ⟨rfl, rfl⟩
  | blank loaded none =>
    have resident : s.executor.transport.program = some _ := (grounded.resident _ loaded).2
    rw [none] at resident
    cases resident
  | @played _ id packet loaded resident =>
    have own : some packet = some _ := resident.symm.trans (grounded.resident id loaded).2
    cases own
    exact .inr ⟨id, loaded, rfl, rfl⟩

theorem after_execute {s : Session} (grounded : Grounded start log s.executor.footing s.shelf)
    {options : ExecuteOptions} {outcome : Except ExecutorError Unit}
    (ways : Executor.Executed s.shelf s.executor outcome g other)
    (stage : entry.stage = .execute options) (before : entry.before = s)
    (count : entry.triggers = (g.triggers != s.executor.footing.triggers)) :
    Grounded start (entry :: log) g other := by
  have unloaded : entry.loaded? = none := Entry.loaded?_of_ne (by simp [stage])
  rcases grounded.executed_cases ways with ⟨rfl, rfl⟩ | ⟨id, loaded, rfl, rfl⟩
  · exact grounded.quiet unloaded (by simpa using count) rfl rfl (.inr ⟨rfl, rfl⟩)
      (Shelf.alike_refl _)
  · refine grounded.trigger unloaded ?_ (by rw [before]) loaded rfl rfl rfl ?_
      (Shelf.alike_beginRun _ _)
    · rw [count]
      simp [Footing.playing]
    · have settings : s.executor.settings = start.executor.settings := grounded.settings
      simp only [before, played, settings, Footing.playing, Executor.footing, Executor.packet,
        ProgramFlags.annotates_annotating]

theorem after_fetch {s : Session} (grounded : Grounded start log s.executor.footing s.shelf)
    {id : ProgramId} {outcome : Except ExecutorError Unit}
    (ways : Executor.Fetched id s.shelf s.executor outcome g other)
    (stage : entry.stage = .fetch id)
    (count : entry.triggers = (g.triggers != s.executor.footing.triggers)) :
    Grounded start (entry :: log) g other := by
  have alike : s.shelf.Alike other := by
    cases ways with
    | refused => exact Shelf.alike_refl _
    | unfit => exact Shelf.alike_completeRun _ _ _
    | stored => exact Shelf.alike_completeRun _ _ _
  have same : g = s.executor.footing := by cases ways <;> rfl
  subst same
  exact grounded.quiet (Entry.loaded?_of_ne (by simp [stage])) (by simpa using count) rfl rfl
    (.inr ⟨rfl, rfl⟩) alike

-- One case for each stage; between stages, only result memory and the loaded program matter.
theorem step {s : Session} (grounded : Grounded start log s.executor.footing s.shelf)
    (stage : Stage) :
    Grounded start (s.entry stage :: log) (s.perform stage).2.executor.footing
      (s.perform stage).2.shelf := by
  have ways := s.performed stage
  have here : (s.entry stage).stage = stage := rfl
  have ends : (s.entry stage).outcome = (s.perform stage).1 := rfl
  have before : (s.entry stage).before = s := rfl
  have count : (s.entry stage).triggers =
      ((s.perform stage).2.executor.footing.triggers != s.executor.footing.triggers) := rfl
  generalize s.entry stage = entry at here ends before count ⊢
  generalize (s.perform stage).1 = outcome at ways ends
  generalize (s.perform stage).2.executor.footing = g at ways count ⊢
  generalize (s.perform stage).2.shelf = shelf at ways ⊢
  cases ways with
  | transfer ways => exact grounded.after_transfer ways here ends count
  | execute ways => exact grounded.after_execute ways here before count
  | fetch ways => exact grounded.after_fetch ways here count
  | turn =>
    exact grounded.quiet (Entry.loaded?_of_ne (by simp [here])) (by simpa using count) rfl rfl
      (.inr ⟨rfl, rfl⟩) (Shelf.alike_refl _)

end Grounded

theorem grounded_of_chain {start : Session} {log : List Entry}
    (named : ∀ id, (start.shelf.get id).id = id) (unloaded : start.executor.transferred = none)
    (chain : Chain start log) :
    Grounded start log (start.current log).executor.footing (start.current log).shelf := by
  induction chain with
  | start => exact grounded_start named unloaded
  | next chain stage ih => exact ih.step stage

end Session

end Playback
