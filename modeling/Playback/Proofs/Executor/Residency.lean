import Playback.Proofs.Executor.Fetching

/-! Which program is on the board.

An executor forgets its program before it sends another one, and the board replaces its program only
once a whole packet has come in. Whatever fails in between, a program that the executor holds is the
one on the board.
-/

set_option autoImplicit false

namespace Playback

namespace Packet

theorem arrives {packet : Packet} (small : packet.instructions.length < 0x100000000) :
    ∃ bytes, packet.encode = .ok bytes ∧ (∀ block ∈ blocks bytes, block.length ≤ 4096) ∧
      decode (blocks bytes).flatten = .ok packet := by
  have encoded : packet.encode = .ok _ := if_pos small
  refine ⟨_, encoded, fun block => Bytes.length_le_of_mem_pieces, ?_⟩
  rw [flatten_blocks]
  exact decode_encode encoded

end Packet

namespace Executor

theorem transfer_ok_iff (program : Program) (e : Executor Board) :
    (e.transfer program).1 = .ok () ↔
      Loadable e.transport.kind program ∧ e.transport.failTransmit = false := by
  constructor
  · intro done
    have ways := e.transfer_cases program
    rw [done] at ways
    generalize (e.transfer program).2.footing = f at ways
    cases ways with
    | loaded loadable takes => exact ⟨loadable, takes⟩
  · rintro ⟨loadable, takes⟩
    rw [transfer_eq_loaded loadable takes]

section Unloaded

variable {e : Executor Board} {shelf : Shelf} (bare : e.transferred = none)

include bare

theorem execute_of_none {options : ExecuteOptions} :
    e.execute options shelf = (.error .nothingTransferred, { e with state := .failed }, shelf) := by
  obtain ⟨transport, settings, state, transferred, last⟩ := e
  cases bare
  rfl

theorem fetch_of_none {id : ProgramId} :
    e.fetch id shelf = (.error .nothingTransferred, { e with state := .failed }, shelf) := by
  obtain ⟨transport, settings, state, transferred, last⟩ := e
  cases bare
  rfl

end Unloaded

end Executor

namespace Entry

/-- Whether the stage is a transfer that left the executor without a program. -/
def unloads (entry : Entry) : Bool :=
  match entry.stage, entry.outcome with
  | .transfer _, .error (.incompatibleProgram ..) => false
  | .transfer _, .error _ => true
  | _, _ => false

variable {entry : Entry}

theorem unloads_of_ok (done : entry.outcome = .ok ()) : entry.unloads = false := by
  unfold unloads
  rw [done]
  cases entry.stage <;> rfl

theorem unloads_of_ne (other : ∀ id, entry.stage ≠ .transfer id) : entry.unloads = false := by
  unfold unloads
  split
  · rfl
  · exact absurd ‹_› (other _)
  · rfl

theorem unloads_of_incompatible {id : ProgramId} {required available : ExecutorKind}
    (fails : entry.outcome = .error (.incompatibleProgram id required available)) :
    entry.unloads = false := by
  unfold unloads
  rw [fails]
  cases entry.stage <;> rfl

theorem unloads_of_error {id : ProgramId} {error : ExecutorError}
    (transfers : entry.stage = .transfer id) (fails : entry.outcome = .error error)
    (compatible : ∀ id required available, error ≠ .incompatibleProgram id required available) :
    entry.unloads = true := by
  unfold unloads
  rw [transfers, fails]
  cases error with
  | incompatibleProgram id required available => exact absurd rfl (compatible id required available)
  | _ => rfl

end Entry

namespace Session

/-- What a log says is loaded: the program of the last successful transfer, unless a transfer has
lost it since. -/
def held : List Entry → Option ProgramId
  | [] => none
  | entry :: log => if entry.unloads then none else entry.loaded?.or (held log)

section Held

variable {entry : Entry} {log later earlier : List Entry}

theorem held_cons_of_unloads (unloads : entry.unloads = true) : held (entry :: log) = none :=
  if_pos unloads

theorem held_cons_of_loaded {id : ProgramId} (loaded : entry.loaded? = some id)
    (keeps : entry.unloads = false) : held (entry :: log) = some id := by
  simp [held, loaded, keeps]

theorem held_cons_of_none (unloaded : entry.loaded? = none) (keeps : entry.unloads = false) :
    held (entry :: log) = held log := by
  simp [held, unloaded, keeps]

theorem held_append_of_none (lost : held earlier = none)
    (unloaded : ∀ entry ∈ later, entry.loaded? = none) : held (later ++ earlier) = none := by
  induction later with
  | nil => exact lost
  | cons entry rest ih =>
    have rest := ih fun other member => unloaded other (List.mem_cons_of_mem _ member)
    cases unloads : entry.unloads with
    | true => exact held_cons_of_unloads unloads
    | false => exact (held_cons_of_none (unloaded entry List.mem_cons_self) unloads).trans rest

theorem transferred_eq_held {start : Session} (named : ∀ id, (start.shelf.get id).id = id)
    (unloaded : start.executor.transferred = none) (chain : Chain start log) :
    (start.current log).executor.transferred = held log := by
  induction chain with
  | start => exact unloaded
  | @next log chain stage ih =>
    have own := (grounded_of_chain named unloaded chain).named
    generalize start.current log = s at ih own
    change (s.perform stage).2.executor.footing.transferred = held (s.entry stage :: log)
    have ways := s.performed stage
    have here : (s.entry stage).stage = stage := rfl
    have ends : (s.entry stage).outcome = (s.perform stage).1 := rfl
    generalize s.entry stage = entry at here ends ⊢
    generalize (s.perform stage).1 = outcome at ways ends
    generalize (s.perform stage).2.executor.footing = g at ways ⊢
    generalize (s.perform stage).2.shelf = shelf at ways
    -- Only a transfer changes what is loaded.
    have other (unmoved : ∀ id, stage ≠ .transfer id)
        (same : g.transferred = s.executor.transferred) : g.transferred = held (entry :: log) := by
      rw [held_cons_of_none (Entry.loaded?_of_ne (here ▸ unmoved))
        (Entry.unloads_of_ne (here ▸ unmoved)), same, ih]
    cases ways with
    | transfer ways =>
      cases ways with
      | incompatible =>
        rw [held_cons_of_none (Entry.loaded?_of_error ends) (Entry.unloads_of_incompatible ends),
          ← ih]
        rfl
      | lost compatible =>
        rw [held_cons_of_unloads (Entry.unloads_of_error here ends compatible)]
      | loaded loadable takes =>
        rw [held_cons_of_loaded (Entry.loaded?_of_transfer here ends) (Entry.unloads_of_ok ends)]
        exact congrArg some (own _)
    | execute ways => exact other (by simp) (by cases ways <;> rfl)
    | fetch ways => exact other (by simp) (by cases ways <;> rfl)
    | turn => exact other (by simp) rfl

end Held

theorem footing_of_triggers {start s : Session} {log : List Entry}
    (grounded : Grounded start log s.executor.footing s.shelf) {stage : Stage}
    (triggers : (s.entry stage).triggers = true) :
    ∃ id options, stage = .execute options ∧ s.executor.transferred = some id ∧
      (s.entry stage).after.shelf = s.shelf.modify id Program.beginRun ∧
      (s.entry stage).after.executor.footing = s.executor.footing.playing
        (Executor.packet start.executor.settings (start.shelf.get id)) := by
  obtain ⟨options, rfl⟩ := stage_of_triggers triggers
  have moved : (s.entry (.execute options)).after.executor.footing.triggers ≠
      s.executor.footing.triggers := bne_iff_ne.1 triggers
  rcases grounded.executed_cases (s.executor.execute_cases options s.shelf) with
    ⟨same, -⟩ | ⟨id, loaded, cleared, played⟩
  · exact absurd (congrArg Footing.triggers same) moved
  · exact ⟨id, options, rfl, loaded, cleared, played⟩

-- Whatever fails on the way, a program that the executor holds is the one on the board, as it was
-- recorded, and a trigger plays it. A program that was lost on its way is held again after a
-- successful transfer only.
theorem held_is_resident (builders : List Builder) (board : Board) (settings : Settings)
    (commands : List Command) :
    let programs := Shelf.ofBuilders builders
    let start := initial builders board settings
    let log := start.log commands
    let packet (id : ProgramId) : Packet :=
      { flags := ProgramFlags.annotating settings.timeAnnotation
        instructions := (programs.get id).instructions }
    (∀ id, (programs.get id).instructions.length < 0x100000000 →
      ∃ bytes, (packet id).encode = .ok bytes ∧
        (∀ block ∈ Packet.blocks bytes, block.length ≤ 4096) ∧
        Packet.decode (Packet.blocks bytes).flatten = .ok (packet id)) ∧
    (∀ later earlier, log = later ++ earlier →
      let s := start.current earlier
      s.executor.transferred = held earlier ∧
      ∀ id, s.executor.transferred = some id → s.executor.transport.program = some (packet id)) ∧
    (∀ later entry earlier, log = later ++ entry :: earlier →
      let s := entry.before
      (∀ id, entry.stage = .transfer id → (entry.outcome = .ok () ↔
        Executor.Loadable s.executor.transport.kind (s.shelf.get id) ∧
          s.executor.transport.failTransmit = false)) ∧
      (entry.triggers = true →
        ∃ id options, entry.stage = .execute options ∧ s.executor.transferred = some id ∧
          entry.after.shelf = s.shelf.modify id Program.beginRun ∧
          entry.after.executor.footing = s.executor.footing.playing (packet id))) ∧
    ∀ newer later entry earlier, log = newer ++ (later ++ entry :: earlier) →
      ∀ id error, entry.stage = .transfer id → entry.outcome = .error (.transport error) →
        (∀ other ∈ later, other.loaded? = none) →
        let s := start.current (later ++ entry :: earlier)
        (∀ options, s.executor.execute options s.shelf =
          (.error .nothingTransferred, { s.executor with state := .failed }, s.shelf)) ∧
        ∀ other, s.executor.fetch other s.shelf =
          (.error .nothingTransferred, { s.executor with state := .failed }, s.shelf) := by
  intro programs start log packet
  have named := Shelf.named_ofBuilders builders
  have chain : Chain start log := chain_log start commands
  refine ⟨fun id small => Packet.arrives small, fun later earlier apart => ?_,
    fun later entry earlier apart => ?_,
    fun newer later entry earlier apart id error transfers fails unloaded => ?_⟩
  · rw [apart] at chain
    exact ⟨transferred_eq_held named rfl chain.suffix,
      fun id loaded => ((grounded_of_chain named rfl chain.suffix).resident id loaded).2⟩
  · rw [apart] at chain
    obtain ⟨before, same⟩ := chain.split
    have grounded := grounded_of_chain named rfl before
    generalize start.current earlier = s at same grounded
    rw [same]
    refine ⟨fun id transfers => ?_, fun triggers => footing_of_triggers grounded triggers⟩
    change entry.stage = .transfer id at transfers
    rw [transfers]
    exact Executor.transfer_ok_iff _ _
  · rw [apart] at chain
    have lost : held (entry :: earlier) = none :=
      held_cons_of_unloads (Entry.unloads_of_error transfers fails (by simp))
    have bare := (transferred_eq_held named rfl chain.suffix).trans
      (held_append_of_none lost unloaded)
    exact ⟨fun options => Executor.execute_of_none bare, fun other => Executor.fetch_of_none bare⟩

end Session

end Playback
