import Playback.Proofs.Executor.Fixtures
import Playback.Proofs.Executor.Repetition
import Playback.Proofs.Executor.Residency
import Playback.Proofs.Recording.Restrictions

/-! Programs that need one kind of executor.

A transfer compares the kind of the board with the restriction of the program before it does
anything. So a refusal costs nothing but the executor's state, and whatever a board plays asks for
no other kind of executor.
-/

set_option autoImplicit false

namespace Playback

namespace Program

theorem restriction_completeRun (p : Program) (response : Response) :
    (p.completeRun response).2.restriction = p.restriction := by
  unfold completeRun
  dsimp only
  split
  · rfl
  · split <;> rfl

theorem restriction_after (p : Program) (steps : List RunStep) :
    (p.after steps).restriction = p.restriction := by
  induction steps generalizing p with
  | nil => rfl
  | cons step rest ih =>
    refine (ih (p.step step)).trans ?_
    cases step with
    | begin => rfl
    | complete response => exact p.restriction_completeRun response

end Program

namespace Executor

variable {T : Type} [Transport T] {e : Executor T}

/-- A transfer ends because the program is for another kind of executor. -/
def Refuses (e : Executor T) (program : Program) : Prop :=
  ∃ id required available,
    (e.transfer program).1 = .error (.incompatibleProgram id required available)

theorem transfer_of_foreign {program : Program} {required : ExecutorKind}
    (restricted : program.restriction = some required)
    (foreign : required ≠ Transport.kind e.transport) :
    e.transfer program =
      (.error (.incompatibleProgram program.id required (Transport.kind e.transport)),
        { e with state := .failed }) := by
  have apart : program.restriction.filter (· ≠ Transport.kind e.transport) = some required := by
    simp [restricted, foreign]
  unfold transfer
  dsimp only
  rw [apart]
  rfl

theorem load_ne_incompatible {program : Program} {id : ProgramId}
    {required available : ExecutorKind} :
    (e.load program).1 ≠ .error (.incompatibleProgram id required available) := by
  unfold load
  dsimp only
  split
  · simp
  · generalize Transport.transmit _ e.transport = sent
    obtain ⟨outcome, link⟩ := sent
    cases outcome <;> simp

theorem refuses_iff {program : Program} :
    e.Refuses program ↔
      ∃ required, program.restriction = some required ∧
        required ≠ Transport.kind e.transport := by
  constructor
  · rintro ⟨id, required, available, refused⟩
    unfold transfer at refused
    dsimp only at refused
    cases apart : program.restriction.filter (· ≠ Transport.kind e.transport) with
    | none =>
      rw [apart] at refused
      exact absurd refused load_ne_incompatible
    | some other =>
      obtain ⟨restricted, foreign⟩ := Option.filter_eq_some_iff.1 apart
      exact ⟨other, restricted, by simpa using foreign⟩
  · rintro ⟨required, restricted, foreign⟩
    exact ⟨program.id, required, Transport.kind e.transport,
      congrArg Prod.fst (transfer_of_foreign restricted foreign)⟩

theorem awaitReset_state (state : ExecutorState) (attempts left : Nat) (e : Executor T) :
    awaitReset attempts left { e with state } =
      ((awaitReset attempts left e).1, { (awaitReset attempts left e).2 with state }) := by
  induction left generalizing e with
  | zero => rfl
  | succ left ih =>
    unfold awaitReset
    generalize Transport.chipInReset e.transport = looked
    obtain ⟨outcome, link⟩ := looked
    rcases outcome with error | held
    · rfl
    · cases held with
      | false => rfl
      | true => exact ih { e with transport := link }

theorem execute_state (state : ExecutorState) (options : ExecuteOptions) (shelf : Shelf)
    (e : Executor T) : { e with state }.execute options shelf = e.execute options shelf := by
  obtain ⟨link, settings, before, transferred, last⟩ := e
  unfold execute
  cases transferred with
  | none => rfl
  | some id =>
    dsimp only
    have waits := awaitReset_state state (max 1 settings.resetAttempts.toNat)
      (max 1 settings.resetAttempts.toNat) ⟨link, settings, before, some id, last⟩
    unfold resetAttempts
    dsimp only at waits ⊢
    rw [waits]
    generalize awaitReset _ _ (Executor.mk link settings before (some id) last) = waited
    obtain ⟨outcome, ready⟩ := waited
    cases outcome with
    | error error => rfl
    | ok done =>
      dsimp only
      unfold start
      dsimp only
      generalize Transport.trigger ready.transport = triggered
      obtain ⟨outcome, link⟩ := triggered
      cases outcome <;> rfl

end Executor

namespace Session

/-! ### Logs -/

variable {start : Session} {log : List Entry}

theorem kind_perform (s : Session) (stage : Stage) :
    (s.perform stage).2.executor.transport.kind = s.executor.transport.kind := by
  cases stage with
  | transfer id => exact congrArg Prod.fst (Board.keeps_fixture.transfer _ _)
  | execute options => exact congrArg Prod.fst (Board.keeps_fixture.execute options _ _)
  | fetch id => exact congrArg Prod.fst (Board.keeps_fixture.fetch id _ _)
  | turn knob => cases knob <;> rfl

theorem kind_current (chain : Chain start log) :
    (start.current log).executor.transport.kind = start.executor.transport.kind := by
  induction chain with
  | start => rfl
  | @next log chain stage ih => exact ((start.current log).kind_perform stage).trans ih

theorem executable_of_lastLoaded (chain : Chain start log) {id : ProgramId}
    (loaded : lastLoaded log = some id) :
    (start.shelf.get id).isExecutableOn start.executor.transport.kind := by
  obtain ⟨entry, member, found⟩ := List.exists_of_findSome?_eq_some loaded
  obtain ⟨later, earlier, rfl⟩ := List.append_of_mem member
  obtain ⟨before, same⟩ := chain.split
  obtain ⟨stage, outcome⟩ : entry.stage = .transfer id ∧ entry.outcome = .ok () := by
    unfold Entry.loaded? at found
    split at found
    · cases found
      exact ⟨‹_›, ‹_›⟩
    · cases found
  rw [same, stage] at outcome
  obtain ⟨⟨executable, -⟩, -⟩ := (Executor.transfer_ok_iff _ _).1 outcome
  rwa [Program.isExecutableOn, kind_current before, get_current before,
    Program.restriction_after] at executable

end Session

theorem Shelf.get_recorded (histories : List (List Call)) (id : ProgramId) :
    ∃ calls, (calls ∈ histories ∨ calls = []) ∧
      (ofBuilders (histories.map fun calls => Call.record calls {})).get id =
        .ofBuilder id (Call.record calls {}) := by
  rcases get_ofBuilders (histories.map fun calls => Call.record calls {}) id with
    bare | ⟨builder, member, own⟩
  · exact ⟨[], .inr rfl, bare⟩
  · obtain ⟨calls, inside, rfl⟩ := List.mem_map.1 member
    exact ⟨calls, .inl inside, own⟩

-- The restricted leaves that a program accesses all ask for one kind of executor, and a program is
-- refused exactly by executors of another kind. A refusal moves nothing on the link, and the
-- program that was loaded before is executed as if there had been none. So a board plays no access
-- to a leaf that asks for another kind, whatever is done with it and in whatever order.
theorem Executor.restrictions_are_exact :
    (∀ (calls : List Call) (id : ProgramId) (steps : List RunStep),
      let kinds := Call.restrictions calls
      let program := (Program.ofBuilder id (Call.record calls {})).after steps
      (∀ kind ∈ kinds, ∀ other ∈ kinds, kind = other) ∧
      ∀ {T : Type} [Transport T] (e : Executor T),
        (e.Refuses program ↔ ∃ kind ∈ kinds, kind ≠ Transport.kind e.transport) ∧
        (e.Refuses program →
          (e.transfer program).2 = { e with state := .failed } ∧
          ∀ options shelf, (e.transfer program).2.execute options shelf =
            e.execute options shelf)) ∧
    ∀ (histories : List (List Call)) (board : Board) (settings : Settings)
      (commands : List Command),
      let start := Session.initial (histories.map fun calls => Call.record calls {}) board settings
      ∀ later ran earlier, start.log commands = later ++ ran :: earlier → ran.triggers = true →
        ran.before.executor.transport.kind = board.kind ∧
        ∃ calls, (calls ∈ histories ∨ calls = []) ∧
          (∀ kind ∈ Call.restrictions calls, kind = board.kind) ∧
          ran.after.executor.footing = ran.before.executor.footing.playing
            { flags := ProgramFlags.annotating settings.timeAnnotation
              instructions := (Call.record calls {}).instructions } := by
  constructor
  · intro calls id steps kinds program
    have restricted : program.restriction = (Call.record calls {}).restriction :=
      Program.restriction_after _ steps
    refine ⟨fun kind first other second => Call.restrictions_agree first second, ?_⟩
    intro T _ e
    constructor
    · rw [refuses_iff]
      constructor
      · rintro ⟨kind, same, foreign⟩
        rw [restricted] at same
        exact ⟨kind, (Call.restriction_eq_some_iff calls kind).1 same, foreign⟩
      · rintro ⟨kind, asked, foreign⟩
        exact ⟨kind, restricted.trans ((Call.restriction_eq_some_iff calls kind).2 asked), foreign⟩
    · intro refuses
      obtain ⟨kind, same, foreign⟩ := refuses_iff.1 refuses
      rw [transfer_of_foreign same foreign]
      exact ⟨rfl, fun options shelf => execute_state .failed options shelf e⟩
  · intro histories board settings commands start later ran earlier happened triggers
    have named := Shelf.named_ofBuilders (histories.map fun calls => Call.record calls {})
    obtain ⟨chain, same⟩ := (happened ▸ Session.chain_log start commands).split
    have grounded := Session.grounded_of_chain named rfl chain
    rw [same] at triggers ⊢
    refine ⟨Session.kind_current chain, ?_⟩
    obtain ⟨id, options, -, loaded, -, played⟩ := Session.footing_of_triggers grounded triggers
    have executable := Session.executable_of_lastLoaded chain (grounded.resident id loaded).1
    obtain ⟨calls, among, own⟩ := Shelf.get_recorded histories id
    change start.shelf.get id = _ at own
    rw [own] at played executable
    refine ⟨calls, among, fun kind asked => ?_, played⟩
    have restricted := (Call.restriction_eq_some_iff calls kind).2 asked
    have same : kind = start.executor.transport.kind := by
      simpa [Program.isExecutableOn, Program.ofBuilder, restricted] using executable
    exact same

end Playback
