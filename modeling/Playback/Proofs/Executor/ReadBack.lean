import Playback.Proofs.Executor.Fixtures
import Playback.Proofs.Executor.Runs
import Playback.Proofs.Recording.ReadBack

/-! What the tickets of a completed run show.

A run that completes has fetched what the board sent when it played the program, on the memory that
it had before. So every ticket has the value that its read was answered.
-/

set_option autoImplicit false

namespace Playback

namespace Executor

section Run

variable {id : ProgramId} {shelf after : Shelf} {e : Executor Board} {f : Footing}
  {program : Program}

theorem Transferred.footing_of_ok (ways : Transferred program e (.ok ()) f) :
    f = { e.footing with
      transferred := some program.id, program := some (packet e.settings program) } := by
  cases ways
  rfl

theorem Transferred.small_of_ok (ways : Transferred program e (.ok ()) f) :
    program.instructions.length < 0x100000000 := by
  cases ways with
  | loaded loadable takes => exact loadable.2

theorem Executed.footing_of_ok {packet : Packet} (ways : Executed shelf e (.ok ()) f after)
    (loaded : e.transferred = some id) (resident : e.transport.program = some packet) :
    f = e.footing.playing packet ∧ after = shelf.modify id Program.beginRun := by
  cases ways with
  | played other held =>
    cases loaded.symm.trans other
    cases resident.symm.trans held
    exact ⟨rfl, rfl⟩

theorem stages_of_run {options : ExecuteOptions} (done : (e.run id options shelf).1 = .ok ()) :
    ∃ (loaded ran : Executor Board) (begun : Shelf),
      e.transfer (shelf.get id) = (.ok (), loaded) ∧
      loaded.execute options shelf = (.ok (), ran, begun) ∧
      ran.fetch id begun = e.run id options shelf := by
  unfold run at done ⊢
  generalize e.transfer (shelf.get id) = result at done ⊢
  obtain ⟨outcome, loaded⟩ := result
  cases outcome with
  | error error => cases done
  | ok moved =>
    refine ⟨loaded, ?_⟩
    dsimp only at done ⊢
    generalize loaded.execute options shelf = result at done ⊢
    obtain ⟨outcome, ran, begun⟩ := result
    cases outcome with
    | error error => cases done
    | ok played => exact ⟨ran, begun, rfl, rfl, rfl⟩

theorem played_of_run {options : ExecuteOptions} (named : (shelf.get id).id = id)
    (done : (e.run id options shelf).1 = .ok ()) :
    let played := e.transport.machine.play e.settings.timeAnnotation (shelf.get id).instructions
    let sent := Response.encode played.1
    (shelf.get id).instructions.length < 0x100000000 ∧
    (e.run id options shelf).2.1.transport.machine = played.2 ∧
    ∃ response : Response,
      Response.demultiplex (sent.take (e.transport.reportedSize.getD sent.length)) =
        .ok response ∧
      ((shelf.get id).beginRun.completeRun response).1 = .ok () ∧
      (e.run id options shelf).2.2 = (shelf.modify id Program.beginRun).put id
        ((shelf.get id).beginRun.completeRun response).2 := by
  intro playing sent
  obtain ⟨loaded, ran, begun, transfers, executes, fetches⟩ := stages_of_run done
  rw [← fetches] at done ⊢
  have load := e.transfer_cases (shelf.get id)
  rw [transfers] at load
  have small := load.small_of_ok
  replace load : loaded.footing = _ := load.footing_of_ok
  have own : loaded.transferred = some id :=
    (congrArg Footing.transferred load).trans (congrArg some named)
  have play := loaded.execute_cases options shelf
  rw [executes] at play
  obtain ⟨played, rfl⟩ := play.footing_of_ok own (congrArg Footing.program load)
  rw [load] at played
  simp only [Footing.playing, packet, ProgramFlags.annotates_annotating] at played
  have reports : ran.transport.reportedSize = e.transport.reportedSize := by
    have kept := Board.keeps_fixture.execute options shelf loaded
    have before := Board.keeps_fixture.transfer (shelf.get id) e
    rw [executes] at kept
    rw [transfers] at before
    exact congrArg Prod.snd (kept.trans before)
  have result : ran.transport.result = sent := congrArg Footing.result played
  have machine : ran.transport.machine = playing.2 := congrArg Footing.machine played
  have ways := ran.fetch_cases id (shelf.modify id Program.beginRun)
  have cleared : (shelf.modify id Program.beginRun).get id = (shelf.get id).beginRun := by
    rw [Shelf.get_modify, if_pos rfl]
  rw [done] at ways
  generalize fetched : (ran.fetch id (shelf.modify id Program.beginRun)).2.1.footing = f at ways
  generalize (ran.fetch id (shelf.modify id Program.beginRun)).2.2 = after at ways ⊢
  cases ways with
  | stored other reads completes =>
    rw [cleared] at completes ⊢
    rw [Board.reported, result, reports] at reads
    exact ⟨small, (congrArg Footing.machine fetched).trans machine, _, reads, completes, rfl⟩

-- What a run stores is what the board sent when it played the program, as far as it reported it.
theorem response_of_run {options : ExecuteOptions} (named : (shelf.get id).id = id)
    (done : (e.run id options shelf).1 = .ok ()) :
    ∃ (annotate : Bool) (response : Response),
      (let sent := Response.encode
        (e.transport.machine.play annotate (shelf.get id).instructions).1
      Response.demultiplex (sent.take (e.transport.reportedSize.getD sent.length)) =
        .ok response) ∧
      ((shelf.get id).beginRun.completeRun response).1 = .ok () ∧
      (e.run id options shelf).2.2 = (shelf.modify id Program.beginRun).put id
        ((shelf.get id).beginRun.completeRun response).2 := by
  obtain ⟨-, -, response, reads, completes, after⟩ := played_of_run named done
  exact ⟨e.settings.timeAnnotation, response, reads, completes, after⟩

theorem stored_of_run {options : ExecuteOptions} (named : (shelf.get id).id = id)
    (done : (e.run id options shelf).1 = .ok ()) :
    ∃ (annotate : Bool) (size : Nat) (response : Response),
      Response.demultiplex ((Response.encode
        (e.transport.machine.play annotate (shelf.get id).instructions).1).take size) =
          .ok response ∧
      ((shelf.get id).beginRun.completeRun response).1 = .ok () ∧
      (e.run id options shelf).2.2 = (shelf.modify id Program.beginRun).put id
        ((shelf.get id).beginRun.completeRun response).2 := by
  obtain ⟨annotate, response, reads, completes, after⟩ := response_of_run named done
  exact ⟨annotate, _, response, reads, completes, after⟩

end Run

end Executor

namespace Session

-- In a run that completes, every read gets, leaf by leaf, the latest value that was written before
-- it at the same place through the same backend, and where there is none, what was in memory when
-- the run started. The program is any recording of accesses to a chip's own nodes, run before or
-- not.
theorem run_reads_back (s : Session) (id : ProgramId) (options : ExecuteOptions)
    (calls : List ChipCall) (steps : List RunStep)
    (built : s.shelf.get id =
      (Program.ofBuilder id (Call.record (ChipCall.history calls) {})).after steps)
    (distinct : (s.shelf.slots.map Slot.ticket).Nodup)
    (done : (s.executor.run id options s.shelf).1 = .ok ()) :
    ∀ (earlier later : List Access) (kind : NodeKind) (regular : kind.isRegular = true)
      (coord : kind.Coord) (explicit : Option Backend) (ticket : TicketId),
      ChipCall.recorded calls {} = earlier ++ .read kind regular coord explicit ticket :: later →
      ∃ value : kind.Value,
        Ticket.get ⟨ticket, kind.node, coord, explicit⟩ (s.executor.run id options s.shelf).2.2 =
          .ok value ∧
        ∀ leaf ∈ kind.parts coord,
          (leaf.place explicit).Shows (earlier.flatMap Access.written)
            s.executor.transport.machine.read (leaf.part.get value) := by
  intro earlier later kind regular coord explicit ticket split
  have does := ChipCall.does_record calls Builder.covered_empty Builder.does_empty
  rw [List.nil_append] at does
  obtain ⟨name, stream⟩ :=
    Program.after_kept (.ofBuilder id (Call.record (ChipCall.history calls) {})) steps
  rw [← built] at name stream
  have ways := s.executor.run_cases options name
  obtain ⟨annotate, size, response, reads, completes, after⟩ := Executor.stored_of_run name done
  have serves := ((Program.serves_ofBuilder id does.keeps).after steps).beginRun
  rw [← built] at serves
  -- The words of the response are those that the reads found.
  have enough := Program.count_of_completeRun_ok completes
  have answered := words_of_demultiplex reads enough
  rw [stream, Program.ofBuilder, does.uses] at answered
  obtain ⟨slot, member, named, value, got, shows⟩ :=
    Access.ticket_of_completes serves does.allowed completes answered split
  -- The ticket finds its slot on the shelf.
  refine ⟨value, got _ ?_, shows⟩
  rw [← named]
  apply Shelf.slot?_of_get (ways.tickets ▸ distinct)
  rw [after, Shelf.get_put, if_pos rfl]
  exact member

def firstSynram : SynramOnChip :=
  .first Nat.zero_lt_two

def tuned : CommonSynramConfig :=
  { (default : CommonSynramConfig) with wConfWest := 7 }

def tuning : List ChipCall :=
  [.access (.write .chip rfl ⟨⟩ default none),
    .merge [.access (.write (.leaf .commonSynramConfig) rfl firstSynram tuned (some .jtag))],
    .access (.read (.leaf .commonSynramConfig) rfl firstSynram none 0),
    .access (.read (.leaf .commonSynramConfig) rfl firstSynram (some .jtag) 1),
    .access (.read (.leaf .timer) rfl (.first Nat.zero_lt_two) none 2)]

-- Each backend shows its own write, and the timer, which was not written, what is in memory.
theorem tuning_reads_back :
    let s := initial [Call.record (ChipCall.history tuning) {}] {} {}
    let after := (s.executor.run 1 {} s.shelf).2.2
    Ticket.get ⟨0, CommonSynramConfig.node, firstSynram, none⟩ after = .ok default ∧
    Ticket.get ⟨1, CommonSynramConfig.node, firstSynram, some .jtag⟩ after = .ok tuned ∧
    Ticket.get ⟨2, Timer.node, .first Nat.zero_lt_two, none⟩ after = .ok ⟨0⟩ := by
  intro s after
  have done : (s.executor.run 1 {} s.shelf).1 = .ok () :=
    run_eq_ok (faultless_initial _) (Shelf.named_ofBuilders _) {} 1 ⟨rfl, by decide⟩ (by decide) rfl
  have reads := run_reads_back s 1 {} tuning [] rfl (by decide) done
  let writes : List Access :=
    [.write .chip rfl ⟨⟩ default none,
      .write (.leaf .commonSynramConfig) rfl firstSynram tuned (some .jtag)]
  let first : Access := .read (.leaf .commonSynramConfig) rfl firstSynram none 0
  let second : Access := .read (.leaf .commonSynramConfig) rfl firstSynram (some .jtag) 1
  obtain ⟨bus, busGot, busShows⟩ := reads writes _ (.leaf .commonSynramConfig) rfl _ _ _ rfl
  obtain ⟨scan, scanGot, scanShows⟩ :=
    reads (writes ++ [first]) _ (.leaf .commonSynramConfig) rfl _ _ _ rfl
  obtain ⟨timer, timerGot, timerShows⟩ :=
    reads (writes ++ [first, second]) _ (.leaf .timer) rfl _ _ _ rfl
  have busLatest : bus = default := busShows _ List.mem_cons_self
  have scanLatest : scan = tuned := scanShows _ List.mem_cons_self
  have unwritten : Timer.leaf.decode .omnibus (wordsOf .omnibus [0]) ⟨0⟩ = .ok timer :=
    timerShows _ List.mem_cons_self ⟨0⟩
  have zero : timer = ⟨0⟩ :=
    Except.ok.inj (unwritten.symm.trans (Timer.decode_encode ⟨0⟩ ⟨0⟩ .omnibus))
  subst busLatest scanLatest zero
  exact ⟨busGot, scanGot, timerGot⟩

end Session

end Playback
