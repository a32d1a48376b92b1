import Playback.Proofs.Board.Interpreter
import Playback.Proofs.Executor.Compatibility
import Playback.Proofs.Executor.ReadBack
import Playback.Proofs.Recording.Injection

/-! Spikes that are injected and come back.

A run that completes has fetched the whole response, unless the board reports another size. So the
spikes that it stores are those of the packs that the program writes.
-/

set_option autoImplicit false

namespace Playback

open Board Stimulus

structure Events.Carry (events : Events) (packs : List (List SpikeLabel)) : Prop where
  labels : events.spikes.map Spike.label = packs.flatten
  counts : ∀ size : Fin 3, events.spikePacks.get size =
    packs.countP fun pack => pack.length = size.val + 1

namespace Session

theorem carry_of_run (s : Session) (id : ProgramId) (options : ExecuteOptions)
    (calls : List ChipCall) (steps : List RunStep)
    (built : s.shelf.get id =
      (Program.ofBuilder id (Call.record (ChipCall.history calls) {})).after steps)
    (honest : s.executor.transport.reportedSize = none)
    (done : (s.executor.run id options s.shelf).1 = .ok ()) :
    ((s.executor.run id options s.shelf).2.2.get id).events.Carry (ChipCall.injected calls) := by
  have does := ChipCall.does_record calls Builder.covered_empty Builder.does_empty
  rw [List.nil_append] at does
  obtain ⟨name, stream⟩ :=
    Program.after_kept (.ofBuilder id (Call.record (ChipCall.history calls) {})) steps
  rw [← built] at name stream
  obtain ⟨annotate, response, reads, completes, after⟩ := Executor.response_of_run name done
  dsimp only at reads
  rw [honest, Option.getD_none, List.take_length, demultiplex_play, ofRecords_play] at reads
  obtain rfl := Except.ok.inj reads
  have packs := packs_replies annotate s.executor.transport.machine Labels.empty
    (s.shelf.get id).instructions
  rw [stream, Program.ofBuilder, does.uses, (Access.packs_accesses does.allowed).1] at packs
  rw [after, Shelf.get_put, if_pos rfl, (Program.completeRun_ok completes).2.2.1, stream]
  exact ⟨packs.1, packs.2⟩

theorem run_unread {s : Session} (faultless : s.executor.Faultless)
    (named : ∀ id, (s.shelf.get id).id = id) (id : ProgramId) (options : ExecuteOptions)
    (loads : Executor.Loadable s.executor.transport.kind (s.shelf.get id))
    (unread : (s.shelf.get id).slots = [])
    (room : (Response.encode (s.played (s.shelf.get id))).length ≤
      s.executor.transport.maxResultSize) :
    (s.executor.run id options s.shelf).1 = .ok () := by
  apply run_eq_ok faultless named options id loads room
  rw [Shelf.get_modify, if_pos rfl]
  apply Program.completeRun_of_no_slots
  · rw [Program.beginRun, unread, List.map_nil]
  · rw [played, ofRecords_play, words_replies, length_answers]
    rfl

theorem run_recorded {s : Session} (faultless : s.executor.Faultless)
    (named : ∀ id, (s.shelf.get id).id = id) {labels : List SpikeLabel} {pattern : List Nat}
    {b : Builder} (recorded : Stimulus.Recorded labels pattern b) (id : ProgramId)
    (options : ExecuteOptions) (steps : List RunStep)
    (built : s.shelf.get id = (Program.ofBuilder id b).after steps)
    (few : labels.length + 1 < 0x100000000)
    (room : (Response.encode (s.played (s.shelf.get id))).length ≤
      s.executor.transport.maxResultSize) :
    (s.executor.run id options s.shelf).1 = .ok () := by
  obtain ⟨-, stream⟩ := Program.after_kept (.ofBuilder id b) steps
  have free := Program.restriction_after (.ofBuilder id b) steps
  have unread := (Program.slots_after_eq_nil_iff (.ofBuilder id b) steps).2 recorded.slots
  rw [← built] at stream free unread
  have loads : Executor.Loadable s.executor.transport.kind (s.shelf.get id) := by
    constructor
    · rw [Program.isExecutableOn, free, Program.ofBuilder, recorded.restriction]
      rfl
    · rw [stream, Program.ofBuilder, recorded.length]
      exact few
  exact run_unread faultless named id options loads unread room

-- A run that completes returns the labels of all packs written, in the order of the calls, and
-- counts the packs of each size, whatever else the program does with a chip and whatever was done
-- with the board before. An injection is always built, cuts the labels as the pattern asks, and a
-- run of it returns them.
theorem injected_spikes :
    (∀ (s : Session) (id : ProgramId) (options : ExecuteOptions) (calls : List ChipCall)
      (steps : List RunStep),
      s.shelf.get id =
        (Program.ofBuilder id (Call.record (ChipCall.history calls) {})).after steps →
      s.executor.transport.reportedSize = none →
      (s.executor.run id options s.shelf).1 = .ok () →
      let events := ((s.executor.run id options s.shelf).2.2.get id).events
      events.spikes.map Spike.label = (ChipCall.injected calls).flatten ∧
      ∀ size : Fin 3, events.spikePacks.get size =
        (ChipCall.injected calls).countP fun pack => pack.length = size.val + 1) ∧
    ∀ (labels : List SpikeLabel) (pattern : List Nat), ∃ (b : Builder) (calls : List ChipCall),
      Stimulus.spikeInjection labels pattern = .ok b ∧
      b = Call.record (ChipCall.history calls) {} ∧
      (ChipCall.injected calls).flatten = labels ∧
      (∀ (place : Nat) (pack : List SpikeLabel), (ChipCall.injected calls)[place]? = some pack →
        0 < pack.length ∧ pack.length ≤ Stimulus.packSize pattern place ∧
        (place + 1 < (ChipCall.injected calls).length →
          pack.length = Stimulus.packSize pattern place)) ∧
      ∀ (s : Session) (id : ProgramId) (options : ExecuteOptions) (steps : List RunStep),
        s.shelf.get id = (Program.ofBuilder id b).after steps →
        let ran := s.executor.run id options s.shelf
        (s.executor.transport.reportedSize = none → ran.1 = .ok () →
          (ran.2.2.get id).events.spikes.map Spike.label = labels) ∧
        (s.executor.Faultless → (∀ other, (s.shelf.get other).id = other) →
          labels.length + 1 < 0x100000000 →
          (Response.encode (s.played (s.shelf.get id))).length ≤
            s.executor.transport.maxResultSize →
          ran.1 = .ok ()) := by
  constructor
  · intro s id options calls steps built honest done
    have carry := s.carry_of_run id options calls steps built honest done
    exact ⟨carry.labels, carry.counts⟩
  · intro labels pattern
    obtain ⟨b, recorded⟩ := Stimulus.exists_recorded labels pattern
    have whole := congrArg List.flatten recorded.own
    rw [Stimulus.flatten_packs] at whole
    refine ⟨b, Stimulus.injection labels pattern, recorded.made, recorded.record, whole, ?_, ?_⟩
    · intro place pack here
      rw [recorded.own] at here ⊢
      have sized := Stimulus.length_packs here
      rwa [Nat.zero_add] at sized
    · intro s id options steps built
      refine ⟨fun honest done => ?_, fun faultless named few room =>
        run_recorded faultless named recorded id options steps built few room⟩
      rw [recorded.record] at built
      exact (s.carry_of_run id options _ steps built honest done).labels.trans whole

def bursts : List ChipCall :=
  packCalls [5, 6] ++ [.merge (packCalls [7]), spikeCall 0 (some .jtag)] ++ packCalls [8, 9, 5]

theorem bursts_return :
    let s := initial [Call.record (ChipCall.history bursts) {}] {} {}
    (s.executor.run 1 {} s.shelf).1 = .ok () ∧
      let events := ((s.executor.run 1 {} s.shelf).2.2.get 1).events
      events.spikes.map Spike.label = [5, 6, 7, 8, 9, 5] ∧
      ∀ size : Fin 3, events.spikePacks.get size = 1 := by
  intro s
  have done : (s.executor.run 1 {} s.shelf).1 = .ok () :=
    run_unread (faultless_initial _) (Shelf.named_ofBuilders _) 1 {} ⟨rfl, by decide⟩ rfl
      (by decide)
  obtain ⟨labels, counts⟩ := injected_spikes.1 s 1 {} bursts [] rfl rfl done
  have packs : ChipCall.injected bursts = [[5, 6], [7], [8, 9, 5]] := rfl
  rw [packs] at labels counts
  refine ⟨done, labels, fun size => (counts size).trans ?_⟩
  revert size
  decide

end Session

end Playback
