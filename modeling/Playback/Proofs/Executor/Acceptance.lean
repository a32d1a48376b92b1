import Playback.Proofs.Executor.Compatibility
import Playback.Proofs.Executor.Flags
import Playback.Proofs.Executor.Repetition
import Playback.Proofs.Executor.Taps

/-! When a fetch is accepted.

A fetch makes its checks one after another: the reported size, the exception register, the end of
result memory, the stream of records, the number of words and the slots. Each is made only if those
before it passed, and until the last one has, no result changes.
-/

set_option autoImplicit false

namespace Playback

namespace Shelf

/-- The results on one shelf are those on the other. -/
structure SameResults (shelf after : Shelf) : Prop where
  runs (id : ProgramId) : (after.get id).runs = (shelf.get id).runs
  events (id : ProgramId) : (after.get id).events = (shelf.get id).events
  resolved (id : ProgramId) :
    (after.get id).slots.map Slot.isResolved = (shelf.get id).slots.map Slot.isResolved
  tickets {C V : Type} [Coordinate C] (ticket : Ticket C V) :
    ticket.isValid after = ticket.isValid shelf

theorem sameResults_refl (shelf : Shelf) : shelf.SameResults shelf :=
  ⟨fun _ => rfl, fun _ => rfl, fun _ => rfl, fun _ => rfl⟩

theorem isValid_congr {C V : Type} [Coordinate C] {shelf after : Shelf} (ticket : Ticket C V)
    (same : after.slots.map (fun slot => (slot.ticket, slot.isResolved)) =
      shelf.slots.map fun slot => (slot.ticket, slot.isResolved)) :
    ticket.isValid after = ticket.isValid shelf := by
  have valid (other : Shelf) : ticket.isValid other =
      ((other.slots.map fun slot => (slot.ticket, slot.isResolved)).find?
        fun pair => pair.1 == ticket.id).any Prod.snd := by
    unfold Ticket.isValid
    rw [slot?_eq_find?, List.find?_map, Option.any_map]
    rfl
  rw [valid, valid, same]

theorem view_get_put {α : Type} (view : Program → α) {shelf : Shelf} {id : ProgramId}
    {program : Program} (same : view program = view (shelf.get id)) (other : ProgramId) :
    view ((shelf.put id program).get other) = view (shelf.get other) := by
  rw [get_put]
  by_cases here : other = id
  · rw [if_pos here, same, here]
  · rw [if_neg here]

theorem sameResults_completeRun {shelf : Shelf} {id : ProgramId} {response : Response}
    {cause : ProgramError} (fails : ((shelf.get id).completeRun response).1 = .error cause) :
    shelf.SameResults (shelf.put id ((shelf.get id).completeRun response).2) := by
  obtain ⟨resolved, events, runs⟩ := Program.completeRun_error fails
  have reset := Program.completeRun_reset (shelf.get id) response
  generalize ((shelf.get id).completeRun response).2 = program at *
  refine ⟨view_get_put Program.runs runs, view_get_put Program.events events,
    view_get_put (fun p => p.slots.map Slot.isResolved) resolved, fun ticket => ?_⟩
  apply isValid_congr
  apply map_slots_put
  have tickets : program.slots.map Slot.ticket = (shelf.get id).slots.map Slot.ticket := by
    simpa [Function.comp_def, Slot.reset] using congrArg (List.map Slot.ticket) reset
  rw [← List.zip_map', ← List.zip_map', tickets, resolved]

end Shelf

namespace Program

-- With all slots empty, nothing but the number of words and the words themselves can be wrong.
theorem completeRun_eq_ok_iff {p : Program} {response : Response}
    (counts : (p.slots.map Slot.wordCount).sum = p.readCount)
    (empty : ∀ slot ∈ p.slots, slot.state = .empty) :
    (p.completeRun response).1 = .ok () ↔
      response.words.length = p.readCount ∧
        ∀ offer ∈ Slot.offers 0 p.slots response.words,
          offer.slot.check offer.bare = .ok () := by
  have settled : ∀ slot ∈ p.slots, slot.Settled :=
    fun slot member => Slot.Idle.settled (.inl (empty slot member))
  have completed := completed response counts settled
  generalize (p.completeRun response).1 = outcome at completed ⊢
  generalize (p.completeRun response).2 = after at completed
  cases completed with
  | miscounted count => simp [count]
  | resolved count taken => simpa [count] using fun offer member => (taken offer member).decodes
  | @refused before later offer e after count split taken refusal =>
    have slot : offer.slot ∈ p.slots := by
      rw [← Slot.slot_offers 0 p.slots response.words, split]
      simp
    refine iff_of_false (by simp) fun accepted => ?_
    have decodes := accepted.2 offer (by simp [split])
    cases refusal with
    | occupied state => exact state (empty _ slot)
    | undecodable _ failed =>
      rw [decodes] at failed
      cases failed

end Program

namespace Executor

section Read

variable {e : Executor (Tap Board)}

theorem readResponse_of_large
    (large : e.transport.link.maxResultSize <
      e.transport.link.reportedSize.getD e.transport.link.result.length) :
    (readResponse e).2 = e.asked [.readResultSize] := by
  unfold readResponse
  simp only [Transport.readResultSize, Tap.through, Board.readResultSize,
    Transport.maxResultSize, if_pos large]
  rfl

section Fits

variable (fits : ¬ e.transport.link.maxResultSize <
  e.transport.link.reportedSize.getD e.transport.link.result.length)

include fits

theorem readResponse_of_fatal
    (fatal : ¬ (e.settings.exceptionPolicy.fatal e.transport.link.exception).isEmpty = true) :
    (readResponse e).2 =
      { e.asked [.readResultSize, .readExceptionFlags] with
        lastException := some e.transport.link.exception } := by
  unfold readResponse
  simp only [Transport.readResultSize, Tap.through, Board.readResultSize,
    Transport.maxResultSize, if_neg fits, Transport.readExceptionFlags, Board.readExceptionFlags,
    Bool.eq_false_iff.2 fatal, Bool.not_false, if_true, List.append_assoc]
  rfl

theorem readResponse_of_tolerated
    (tolerated : (e.settings.exceptionPolicy.fatal e.transport.link.exception).isEmpty = true) :
    (readResponse e).2 =
      { e.asked [.readResultSize, .readExceptionFlags, .bulkRead] with
        lastException := some e.transport.link.exception } := by
  unfold readResponse
  simp only [Transport.readResultSize, Tap.through, Board.readResultSize,
    Transport.maxResultSize, if_neg fits, Transport.readExceptionFlags, Board.readExceptionFlags,
    tolerated, Bool.not_true, Bool.false_eq_true, if_false, Transport.bulkRead, List.append_assoc]
  rcases bulkRead_cases e.transport.link with ⟨error, refused⟩ | whole
  · rw [refused]
    rfl
  · rw [whole]
    rfl

end Fits

end Read

theorem fetch_of_loaded {T : Type} [Transport T] {e : Executor T} {id : ProgramId}
    (loaded : e.transferred = some id) (shelf : Shelf) :
    let read := (readResponse { e with state := .fetching }).2
    (e.fetch id shelf).2.1.transport = read.transport ∧
      (e.fetch id shelf).2.1.lastException = read.lastException := by
  unfold fetch
  rw [loaded]
  dsimp only
  rw [if_neg (not_not.2 rfl)]
  generalize readResponse (T := T) _ = result
  obtain ⟨outcome, read⟩ := result
  cases outcome with
  | error error => exact ⟨rfl, rfl⟩
  | ok response =>
    dsimp only
    cases ((shelf.get id).completeRun response).1 <;> exact ⟨rfl, rfl⟩

section Board

variable {e : Executor Board} {id : ProgramId}

theorem response_eq_ok_iff {answer : Response} (loaded : e.transferred = some id) :
    let board := e.transport
    let size := board.reportedSize.getD board.result.length
    e.response id = .ok answer ↔
      size ≤ board.maxResultSize ∧ size ≤ board.result.length ∧
        (e.settings.exceptionPolicy.fatal board.exception).isEmpty = true ∧
        Response.demultiplex (board.result.take size) = .ok answer := by
  intro board size
  unfold response
  rw [loaded]
  dsimp only
  rw [if_neg (not_not.2 rfl)]
  unfold readResponse
  simp only [Transport.readResultSize, Board.readResultSize, Transport.maxResultSize,
    Transport.readExceptionFlags, Board.readExceptionFlags, Transport.bulkRead, Board.bulkRead]
  by_cases large : board.maxResultSize < size
  · rw [if_pos large]
    simp [Nat.not_le.2 large]
  · rw [if_neg large]
    cases fatal : (e.settings.exceptionPolicy.fatal board.exception).isEmpty with
    | false => simp
    | true =>
      simp only [Bool.not_true, Bool.false_eq_true, if_false, Nat.zero_add, List.drop_zero]
      by_cases short : size ≤ board.result.length
      · rw [if_pos short]
        dsimp only
        cases Response.demultiplex (board.result.take size) <;>
          simp [Nat.not_lt.1 large, short, Except.mapError]
      · rw [if_neg short]
        simp [short]

theorem fetch_eq_ok_iff {shelf : Shelf} (loaded : e.transferred = some id)
    (counts : ((shelf.get id).slots.map Slot.wordCount).sum = (shelf.get id).readCount)
    (empty : ∀ slot ∈ (shelf.get id).slots, slot.state = .empty) :
    let board := e.transport
    let size := board.reportedSize.getD board.result.length
    (e.fetch id shelf).1 = .ok () ↔
      size ≤ board.maxResultSize ∧ size ≤ board.result.length ∧
        (e.settings.exceptionPolicy.fatal board.exception).isEmpty = true ∧
        ∃ answer, Response.demultiplex (board.result.take size) = .ok answer ∧
          answer.words.length = (shelf.get id).readCount ∧
          ∀ offer ∈ Slot.offers 0 (shelf.get id).slots answer.words,
            offer.slot.check offer.bare = .ok () := by
  intro board size
  have fetched : (e.fetch id shelf).1 = .ok () ↔
      ∃ answer, e.response id = .ok answer ∧ ((shelf.get id).completeRun answer).1 = .ok () :=
    Session.fetched_iff ⟨e, shelf⟩ id
  rw [fetched]
  constructor
  · rintro ⟨answer, reads, completes⟩
    obtain ⟨fits, inside, tolerated, apart⟩ := (response_eq_ok_iff loaded).1 reads
    exact ⟨fits, inside, tolerated, answer, apart,
      (Program.completeRun_eq_ok_iff counts empty).1 completes⟩
  · rintro ⟨fits, inside, tolerated, answer, apart, complete⟩
    exact ⟨answer, (response_eq_ok_iff loaded).2 ⟨fits, inside, tolerated, apart⟩,
      (Program.completeRun_eq_ok_iff counts empty).2 complete⟩

theorem sameResults_fetch {shelf : Shelf} (fails : (e.fetch id shelf).1 ≠ .ok ()) :
    shelf.SameResults (e.fetch id shelf).2.2 := by
  obtain ⟨exception, fetches⟩ := e.fetch_eq_response id shelf
  rw [fetches] at fails ⊢
  cases answer : e.response id with
  | error error => exact shelf.sameResults_refl
  | ok response =>
    rw [answer] at fails
    dsimp only at fails ⊢
    cases completes : ((shelf.get id).completeRun response).1 with
    | error cause => exact Shelf.sameResults_completeRun completes
    | ok done =>
      rw [completes] at fails
      exact absurd rfl fails

end Board

end Executor

namespace Session

/-- A log at whose end a program is loaded that was executed to its end and not fetched since. -/
structure Unfetched (start : Session) (log : List Entry) (id : ProgramId) : Prop where
  loaded : (start.current log).executor.transferred = some id
  executed : ∃ later ran earlier, log = later ++ ran :: earlier ∧ ran.Completes ∧
    ran.before.executor.transferred = some id ∧ ∀ entry ∈ later, entry.stage ≠ .fetch id

theorem step?_of_completes {s : Session} {stage : Stage} {id : ProgramId}
    (completes : (s.entry stage).Completes) (loaded : s.executor.transferred = some id) :
    (s.entry stage).step? id = some .begin := by
  have starts : (s.entry stage).starts id = true := by
    rw [Entry.starts, triggers_of_completes completes, Bool.true_and, decide_eq_true_iff]
    exact loaded
  obtain ⟨⟨options, execute⟩, -⟩ := completes
  change stage = .execute options at execute
  subst execute
  rw [step?_execute, if_pos starts]

theorem runSteps_eq_begin {id : ProgramId} {log : List Entry}
    (performed : ∀ entry ∈ log, ∃ (s : Session) (stage : Stage), entry = s.entry stage)
    (unfetched : ∀ entry ∈ log, entry.stage ≠ .fetch id) :
    ∀ step ∈ runSteps id log, step = .begin := by
  intro step member
  obtain ⟨entry, inside, found⟩ := List.mem_filterMap.1 member
  rw [List.mem_reverse] at inside
  obtain ⟨s, stage, rfl⟩ := performed entry inside
  cases step with
  | begin => rfl
  | complete response =>
    exact absurd (step?_eq_complete_iff.1 found).1 (unfetched _ inside)

theorem Unfetched.empty {start : Session} {log : List Entry} {id : ProgramId}
    (unfetched : Unfetched start log id) (chain : Chain start log) :
    ∀ slot ∈ ((start.current log).shelf.get id).slots, slot.state = .empty := by
  obtain ⟨later, ran, earlier, rfl, completes, loaded, none⟩ := unfetched.executed
  have begins := runSteps_eq_begin
    (fun entry member => chain.entry_of_mem (List.mem_append_left _ member)) none
  obtain ⟨-, same⟩ := chain.split
  rw [same] at completes loaded
  have begun : runSteps id (ran :: earlier) = runSteps id earlier ++ [.begin] := by
    have found : ran.step? id = some .begin := same ▸ step?_of_completes completes loaded
    simp [runSteps, found]
  rw [get_current chain, runSteps_append, begun, Program.after_append, Program.after_concat]
  exact Program.empty_after (Program.empty_beginRun _) begins

theorem counts_current {histories : List (List Call)} {board : Board} {settings : Settings}
    {log : List Entry} (id : ProgramId) :
    let start := initial (histories.map fun calls => Call.record calls {}) board settings
    let program := (start.current log).shelf.get id
    Chain start log → (program.slots.map Slot.wordCount).sum = program.readCount := by
  intro start program chain
  obtain ⟨calls, -, own⟩ := Shelf.get_recorded histories id
  have serves : (start.shelf.get id).Serves _ :=
    own ▸ Program.serves_ofBuilder id (Call.keeps_record calls Builder.keeps_empty)
  have same : program = _ := get_current chain id
  rw [same]
  exact (serves.after _).counts

-- The results of a run are accepted exactly if every check passes. Nothing is read behind a check
-- that fails, and no result changes then.
theorem fetch_outcome (histories : List (List Call)) (board : Board) (settings : Settings)
    (commands : List Command) (id : ProgramId) (raw : UInt32) :
    let start := initial (histories.map fun calls => Call.record calls {}) board settings
    let log := start.log commands
    let s := start.current log
    let board := s.executor.transport
    Unfetched start log id → board.exception = .ofRaw raw →
    let program := s.shelf.get id
    let size := board.reportedSize.getD board.result.length
    let tolerated := ∀ flag : ExceptionFlag, raw &&& flag.mask ≠ 0 →
      settings.exceptionPolicy.tolerated.has flag = true
    let (outcome, after, shelf) := s.executor.tapped.fetch id s.shelf
    let calls := after.transport.calls
    s.executor.fetch id s.shelf = (outcome, after.seenAs Tap.link, shelf) ∧
    (outcome = .ok () ↔
      size ≤ board.maxResultSize ∧ size ≤ board.result.length ∧ tolerated ∧
      ∃ response, Response.demultiplex (board.result.take size) = .ok response ∧
        response.words.length = program.readCount ∧
        ∀ offer ∈ Slot.offers 0 program.slots response.words,
          offer.slot.check offer.bare = .ok ()) ∧
    (board.maxResultSize < size →
      calls = [.readResultSize] ∧ after.lastException = s.executor.lastException) ∧
    (size ≤ board.maxResultSize →
      after.lastException = some (.ofRaw raw) ∧
      (¬ tolerated → calls = [.readResultSize, .readExceptionFlags]) ∧
      (tolerated → calls = [.readResultSize, .readExceptionFlags, .bulkRead])) ∧
    (outcome ≠ .ok () → s.shelf.SameResults shelf) := by
  intro start log s board unfetched latched program size tolerated
  have chain : Chain start log := chain_log start commands
  have policy : s.executor.settings = settings :=
    (grounded_of_chain (Shelf.named_ofBuilders _) rfl chain).settings
  have harmless : (s.executor.settings.exceptionPolicy.fatal board.exception).isEmpty = true ↔
      tolerated := by
    rw [policy, latched]
    exact ExceptionPolicy.isEmpty_fatal_iff
  have accepted : (s.executor.fetch id s.shelf).1 = .ok () ↔ _ :=
    Executor.fetch_eq_ok_iff unfetched.loaded (counts_current id chain) (unfetched.empty chain)
  rw [harmless] at accepted
  have kept : (s.executor.fetch id s.shelf).1 ≠ .ok () →
      s.shelf.SameResults (s.executor.fetch id s.shelf).2.2 := Executor.sameResults_fetch
  have plain : s.executor.fetch id s.shelf = _ :=
    Tap.mirrors_link.fetch id s.shelf s.executor.tapped
  obtain ⟨transport, last⟩ :=
    Executor.fetch_of_loaded (e := s.executor.tapped) unfetched.loaded s.shelf
  rw [plain] at accepted kept
  generalize s.executor.tapped.fetch id s.shelf = result at *
  obtain ⟨outcome, after, shelf⟩ := result
  let asking := { s.executor.tapped with state := .fetching }
  refine ⟨plain, accepted, fun large => ?_, fun fits => ?_, kept⟩
  · rw [Executor.readResponse_of_large (e := asking) large] at transport last
    exact ⟨congrArg Tap.calls transport, last⟩
  · by_cases passes : tolerated
    · rw [Executor.readResponse_of_tolerated (e := asking) (Nat.not_lt.2 fits)
        (harmless.2 passes)] at transport last
      exact ⟨last.trans (congrArg some latched), fun fatal => absurd passes fatal,
        fun _ => congrArg Tap.calls transport⟩
    · rw [Executor.readResponse_of_fatal (e := asking) (Nat.not_lt.2 fits)
        (mt harmless.1 passes)] at transport last
      exact ⟨last.trans (congrArg some latched), fun _ => congrArg Tap.calls transport,
        fun others => absurd others passes⟩

theorem unfetched_played {start : Session} (faultless : start.executor.Faultless)
    (named : ∀ id, (start.shelf.get id).id = id) (options : ExecuteOptions) {id : ProgramId}
    (loads : Executor.Loadable start.executor.transport.kind (start.shelf.get id)) :
    let log := start.log [.stage (.transfer id), .stage (.execute options)]
    start.current log = ⟨start.executedWith id, start.shelf.modify id Program.beginRun⟩ ∧
      Unfetched start log id := by
  intro log
  have one := perform_load faultless loads
  have two := perform_play faultless named options id
  have current : start.current log =
      ⟨start.executedWith id, start.shelf.modify id Program.beginRun⟩ := by
    change (perform (.execute options) (start.perform (.transfer id)).2).2 = _
    rw [one, two]
  have done : (perform (.execute options) (start.perform (.transfer id)).2).1 = .ok () := by
    rw [one, two]
  have own : (start.perform (.transfer id)).2.executor.transferred = some id := by
    rw [one]
    exact congrArg some (named id)
  refine ⟨current, ?_, [], _, [start.entry (.transfer id)], rfl, ⟨⟨options, rfl⟩, done⟩, own,
    fun entry none => nomatch none⟩
  rw [current]
  exact congrArg some (named id)

def readings : List Call :=
  [.read Timer.node (.first Nat.zero_lt_two) none 0, .read Timer.node ⟨⟨1, Nat.one_lt_two⟩⟩ none 1]

-- The overflow of the link is tolerated, and other bits of the register are not looked at.
theorem readings_accepted :
    let start := initial ([readings].map fun calls => Call.record calls {})
      { exception := .ofRaw 0x80010200 } {}
    let s := start.current (start.log [.stage (.transfer 1), .stage (.execute {})])
    let fetched := s.executor.tapped.fetch 1 s.shelf
    fetched.1 = .ok () ∧
      fetched.2.1.transport.calls = [.readResultSize, .readExceptionFlags, .bulkRead] ∧
      fetched.2.1.lastException = some (.only .serdesOverflow) := by
  intro start s fetched
  have passes : ∀ flag : ExceptionFlag, (0x80010200 : UInt32) &&& flag.mask ≠ 0 →
      ({} : ExceptionPolicy).tolerated.has flag = true := by
    intro flag
    cases flag <;> decide
  have faultless : start.executor.Faultless :=
    ⟨rfl, rfl, rfl, rfl, rfl, ExceptionPolicy.isEmpty_fatal_iff.2 passes⟩
  have healthy : (start.executedWith 1).Faultless := (faultless.loaded _).executed _
  have loads : Executor.Loadable .simulation (start.shelf.get 1) := ⟨rfl, by decide⟩
  obtain ⟨current, unfetched⟩ :=
    unfetched_played faultless (Shelf.named_ofBuilders _) {} loads
  have outcome (s : Session) : (s.perform (.fetch 1)).1 = (s.executor.fetch 1 s.shelf).1 := rfl
  have stores : (s.executor.fetch 1 s.shelf).1 = .ok () := by
    rw [← outcome, show s = _ from current]
    exact perform_store healthy rfl rfl (by decide) rfl
  have ends := fetch_outcome [readings] { exception := .ofRaw 0x80010200 } {}
    [.stage (.transfer 1), .stage (.execute {})] 1 0x80010200 unfetched
    (congrArg (fun s => s.executor.transport.exception) current)
  rcases result : fetched with ⟨outcome, after, shelf⟩
  rw [show Executor.fetch _ _ _ = _ from result] at ends
  obtain ⟨plain, accepted, -, fits, -⟩ := ends
  have ok := (congrArg Prod.fst plain).symm.trans stores
  obtain ⟨last, -, calls⟩ := fits (accepted.1 ok).1
  exact ⟨ok, calls passes, last⟩

end Session

end Playback
