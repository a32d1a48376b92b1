import Playback.Container.Irregular
import Playback.Proofs.Executor.Repetition
import Playback.Proofs.Executor.Times
import Playback.Proofs.Recording.Alignment

/-! Which answers the leaves of a ticket are decoded from.

A response has no addresses. Its words count as the answers to the reads of the program that takes
them, and within a read as the answers to the leaves, by place alone. So a leaf has the answers to
its own addresses exactly if every leaf of the read takes as many words as it reads addresses, and
the board was asked for just these addresses there.
-/

set_option autoImplicit false

namespace Playback

namespace Request

def leaves (request : Request) : List (LeafSite request.V) :=
  request.node.leaves request.coord

def Even (request : Request) : Prop :=
  ∀ site ∈ request.leaves,
    (site.readAddresses (site.backendFor request.explicit)).length = site.readWords

instance (request : Request) : Decidable request.Even :=
  inferInstanceAs (Decidable (∀ site ∈ request.leaves, _))

/-- What stands at the places of a read, in a list with an entry for every word of a response. -/
def part {α : Type} (requests : List Request) (i : Nat) (request : Request) (entries : List α) :
    List α :=
  (entries.drop (first requests i)).take request.addresses.length

/-- Where the words of a response answer these addresses, every leaf of the read has the answers to
its own addresses. -/
def OwnAnswers (requests : List Request) (i : Nat) (request : Request) (asked : List Address) :
    Prop :=
  Leaves.OwnAnswers request.explicit request.leaves (part requests i request asked)

instance (requests : List Request) (i : Nat) (request : Request) (asked : List Address) :
    Decidable (request.OwnAnswers requests i asked) :=
  inferInstanceAs (Decidable (Leaves.OwnAnswers ..))

/-- The slot holds the words of its read. Its ticket shows the value that every leaf decoded from
its own part of them, one leaf after the other. -/
structure FilledBy (requests : List Request) (words : List ResponseWord) (i : Nat)
    (request : Request) (slot : Slot) : Prop where
  own : slot.reset = request.slot
  state : ∃ time, slot.state = .resolved (answering requests words i request) time
  value : ∃ value,
    (∀ (_ : Coordinate request.C) (shelf : Shelf), shelf.slot? request.ticket = some slot →
      request.handle.isValid shelf ∧ request.handle.get shelf = .ok value) ∧
    Leaves.Decodes request.explicit request.leaves
      (Leaves.cut request.leaves (answering requests words i request)) request.node.blank value

variable {requests : List Request} {i : Nat} {request : Request}

theorem length_part {α : Type} {entries : List α} (place : requests[i]? = some request)
    (enough : (requests.flatMap addresses).length ≤ entries.length) :
    (part requests i request entries).length = request.addresses.length := by
  have last := first_add_le place
  rw [part, List.length_take, List.length_drop]
  omega

theorem length_answering {words : List ResponseWord} (place : requests[i]? = some request)
    (enough : (requests.flatMap addresses).length ≤ words.length) :
    (answering requests words i request).length = request.addresses.length := by
  rw [answering, List.length_map]
  exact length_part place enough

theorem part_addresses (place : requests[i]? = some request) :
    part requests i request (requests.flatMap addresses) = request.addresses := by
  have before : first requests i = ((requests.take i).flatMap addresses).length := by
    rw [List.length_flatMap]
    rfl
  have apart : requests.flatMap addresses = (requests.take i).flatMap addresses ++
      (request.addresses ++ (requests.drop (i + 1)).flatMap addresses) := by
    obtain ⟨small, rfl⟩ := List.getElem?_eq_some_iff.1 place
    rw [← List.flatMap_cons, ← List.drop_eq_getElem_cons small, ← List.flatMap_append,
      List.take_append_drop]
  rw [part, before, apart, List.drop_left, List.take_left]

-- Leaf by leaf the answers are a leaf's own exactly if the leaves are even and the addresses that
-- were asked for are, at the places of the read, those of the read.
theorem ownAnswers_iff (accepted : request.Accepted) (place : requests[i]? = some request)
    {words : List ResponseWord} {value : request.V}
    (reads : request.node.readWords request.coord request.explicit
      (answering requests words i request) = .ok value)
    (counted : (requests.flatMap addresses).length = words.length) {asked : List Address}
    (enough : words.length ≤ asked.length) :
    OwnAnswers requests i request asked ↔
      request.Even ∧ part requests i request asked = request.addresses := by
  have total : (part requests i request asked).length =
      (request.leaves.map LeafSite.readWords).sum := by
    rw [length_part place (counted.le.trans enough), ← length_answering place counted.le]
    exact (Node.readWords_eq_ok_iff.1 reads).1
  exact Leaves.ownAnswers_iff total accepted.supported

end Request

namespace Program

open Request

variable {p : Program} {requests : List Request}

theorem Serves.completes_of_resolved (serves : p.Serves requests) {step : RunStep} {i : Nat}
    {before after : Slot} (early : p.slots[i]? = some before)
    (late : (p.step step).slots[i]? = some after) (unresolved : before.isResolved = false)
    (resolved : after.isResolved) :
    ∃ response, step = .complete response ∧ (p.completeRun response).1 = .ok () := by
  cases step with
  | begin =>
    have empty := p.empty_beginRun after (List.mem_of_getElem? late)
    rw [Slot.Idle.not_resolved (.inl empty)] at resolved
    cases resolved
  | complete response =>
    refine ⟨response, rfl, ?_⟩
    cases outcome : (p.completeRun response).1 with
    | ok done => rfl
    | error e =>
      obtain ⟨same, -⟩ := (serves.completed response).unchanged_of_error outcome
      have here := congrArg (·[i]?) same
      change (p.completeRun response).2.slots[i]? = some after at late
      simp only [List.getElem?_map, early, late, Option.map_some, Option.some.injEq] at here
      rw [here, unresolved] at resolved
      cases resolved

theorem Serves.leaves_of_ok (serves : p.Serves requests)
    (accepted : ∀ request ∈ requests, request.Accepted) {response : Response}
    (completes : (p.completeRun response).1 = .ok ()) {i : Nat} {request : Request}
    (place : requests[i]? = some request) :
    (∃ slot, (p.completeRun response).2.slots[i]? = some slot ∧
      FilledBy requests response.words i request slot) ∧
    ∀ asked : List Address, response.words.length ≤ asked.length →
      (OwnAnswers requests i request asked ↔
        request.Even ∧ part requests i request asked = request.addresses) := by
  have asks : ∀ request ∈ requests, 0 < request.addresses.length :=
    fun request member => (accepted request member).asks
  have counted : (requests.flatMap addresses).length = response.words.length :=
    serves.length_requested.trans (count_of_completeRun_ok completes).symm
  obtain ⟨slot, slotAt, own, state⟩ := serves.state_of_ok asks completes place
  obtain ⟨other, share, value, otherAt, -, ⟨-, time, holds⟩, reads⟩ :=
    serves.held_of_ok completes place
  cases slotAt.symm.trans otherAt
  obtain ⟨same, -⟩ := SlotState.resolved.inj (state.symm.trans holds)
  rw [← same] at reads
  refine ⟨⟨slot, slotAt, own, ⟨_, state⟩, value, fun _ shelf found => ⟨?_, ?_⟩, ?_⟩,
    fun asked enough => ?_⟩
  · rw [isValid_handle found]
    exact Slot.isResolved_iff.2 ⟨_, _, state⟩
  · exact get_handle found state reads
  · exact (Node.readWords_eq_ok_iff.1 reads).2
  · exact ownAnswers_iff (accepted request (List.mem_of_getElem? place)) place reads counted enough

end Program

namespace Session

open Board Request

theorem Chain.instructions_of_mem {start : Session} {log : List Entry} (chain : Chain start log)
    {entry : Entry} (member : entry ∈ log) (id : ProgramId) :
    (entry.before.shelf.get id).instructions = (start.shelf.get id).instructions := by
  obtain ⟨later, earlier, rfl⟩ := List.append_of_mem member
  obtain ⟨past, same⟩ := chain.split
  rw [same]
  change ((start.current earlier).shelf.get id).instructions = _
  rw [get_current past]
  exact (Program.after_kept _ _).2

theorem Chain.serves_of_built {start : Session} {log : List Entry} (chain : Chain start log)
    {id : ProgramId} {calls : List Call}
    (built : start.shelf.get id = .ofBuilder id (Call.record calls {})) :
    ((start.current log).shelf.get id).Serves (Call.issued calls {}) := by
  rw [get_current chain, built]
  exact Program.serves_record id calls _

-- Whatever of the last run is reported, its words are the first answers to the program of that run.
theorem answers_of_grounded {start : Session} {log : List Entry} (chain : Chain start log)
    (grounded : Grounded start log (start.current log).executor.footing (start.current log).shelf)
    {ran : Entry} (last : lastTrigger log = some ran) {response : Response}
    (reads : Response.demultiplex (start.current log).executor.transport.reported = .ok response) :
    ∃ other, ran.before.executor.transferred = some other ∧
      response.words <+: ran.before.answers other := by
  obtain ⟨other, loaded, memory⟩ := grounded.memory ran last
  refine ⟨other, loaded, ?_⟩
  have stream := chain.instructions_of_mem (List.mem_of_find?_eq_some last) other
  change (start.current log).executor.transport.result = _ at memory
  rw [Board.reported, memory, played, ← stream] at reads
  exact words_prefix_of_demultiplex reads

theorem length_answers_eq (s : Session) (id : ProgramId) :
    (s.answers id).length = (Instruction.requested (s.shelf.get id).instructions).length := by
  rw [answers, length_answers, Instruction.length_requested]

theorem leftover_asked {start : Session} (faultless : start.executor.Faultless)
    (named : ∀ id, (start.shelf.get id).id = id) (options : ExecuteOptions)
    (first second : ProgramId)
    (loads : Executor.Loadable start.executor.transport.kind (start.shelf.get first)) :
    ∃ ran, lastTrigger (start.log [.stage (.transfer first), .stage (.execute options),
        .stage (.transfer second)]) = some ran ∧
      ran.before.executor.transferred = some first ∧ ran.before.shelf = start.shelf := by
  have one := perform_load faultless loads
  have two := perform_play faultless named options first
  let ran := (start.perform (.transfer first)).2.entry (.execute options)
  have completes : ran.Completes := by
    refine ⟨⟨options, rfl⟩, ?_⟩
    change (perform (.execute options) (start.perform (.transfer first)).2).1 = .ok ()
    rw [one, two]
  have quiet : (ran.after.entry (.transfer second)).triggers = false := by
    rw [Bool.eq_false_iff]
    intro triggers
    obtain ⟨other, same⟩ := stage_of_triggers triggers
    cases same
  refine ⟨ran, ?_, ?_, ?_⟩
  · exact (lastTrigger_cons_of_false quiet).trans
      (lastTrigger_cons_of_true (triggers_of_completes completes))
  · change (start.perform (.transfer first)).2.executor.transferred = some first
    rw [one]
    exact congrArg some (named first)
  · change (start.perform (.transfer first)).2.shelf = start.shelf
    rw [one]

-- A write pairs addresses and words of the same leaves exactly if every leaf has as many of one as
-- of the other. A ticket becomes valid by a completion alone; its leaves have then decoded the
-- answers to their own reads exactly if every leaf takes as many words as it reads addresses. What
-- is fetched are answers to the program that was triggered last, so the addresses that this one
-- reads at the places of the ticket must be those of the ticket as well.
theorem leafwise_alignment {C V : Type} (node : Node C V) (coord : C) (value : V)
    (explicit : Option Backend) (b : Builder) (id : ProgramId) (calls : List Call)
    (steps : List RunStep) (builders : List Builder) (board : Board) (settings : Settings)
    (commands : List Command) :
    let leaves := node.leaves coord
    let requests := Call.issued calls {}
    let recorded := Program.ofBuilder id (Call.record calls {})
    let p := recorded.after steps
    (∀ next, b.write node coord value explicit = .ok next →
      ∃ accesses : List WriteAccess, next.instructions = b.instructions ++ accesses.map .write ∧
        accesses.map WriteAccess.assignment =
          (Leaves.pairings explicit value leaves).map
            (fun (address, word) => (address.2, word.2)) ∧
        ((∀ pair ∈ Leaves.pairings explicit value leaves, pair.1.1 = pair.2.1) ↔
          ∀ site ∈ leaves, (site.writeAddresses (site.backendFor explicit)).length =
            (site.encode value (site.backendFor explicit)).length)) ∧
    (∀ (step : RunStep) (i : Nat) (before after : Slot), p.slots[i]? = some before →
      (p.step step).slots[i]? = some after → before.isResolved = false → after.isResolved →
      ∃ response, step = .complete response ∧ (p.completeRun response).1 = .ok ()) ∧
    (∀ response : Response, (p.completeRun response).1 = .ok () →
      ∀ (i : Nat) (request : Request), requests[i]? = some request →
        (∃ slot, (p.completeRun response).2.slots[i]? = some slot ∧
          request.FilledBy requests response.words i slot) ∧
        (request.OwnAnswers requests i (Instruction.requested p.instructions) ↔
          request.Even)) ∧
    ∀ (later earlier : List Entry) (entry : Entry),
      (initial builders board settings).log commands = later ++ entry :: earlier →
      entry.stage = .fetch id → entry.outcome = .ok () →
      (Shelf.ofBuilders builders).get id = recorded →
      ∃ response : Response,
        (entry.before.shelf.get id).completeRun response =
          (.ok (), entry.after.shelf.get id) ∧
        (lastTrigger earlier = none →
          entry.before.executor.transport.result = board.result) ∧
        ∀ ran, lastTrigger earlier = some ran →
          ∃ other, ran.before.executor.transferred = some other ∧
            response.words <+: ran.before.answers other ∧
            ∀ (i : Nat) (request : Request), requests[i]? = some request →
              let asked := Instruction.requested (ran.before.shelf.get other).instructions
              (∃ slot, (entry.after.shelf.get id).slots[i]? = some slot ∧
                request.FilledBy requests response.words i slot) ∧
              (request.OwnAnswers requests i asked ↔
                request.Even ∧ request.part requests i asked = request.addresses) := by
  intro leaves requests recorded p
  have serves : p.Serves requests := Program.serves_record id calls steps
  refine ⟨fun next => Builder.pairings_of_write,
    fun step i before after => serves.completes_of_resolved,
    fun response completes i request place => ?_,
    fun later earlier entry happened fetch done built => ?_⟩
  · obtain ⟨filled, exactly⟩ :=
      serves.leaves_of_ok (Call.accepted_of_issued calls {}) completes place
    have counted : response.words.length ≤ (Instruction.requested p.instructions).length := by
      rw [serves.requested, serves.length_requested, Program.count_of_completeRun_ok completes]
    refine ⟨filled, (exactly _ counted).trans (and_iff_left ?_)⟩
    rw [serves.requested]
    exact part_addresses place
  · obtain ⟨chain, same⟩ := (happened ▸ chain_log _ commands).split
    have grounded := grounded_of_chain (Shelf.named_ofBuilders builders) rfl chain
    rw [fetch] at same
    have before : entry.before = (initial builders board settings).current earlier := by
      rw [same]
      rfl
    have after : entry.after =
        (((initial builders board settings).current earlier).entry (.fetch id)).after := by
      rw [same]
    obtain ⟨-, response, reads, completes⟩ := stored_of_fetch (same ▸ done)
    rw [before, after]
    refine ⟨response, completes, grounded.untouched, fun ran last => ?_⟩
    obtain ⟨other, loaded, answered⟩ := answers_of_grounded chain grounded last reads
    refine ⟨other, loaded, answered, fun i request place => ?_⟩
    have now := chain.serves_of_built built
    obtain ⟨filled, exactly⟩ := now.leaves_of_ok (Call.accepted_of_issued calls {})
      (congrArg Prod.fst completes) place
    rw [completes] at filled
    refine ⟨filled, exactly _ ?_⟩
    rw [← length_answers_eq]
    exact answered.length_le

def firstRow : SynapseRowOnChip :=
  .first (Nat.succ_pos 3)

def swapping : List Call :=
  [.read SynapseQuad.node ⟨firstRow, ⟨⟨1, Nat.one_lt_two⟩⟩⟩ none 0,
    .read SynapseQuad.node ⟨firstRow, .first Nat.zero_lt_two⟩ none 1]

def readingRow : List Call :=
  [.read SynapseRow.node firstRow none 2]

def narrow : Leaf Unique PlainRegister :=
  PlainRegister.leaf "Narrow" [0x0fff0060, 0x0fff0061]

def wide : Leaf Unique PlainRegister :=
  { PlainRegister.leaf "Wide" [0x0fff0062] with
    writeWords := 2
    readWords := 2
    encode := fun register backend => wordsOf backend [register.value.toNat, 0]
    decode := fun backend words _ => do
      let raw ← rawWords "Wide" 2 backend words
      return ⟨UInt32.ofNat (raw.get ⟨0, Nat.zero_lt_two⟩)⟩ }

/-- As many addresses as words in total, but at neither leaf. -/
def uneven : Node Unique (PlainRegister × PlainRegister) :=
  .composite "Uneven" default fun _ =>
    (narrow.node default).visitsWithin ⟨⟩ ⟨Prod.fst, fun first both => (first, both.2)⟩
      ++ (wide.node default).visitsWithin ⟨⟩ ⟨Prod.snd, fun second both => (both.1, second)⟩

theorem eq_ok_of_isOk {ε : Type} {outcome : Except ε Unit} (done : outcome.isOk = true) :
    outcome = .ok () := by
  cases outcome with
  | error e => cases done
  | ok done => rfl

-- The row is written leaf by leaf, and read so from any words and from its own run.
theorem row_keeps_its_leaves :
    (∀ pair ∈ Leaves.pairings none default (SynapseRow.node.leaves firstRow),
      pair.1.1 = pair.2.1) ∧
    ∃ request : Request, Call.issued readingRow {} = [request] ∧
      request.OwnAnswers [request] 0
        (Instruction.requested (Call.record readingRow {}).instructions) ∧
      ∃ (fetch : Entry) (earlier : List Entry), fetch.stage = .fetch 1 ∧
        fetch.outcome = .ok () ∧
        (∃ words slot, (fetch.after.shelf.get 1).slots[0]? = some slot ∧
          request.FilledBy [request] words 0 slot) ∧
        ∃ ran, lastTrigger earlier = some ran ∧ request.OwnAnswers [request] 0
          (Instruction.requested (ran.before.shelf.get 1).instructions) := by
  let builders := [Call.record readingRow {}]
  obtain ⟨next, written⟩ :
      ∃ next, Builder.write SynapseRow.node firstRow default none {} = .ok next := ⟨_, rfl⟩
  obtain ⟨fetch, earlier, happened, stage, done, own⟩ :=
    run_own (faultless_initial builders) (Shelf.named_ofBuilders _) {} 1
      ⟨rfl, by decide⟩ (by decide +kernel) (eq_ok_of_isOk (by decide +kernel))
  obtain ⟨writes, -, completions, fetches⟩ := leafwise_alignment SynapseRow.node firstRow default
    none {} 1 readingRow [] builders {} {} [.run 1 {}]
  refine ⟨?_, _, rfl, ?_, fetch, earlier, stage, done, ?_⟩
  · obtain ⟨-, -, -, exactly⟩ := writes next written
    exact exactly.2 (by decide)
  · have decodes : ((Program.ofBuilder 1 (Call.record readingRow {})).completeRun
        { words := List.replicate 4 ⟨.omnibus 0, none⟩ }).1.isOk = true := by decide +kernel
    exact (completions _ (eq_ok_of_isOk decodes) 0 _ rfl).2.2 (by decide)
  · obtain ⟨ran, last, -, loaded⟩ := own.played
    obtain ⟨response, -, -, answered⟩ := fetches [] earlier fetch happened stage done rfl
    obtain ⟨other, same, -, leaves⟩ := answered ran last
    cases loaded.symm.trans same
    obtain ⟨⟨slot, slotAt, filled⟩, exactly⟩ := leaves 0 _ rfl
    refine ⟨⟨_, slot, slotAt, filled⟩, ran, last, exactly.2 ?_⟩
    have chain : Chain _ ([] ++ fetch :: earlier) := happened ▸ chain_log _ _
    rw [chain.split.1.instructions_of_mem (List.mem_of_find?_eq_some last)]
    exact ⟨by decide, rfl⟩

theorem not_always_leafwise :
    (¬ ∀ (C V : Type) (node : Node C V) (coord : C) (value : V) (explicit : Option Backend)
      (b next : Builder), b.write node coord value explicit = .ok next →
      ∀ pair ∈ Leaves.pairings explicit value (node.leaves coord), pair.1.1 = pair.2.1) ∧
    (¬ ∀ (id : ProgramId) (calls : List Call) (steps : List RunStep) (response : Response),
      let requests := Call.issued calls {}
      let p := (Program.ofBuilder id (Call.record calls {})).after steps
      (p.completeRun response).1 = .ok () →
      ∀ (i : Nat) (request : Request), requests[i]? = some request →
        request.OwnAnswers requests i (Instruction.requested p.instructions)) ∧
    ¬ ∀ (builders : List Builder) (board : Board) (settings : Settings) (commands : List Command)
      (later earlier : List Entry) (entry ran : Entry) (id other : ProgramId) (calls : List Call),
      (initial builders board settings).log commands = later ++ entry :: earlier →
      entry.stage = .fetch id → entry.outcome = .ok () →
      (Shelf.ofBuilders builders).get id = .ofBuilder id (Call.record calls {}) →
      lastTrigger earlier = some ran → ran.before.executor.transferred = some other →
      let requests := Call.issued calls {}
      ∀ (i : Nat) (request : Request), requests[i]? = some request →
        request.OwnAnswers requests i
          (Instruction.requested (ran.before.shelf.get other).instructions) := by
  refine ⟨fun always => ?_, fun always => ?_, fun always => ?_⟩
  -- The narrow leaf has the second place for its address, the wide leaf for its first word.
  · have written := always _ _ uneven ⟨⟩ (⟨1⟩, ⟨2⟩) none {} _ rfl
    exact absurd written (by decide)
  · have own := always 1 [.read uneven ⟨⟩ none 0] []
      { words := [⟨.omnibus 1, none⟩, ⟨.omnibus 2, none⟩, ⟨.omnibus 3, none⟩] } rfl 0 _ rfl
    exact absurd own (by decide)
  -- The row is loaded after the quads were read, and fetched without a run of its own.
  · let builders := [Call.record swapping {}, Call.record readingRow {}]
    let start := initial builders {} {}
    have faultless := faultless_initial builders
    have named := Shelf.named_ofBuilders builders
    have loads : Executor.Loadable start.executor.transport.kind (start.shelf.get 1) :=
      ⟨rfl, by decide⟩
    obtain ⟨fetch, earlier, happened, stage, done, -⟩ :=
      leftover_fetched faultless named {} 1 2 loads ⟨rfl, by decide⟩ (by decide +kernel)
        (eq_ok_of_isOk (by decide +kernel))
    obtain ⟨ran, last, loaded, shelf⟩ := leftover_asked faultless named {} 1 2 loads
    have before : earlier = _ := (List.cons.inj happened).2.symm
    have own := always builders {} {} _ [] earlier fetch ran 2 1 readingRow happened stage done rfl
      (before ▸ last) loaded 0 _ rfl
    rw [shelf] at own
    exact absurd own (by decide)

end Session

end Playback
