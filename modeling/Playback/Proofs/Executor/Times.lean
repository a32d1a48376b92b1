import Playback.Proofs.Board.Interpreter
import Playback.Proofs.Executor.ReadBack
import Playback.Proofs.Program.Times

/-! Times of tickets, from run to run.

The clock of a board passes every answer: with annotation each word has the time of its own
instruction, and two instructions never have the same. What a board goes through never sets its
clock back, so the times of a run are behind those of all runs before it. Without annotation the
times are places in one response and say nothing about another.
-/

set_option autoImplicit false

namespace Playback

open Board Instruction

namespace Response

variable {words : List ResponseWord}

theorem timeAt_of_bare (bare : ∀ word ∈ words, word.fpgaTime = none) (place : Nat) :
    timeAt words place = UInt64.ofNat place := by
  unfold timeAt
  cases found : words[place]? with
  | none => rfl
  | some word => rw [Option.bind_some, bare word (List.mem_of_getElem? found), Option.getD_none]

theorem timeAt_of_some {place : Nat} {word : ResponseWord} {time : FpgaTime}
    (found : words[place]? = some word) (stamped : word.fpgaTime = some time) :
    timeAt words place = time := by
  rw [timeAt, found, Option.bind_some, stamped, Option.getD_some]

theorem timeAt_lt_of_stamped
    (rises : words.Pairwise fun first second => ∃ early late,
      first.fpgaTime = some early ∧ second.fpgaTime = some late ∧ early < late)
    {i j : Nat} (before : i < j) (within : j < words.length) :
    timeAt words i < timeAt words j := by
  obtain ⟨early, late, first, second, earlier⟩ :=
    List.pairwise_iff_getElem.1 rises i j (by omega) within before
  rw [timeAt_of_some (List.getElem?_eq_getElem _) first,
    timeAt_of_some (List.getElem?_eq_getElem within) second]
  exact earlier

end Response

namespace Request

variable {requests : List Request} (asks : ∀ request ∈ requests, 0 < request.addresses.length)

include asks

theorem first_lt_length {i : Nat} {request : Request} (place : requests[i]? = some request) :
    first requests i < (requests.flatMap addresses).length := by
  have some := asks request (List.mem_of_getElem? place)
  have within := first_add_le place
  omega

-- Times that are places rise as long as there are no more of them than 64 bits count.
theorem places_lt {words : List ResponseWord} (bare : ∀ word ∈ words, word.fpgaTime = none)
    (enough : words.length = (requests.flatMap addresses).length)
    (small : words.length ≤ 0x10000000000000000) {i j : Nat} (before : i < j)
    (within : j < requests.length) :
    Response.timeAt words (first requests i) < Response.timeAt words (first requests j) := by
  have last := first_lt_length asks (List.getElem?_eq_getElem within)
  rw [Response.timeAt_of_bare bare, Response.timeAt_of_bare bare]
  exact ofNat_lt (first_lt asks before within) (by omega)

end Request

namespace Session

def clock (s : Session) : Nat :=
  s.executor.transport.machine.clock

def ran (s : Session) (id : ProgramId) (options : ExecuteOptions) : Session :=
  let (_, executor, shelf) := s.executor.run id options s.shelf
  { executor, shelf }

/-- What the board of a session may go through: stages of the executor in any order, settings of
the board, and handing over to another executor with other programs. -/
inductive Later (s : Session) : Session → Prop where
  | refl : Later s s
  | perform {t : Session} (later : Later s t) (stage : Stage) : Later s (t.perform stage).2
  | handOver {t u : Session} (later : Later s t) (same : u.executor.transport = t.executor.transport) :
    Later s u

theorem clock_play (annotate : Bool) (instructions : List Instruction) (machine : Machine) :
    machine.clock ≤ (machine.play annotate instructions).2.clock := by
  have played : (machine.play annotate instructions).2 = machine.after instructions :=
    Play.machine_steps annotate instructions { machine }
  have passed := machine.clock_after instructions
  rw [played]
  omega

-- Only an execute moves the clock, and it moves it on.
theorem clock_perform (s : Session) (stage : Stage) : s.clock ≤ (s.perform stage).2.clock := by
  have ways := s.performed stage
  change s.clock ≤ (s.perform stage).2.executor.footing.machine.clock
  cases stage with
  | turn knob => cases knob <;> exact Nat.le_refl _
  | transfer id =>
    generalize (s.perform (.transfer id)).1 = outcome at ways
    generalize (s.perform (.transfer id)).2.executor.footing = f at ways ⊢
    generalize (s.perform (.transfer id)).2.shelf = shelf at ways
    cases ways with
    | transfer ways => cases ways <;> exact Nat.le_refl _
  | execute options =>
    generalize (s.perform (.execute options)).1 = outcome at ways
    generalize (s.perform (.execute options)).2.executor.footing = f at ways ⊢
    generalize (s.perform (.execute options)).2.shelf = shelf at ways
    cases ways with
    | execute ways =>
      cases ways with
      | untried => exact Nat.le_refl _
      | blank loaded none => exact Nat.le_refl _
      | played loaded resident => exact clock_play _ _ _
  | fetch id =>
    generalize (s.perform (.fetch id)).1 = outcome at ways
    generalize (s.perform (.fetch id)).2.executor.footing = f at ways ⊢
    generalize (s.perform (.fetch id)).2.shelf = shelf at ways
    cases ways with
    | fetch ways => cases ways <;> exact Nat.le_refl _

theorem Later.clock_le {s t : Session} (later : s.Later t) : s.clock ≤ t.clock := by
  induction later with
  | refl => exact Nat.le_refl _
  | perform _ stage ih => exact ih.trans (clock_perform _ stage)
  | @handOver t u _ same ih =>
    have kept : u.clock = t.clock := by rw [clock, clock, same]
    exact kept ▸ ih

theorem Later.ran {s t : Session} (later : s.Later t) (id : ProgramId) (options : ExecuteOptions) :
    s.Later (t.ran id options) := by
  have loaded := later.perform (.transfer id)
  unfold Session.ran Executor.run
  simp only [Session.perform] at loaded ⊢
  rcases transfers : t.executor.transfer (t.shelf.get id) with ⟨outcome, e⟩
  rw [transfers] at loaded
  cases outcome with
  | error error => exact loaded
  | ok done =>
    have played := loaded.perform (.execute options)
    simp only [Session.perform] at played ⊢
    rcases executes : e.execute options t.shelf with ⟨outcome, e, shelf⟩
    rw [executes] at played
    cases outcome with
    | error error => exact played
    | ok done => exact played.perform (.fetch id)

/-- A program on the shelf was recorded by these calls, and whatever came of runs of it before; no
two reads on the shelf share a ticket. -/
structure Carries (s : Session) (id : ProgramId) (calls : List Call) : Prop where
  built : ∃ steps, s.shelf.get id = (Program.ofBuilder id (Call.record calls {})).after steps
  distinct : (s.shelf.slots.map Slot.ticket).Nodup

section Run

variable {s : Session} {id : ProgramId} {calls : List Call} (carries : s.Carries id calls)

include carries

theorem Carries.named : (s.shelf.get id).id = id := by
  obtain ⟨steps, built⟩ := carries.built
  rw [built]
  exact (Program.after_kept (.ofBuilder id (Call.record calls {})) steps).1

theorem Carries.serves : (s.shelf.get id).Serves (Call.issued calls {}) := by
  obtain ⟨steps, built⟩ := carries.built
  rw [built]
  exact Program.serves_record id calls steps

def answers (s : Session) (id : ProgramId) : List ResponseWord :=
  (withPast (s.shelf.get id).instructions).filterMap fun (earlier, instruction) =>
    s.executor.transport.machine.answer? s.executor.settings.timeAnnotation earlier instruction

variable {options : ExecuteOptions}
  (done : (s.executor.run id options s.shelf).1 = .ok ())

include done

theorem Carries.played :
    (s.shelf.get id).instructions.length < 0x100000000 ∧
      (s.ran id options).executor.transport.machine =
        s.executor.transport.machine.after (s.shelf.get id).instructions := by
  obtain ⟨small, machine, -⟩ := Executor.played_of_run carries.named done
  exact ⟨small, machine.trans (Play.machine_steps _ _ { machine := _ })⟩

theorem Carries.holds :
    (s.answers id).length = ((Call.issued calls {}).flatMap Request.addresses).length ∧
      ∀ (i : Nat) (request : Request), (Call.issued calls {})[i]? = some request →
        request.Holds (s.ran id options).shelf
          (Request.answering (Call.issued calls {}) (s.answers id) i request)
          (Response.timeAt (s.answers id) (Request.first (Call.issued calls {}) i)) := by
  have ways := s.executor.run_cases options carries.named
  obtain ⟨-, -, response, reads, completes, after⟩ := Executor.played_of_run carries.named done
  have enough := Program.count_of_completeRun_ok completes
  have words : response.words = s.answers id := answers_of_demultiplex reads enough
  rw [← words]
  refine ⟨enough.trans carries.serves.length_requested.symm, fun i request place => ?_⟩
  have stored : (s.ran id options).shelf.get id =
      ((s.shelf.get id).beginRun.completeRun response).2 := by
    change (s.executor.run id options s.shelf).2.2.get id = _
    rw [after, Shelf.get_put, if_pos rfl]
  have distinct : ((s.ran id options).shelf.slots.map Slot.ticket).Nodup :=
    ways.tickets ▸ carries.distinct
  exact carries.serves.beginRun.holds_of_ok (Call.asks_of_issued calls) completes stored distinct
    place

theorem Carries.pairwise_before
    (fits : s.executor.settings.timeAnnotation = true →
      (s.ran id options).clock < 0x10000000000000000) :
    (Call.issued calls {}).Pairwise fun earlier later =>
      Request.Before (s.ran id options).shelf earlier (s.ran id options).shelf later := by
  obtain ⟨small, machine⟩ := carries.played done
  obtain ⟨enough, holds⟩ := carries.holds done
  have asks := Call.asks_of_issued calls
  refine Request.pairwise_before holds fun i j before within => ?_
  cases annotated : s.executor.settings.timeAnnotation with
  | true =>
    have stamped : (s.answers id).Pairwise fun first second => ∃ early late,
        first.fpgaTime = some early ∧ second.fpgaTime = some late ∧ early < late := by
      rw [answers, annotated]
      rw [clock, machine] at fits
      exact pairwise_answers (fits annotated)
    have last := Request.first_lt_length asks (List.getElem?_eq_getElem within)
    exact Response.timeAt_lt_of_stamped stamped (Request.first_lt asks before within)
      (enough ▸ last)
  | false =>
    have bare : ∀ word ∈ s.answers id, word.fpgaTime = none := by
      intro word member
      rw [answers, annotated] at member
      obtain ⟨past, -, answered⟩ := List.mem_filterMap.1 member
      exact fpgaTime_of_answer? answered
    have count : (s.answers id).length ≤ (s.shelf.get id).instructions.length := by
      rw [answers, length_answers]
      exact List.countP_le_length
    exact Request.places_lt asks bare enough (by omega) before within

theorem Carries.time_bounds (annotated : s.executor.settings.timeAnnotation = true)
    (fits : (s.ran id options).clock < 0x10000000000000000) {place : Nat}
    (within : place < (s.answers id).length) :
    s.clock < (Response.timeAt (s.answers id) place).toNat ∧
      (Response.timeAt (s.answers id) place).toNat ≤ (s.ran id options).clock := by
  obtain ⟨-, machine⟩ := carries.played done
  obtain ⟨word, found⟩ : ∃ word, (s.answers id)[place]? = some word :=
    ⟨_, List.getElem?_eq_getElem within⟩
  have member := List.mem_of_getElem? found
  unfold answers at member
  obtain ⟨⟨earlier, instruction⟩, inside, answered⟩ := List.mem_filterMap.1 member
  have stamped := fpgaTime_of_answer? answered
  rw [annotated] at stamped
  rw [Response.timeAt_of_some found stamped]
  have begun := s.executor.transport.machine.clock_lt_timeAfter earlier
  have ended := s.executor.transport.machine.timeAfter_le inside
  rw [← machine] at ended
  have exact : (UInt64.ofNat (s.executor.transport.machine.timeAfter earlier)).toNat =
      s.executor.transport.machine.timeAfter earlier :=
    UInt64.toNat_ofNat_of_lt' (Nat.lt_of_le_of_lt ended fits)
  rw [exact]
  exact ⟨begun, ended⟩

end Run

-- The times of tickets follow the reads in the stream. If a response carries no times, the time of
-- a ticket is the place of its first word. On a board the times rise along every run that ends
-- well; with annotation they rise from run to run as well, whichever programs these are of and
-- whatever the board goes through between them.
theorem times_follow_reads (s : Session) (id : ProgramId) (calls : List Call)
    (carries : s.Carries id calls) (options : ExecuteOptions) :
    let requests := Call.issued calls {}
    let program := s.shelf.get id
    let t := s.ran id options
    Instruction.requested program.instructions = requests.flatMap Request.addresses ∧
    (∀ response : Response, (∀ word ∈ response.words, word.fpgaTime = none) →
      (program.completeRun response).1 = .ok () →
      let after := s.shelf.put id (program.completeRun response).2
      (∀ (i : Nat) (request : Request), requests[i]? = some request →
        Request.first requests i < response.words.length ∧
        request.Holds after (Request.answering requests response.words i request)
          (UInt64.ofNat (Request.first requests i))) ∧
      (response.words.length ≤ 0x10000000000000000 →
        requests.Pairwise fun earlier later => Request.Before after earlier after later)) ∧
    ((s.executor.run id options s.shelf).1 = .ok () →
      (s.executor.settings.timeAnnotation = true → t.clock < 0x10000000000000000) →
      requests.Pairwise fun earlier later => Request.Before t.shelf earlier t.shelf later) ∧
    ((s.executor.run id options s.shelf).1 = .ok () → s.executor.settings.timeAnnotation = true →
      ∀ (u : Session) (otherId : ProgramId) (otherCalls : List Call)
        (otherOptions : ExecuteOptions),
        t.Later u → u.Carries otherId otherCalls → u.executor.settings.timeAnnotation = true →
        (u.executor.run otherId otherOptions u.shelf).1 = .ok () →
        (u.ran otherId otherOptions).clock < 0x10000000000000000 →
        ∀ earlier ∈ requests, ∀ later ∈ Call.issued otherCalls {},
          Request.Before t.shelf earlier (u.ran otherId otherOptions).shelf later) := by
  intro requests program t
  have asks : ∀ request ∈ requests, 0 < request.addresses.length := Call.asks_of_issued calls
  refine ⟨carries.serves.requested, fun response bare completes => ?_,
    fun done fits => carries.pairwise_before done fits, ?_⟩
  · intro after
    have enough : response.words.length = (requests.flatMap Request.addresses).length :=
      (Program.count_of_completeRun_ok completes).trans carries.serves.length_requested.symm
    have stored : after.get id = (program.completeRun response).2 := by
      rw [Shelf.get_put, if_pos rfl]
    have distinct : (after.slots.map Slot.ticket).Nodup := by
      rw [Shelf.tickets_put (program.completeRun_reset response)]
      exact carries.distinct
    have holds := fun i (request : Request) (place : requests[i]? = some request) =>
      carries.serves.holds_of_ok asks completes stored distinct place
    refine ⟨fun i request place => ⟨enough ▸ Request.first_lt_length asks place, ?_⟩,
      fun small => ?_⟩
    · rw [← Response.timeAt_of_bare bare]
      exact holds i request place
    · exact Request.pairwise_before holds fun i j => Request.places_lt asks bare enough small
  · intro done annotated u otherId otherCalls otherOptions later others alsoAnnotated otherDone fits
      first among second within
    have passed : t.clock ≤ u.clock := later.clock_le
    obtain ⟨i, place⟩ := List.getElem?_of_mem among
    obtain ⟨j, otherPlace⟩ := List.getElem?_of_mem within
    obtain ⟨enough, holds⟩ := carries.holds done
    obtain ⟨otherEnough, otherHolds⟩ := others.holds otherDone
    have last := Request.first_lt_length asks place
    have otherLast := Request.first_lt_length (Call.asks_of_issued otherCalls) otherPlace
    have next := others.time_bounds otherDone alsoAnnotated fits (otherEnough ▸ otherLast)
    have begun : u.clock ≤ (u.ran otherId otherOptions).clock :=
      (Later.refl.ran otherId otherOptions).clock_le
    have bounds := carries.time_bounds done annotated (by change t.clock < _; omega)
      (enough ▸ last)
    refine ⟨_, _, _, _, holds i first place, otherHolds j second otherPlace, ?_⟩
    rw [UInt64.lt_iff_toNat_lt]
    exact Nat.lt_of_le_of_lt (Nat.le_trans bounds.2 passed) next.1

def twoTimers : List Call :=
  [.read Timer.node (.first Nat.zero_lt_two) none 0, .wait (.first Nat.zero_lt_two) 7,
    .read Timer.node ⟨⟨1, Nat.one_lt_two⟩⟩ none 1]

def oneTimer : List Call :=
  [.read Timer.node (.first Nat.zero_lt_two) none 2]

-- Two runs in a row: the two reads of the first, and the last of them and that of the second.
theorem timers_in_order :
    let s := initial [Call.record twoTimers {}, Call.record oneTimer {}] {} {}
    let t := s.ran 1 {}
    let u := t.ran 2 {}
    let timer (i : TimerOnChip) (ticket : TicketId) : Request :=
      { node := Timer.node, coord := i, explicit := none, ticket }
    let first := timer (.first Nat.zero_lt_two) 0
    let second := timer ⟨⟨1, Nat.one_lt_two⟩⟩ 1
    let third := timer (.first Nat.zero_lt_two) 2
    Request.Before t.shelf first t.shelf second ∧ Request.Before t.shelf second u.shelf third := by
  intro s t u timer first second third
  have faultless : s.executor.Faultless := faultless_initial _
  have run := run_eq faultless (Shelf.named_ofBuilders _) {} 1 ⟨rfl, by decide⟩ (by decide) rfl
  have done : (s.executor.run 1 {} s.shelf).1 = .ok () := by rw [run]
  have ran : t = s.completedWith 1 := by
    unfold t Session.ran
    rw [run]
  have healthy : t.executor.Faultless := by
    rw [ran]
    exact ⟨rfl, rfl, rfl, rfl, rfl, faultless.tolerated⟩
  have named : ∀ id, (t.shelf.get id).id = id := by
    intro id
    rw [ran]
    exact ((Shelf.alike_completeRun _ _ _ id).1.trans (Shelf.alike_beginRun _ _ id).1).trans
      (Shelf.named_ofBuilders _ id)
  have otherDone : (t.executor.run 2 {} t.shelf).1 = .ok () := by
    refine run_eq_ok healthy named {} 2 ?_ ?_ ?_
    · rw [ran]
      exact ⟨rfl, by decide⟩
    · rw [ran]
      decide
    · rw [ran]
      rfl
  have carries : s.Carries 1 twoTimers := ⟨⟨[], rfl⟩, by decide⟩
  have others : t.Carries 2 oneTimer := by
    rw [ran]
    exact ⟨⟨[], rfl⟩, by decide⟩
  have fits : u.clock < 0x10000000000000000 := by
    obtain ⟨-, machine⟩ := others.played otherDone
    unfold u clock
    rw [machine, ran]
    decide
  have before : t.clock < 0x10000000000000000 :=
    Nat.lt_of_le_of_lt (Later.refl.ran 2 {}).clock_le fits
  have annotated : t.executor.settings.timeAnnotation = true := by
    rw [ran]
    rfl
  obtain ⟨-, -, order, onward⟩ := times_follow_reads s 1 twoTimers carries {}
  refine ⟨List.pairwise_pair.1 (order done fun _ => before), ?_⟩
  exact onward done rfl t 2 oneTimer {} .refl others annotated otherDone fits second
    (List.mem_cons_of_mem _ List.mem_cons_self) third List.mem_cons_self

end Session

end Playback
