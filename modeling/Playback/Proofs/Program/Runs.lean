import Playback.Program.Ticket
import Playback.Proofs.Program.Completion
import Playback.Proofs.Recording.Requests

/-! Runs of a recorded program, begun and completed in any order.

Whatever responses come, the slots stay those of the recorded reads and answer together: all of them
are resolved or all are idle (`Program.Serves`). Each slot gets the words of its own requests.
-/

set_option autoImplicit false

namespace Playback

inductive RunStep where
  | begin
  | complete (response : Response)

namespace Slot

/-- A slot without words: it was not reached, or it could not decode its words. -/
def Idle (slot : Slot) : Prop :=
  slot.state = .empty ∨ ∃ e, slot.state = .failed e

theorem Idle.settled {slot : Slot} (idle : slot.Idle) : slot.Settled := by
  intro words time
  rcases idle with empty | ⟨e, failed⟩
  · simp [empty]
  · simp [failed]

theorem Idle.not_resolved {slot : Slot} (idle : slot.Idle) : slot.isResolved = false := by
  unfold isResolved
  rcases idle with empty | ⟨e, failed⟩
  · simp [empty]
  · simp [failed]

theorem isResolved_iff {slot : Slot} :
    slot.isResolved ↔ ∃ words time, slot.state = .resolved words time := by
  unfold isResolved
  cases slot.state <;> simp

theorem settled_of_resolved {slot : Slot} (resolved : slot.isResolved) : slot.Settled := by
  obtain ⟨words, time, state⟩ := isResolved_iff.1 resolved
  intro others later
  simp [state]

theorem idle_reset (slot : Slot) : slot.reset.Idle :=
  .inl rfl

end Slot

namespace Offer

theorem isResolved_resolved (offer : Offer) : offer.resolved.isResolved := rfl

theorem Refused.reset {offer : Offer} {e : SlotError} {after : Slot}
    (refused : offer.Refused e after) : after.reset = offer.slot.reset := by
  cases refused <;> rfl

theorem Refused.isResolved {offer : Offer} {e : SlotError} {after : Slot}
    (refused : offer.Refused e after) : after.isResolved = offer.slot.isResolved := by
  cases refused with
  | occupied state => rfl
  | undecodable empty failed => simp [Slot.isResolved, empty]

theorem Refused.idle {offer : Offer} {e : SlotError} {after : Slot}
    (refused : offer.Refused e after) (idle : offer.slot.Idle) : after.Idle := by
  cases refused with
  | occupied state => exact idle
  | undecodable empty failed => exact .inr ⟨_, rfl⟩

end Offer

namespace Program

def step (p : Program) : RunStep → Program
  | .begin => p.beginRun
  | .complete response => (p.completeRun response).2

def after (p : Program) (steps : List RunStep) : Program :=
  steps.foldl step p

theorem empty_beginRun (p : Program) : ∀ slot ∈ p.beginRun.slots, slot.state = .empty := by
  intro slot member
  obtain ⟨earlier, -, rfl⟩ := List.mem_map.1 member
  rfl

theorem beginRun_reset (p : Program) :
    p.beginRun.slots.map Slot.reset = p.slots.map Slot.reset := by
  rw [beginRun, List.map_map]
  rfl

theorem empty_after {p : Program} {steps : List RunStep}
    (empty : ∀ slot ∈ p.slots, slot.state = .empty) (begins : ∀ step ∈ steps, step = .begin) :
    ∀ slot ∈ (p.after steps).slots, slot.state = .empty := by
  induction steps generalizing p with
  | nil => exact empty
  | cons step rest ih =>
    obtain ⟨rfl, others⟩ := List.forall_mem_cons.1 begins
    exact ih p.empty_beginRun others

/-- A program that requests and keeps the words of these reads. -/
structure Serves (p : Program) (requests : List Request) : Prop where
  requested : Instruction.requested p.instructions = requests.flatMap Request.addresses
  slots : p.slots.map Slot.reset = requests.map Request.slot
  together : (∀ slot ∈ p.slots, slot.isResolved) ∨ ∀ slot ∈ p.slots, slot.Idle

theorem serves_ofBuilder (id : ProgramId) {b : Builder} {requests : List Request}
    (keeps : b.Keeps requests) : (ofBuilder id b).Serves requests where
  requested := keeps.requested
  slots := by
    simp only [ofBuilder, keeps.slots, List.map_map]
    rfl
  together := by
    right
    intro slot member
    simp only [ofBuilder, keeps.slots, List.mem_map] at member
    obtain ⟨request, -, rfl⟩ := member
    exact .inl rfl

namespace Serves

variable {p : Program} {requests : List Request}

theorem settled (serves : p.Serves requests) : ∀ slot ∈ p.slots, slot.Settled := by
  intro slot member
  rcases serves.together with resolved | idle
  · exact Slot.settled_of_resolved (resolved slot member)
  · exact (idle slot member).settled

theorem wordCounts (serves : p.Serves requests) :
    p.slots.map Slot.wordCount = requests.map fun request => request.addresses.length := by
  have same := congrArg (List.map Slot.wordCount) serves.slots
  rw [List.map_map, List.map_map] at same
  exact same

theorem length_requested (serves : p.Serves requests) :
    (requests.flatMap Request.addresses).length = p.readCount := by
  rw [← serves.requested, Instruction.length_requested, readCount]

theorem counts (serves : p.Serves requests) :
    (p.slots.map Slot.wordCount).sum = p.readCount := by
  rw [serves.wordCounts, ← serves.length_requested, List.length_flatMap]

theorem beginRun (serves : p.Serves requests) : p.beginRun.Serves requests where
  requested := serves.requested
  slots := p.beginRun_reset.trans serves.slots
  together := by
    exact .inr fun slot member => .inl (p.empty_beginRun slot member)

theorem completed (serves : p.Serves requests) (response : Response) :
    Completed response p (p.completeRun response).1 (p.completeRun response).2 :=
  Program.completed response serves.counts serves.settled

end Serves

theorem Completed.serves {p q : Program} {requests : List Request} {response : Response}
    {outcome : Except ProgramError Unit} (completed : Completed response p outcome q)
    (serves : p.Serves requests) : q.Serves requests := by
  have shared := Slot.slot_offers 0 p.slots response.words
  cases completed with
  | miscounted count => exact serves
  | resolved count taken =>
    refine ⟨serves.requested, ?_, ?_⟩
    · have same : ((Slot.offers 0 p.slots response.words).map Offer.resolved).map Slot.reset =
          ((Slot.offers 0 p.slots response.words).map Offer.slot).map Slot.reset := by
        rw [List.map_map, List.map_map]
        rfl
      rw [shared, serves.slots] at same
      exact same
    · left
      intro slot member
      obtain ⟨offer, -, rfl⟩ := List.mem_map.1 member
      exact offer.isResolved_resolved
  | @refused before later offer e after count split taken refusal =>
    have slots : p.slots = before.map Offer.slot ++ offer.slot :: later.map Offer.slot := by
      rw [← shared, split]
      simp
    refine ⟨serves.requested, ?_, ?_⟩
    · rw [← serves.slots, slots]
      simp [refusal.reset]
    -- A refusal neither resolves a slot nor empties one.
    · rcases serves.together with resolved | idle
      · left
        rw [slots] at resolved
        simp only [List.forall_mem_append, List.forall_mem_cons] at resolved ⊢
        rw [refusal.isResolved]
        exact resolved
      · right
        rw [slots] at idle
        simp only [List.forall_mem_append, List.forall_mem_cons] at idle ⊢
        exact ⟨idle.1, refusal.idle idle.2.1, idle.2.2⟩

theorem Completed.unchanged_of_error {p q : Program} {response : Response}
    {outcome : Except ProgramError Unit} {e : ProgramError}
    (completed : Completed response p outcome q) (fails : outcome = .error e) :
    q.slots.map Slot.isResolved = p.slots.map Slot.isResolved ∧
      q.events = p.events ∧ q.runs = p.runs := by
  cases completed with
  | miscounted count => exact ⟨rfl, rfl, rfl⟩
  | resolved count taken => cases fails
  | @refused before later offer e after count split taken refusal =>
    refine ⟨?_, rfl, rfl⟩
    conv_rhs => rw [← Slot.slot_offers 0 p.slots response.words, split]
    simp only [List.map_append, List.map_cons, refusal.isResolved]

theorem Completed.replaced_of_ok {p q : Program} {response : Response}
    {outcome : Except ProgramError Unit} (completed : Completed response p outcome q)
    (completes : outcome = .ok ()) :
    (∀ slot ∈ q.slots, slot.isResolved) ∧ q.events = response.events ∧ q.runs = p.runs + 1 := by
  cases completed with
  | miscounted count => cases completes
  | refused count split taken refusal => cases completes
  | resolved count taken =>
    refine ⟨?_, rfl, rfl⟩
    intro slot member
    obtain ⟨offer, -, rfl⟩ := List.mem_map.1 member
    exact offer.isResolved_resolved

theorem Serves.step {p : Program} {requests : List Request} (serves : p.Serves requests)
    (step : RunStep) : (p.step step).Serves requests := by
  cases step with
  | begin => exact serves.beginRun
  | complete response => exact (serves.completed response).serves serves

theorem Serves.after {p : Program} {requests : List Request} (serves : p.Serves requests)
    (steps : List RunStep) : (p.after steps).Serves requests := by
  induction steps generalizing p with
  | nil => exact serves
  | cons step rest ih => exact ih (serves.step step)

-- Whatever happened to it, a recorded program serves the reads of its recording.
theorem serves_record (id : ProgramId) (calls : List Call) (steps : List RunStep) :
    ((ofBuilder id (Call.record calls {})).after steps).Serves (Call.issued calls {}) :=
  (serves_ofBuilder id (Call.keeps_record calls Builder.keeps_empty)).after steps

end Program

end Playback
