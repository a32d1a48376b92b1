import Playback.Proofs.Program.Runs

/-! What the tickets of a recorded program get from a run.

A ticket gets the words of the read requests that its own read added, or no ticket gets anything.
-/

set_option autoImplicit false

namespace Playback

theorem Ticket.isValid_of_slot? {C V : Type} [Coordinate C] {ticket : Ticket C V} {shelf : Shelf}
    {slot : Slot} (own : shelf.slot? ticket.id = some slot) :
    ticket.isValid shelf = slot.isResolved := by
  simp [isValid, own]

namespace Request

def handle (request : Request) : Ticket request.C request.V where
  id := request.ticket
  node := request.node
  coordinate := request.coord
  backend := request.explicit

theorem isValid_handle {request : Request} [Coordinate request.C] {shelf : Shelf} {slot : Slot}
    (own : shelf.slot? request.ticket = some slot) :
    request.handle.isValid shelf = slot.isResolved :=
  Ticket.isValid_of_slot? own

theorem answer_handle {request : Request} [Coordinate request.C] {shelf : Shelf} {slot : Slot}
    {words : List Word} {time : FpgaTime} (own : shelf.slot? request.ticket = some slot)
    (state : slot.state = .resolved words time) :
    request.handle.answer shelf = .ok (words, time) := by
  simp [Ticket.answer, handle, own, state]

theorem get_handle {request : Request} [Coordinate request.C] {shelf : Shelf} {slot : Slot}
    {words : List Word} {time : FpgaTime} {value : request.V}
    (own : shelf.slot? request.ticket = some slot) (state : slot.state = .resolved words time)
    (decodes : request.node.readWords request.coord request.explicit words = .ok value) :
    request.handle.get shelf = .ok value := by
  unfold Ticket.get
  rw [answer_handle own state]
  simp only [bind, Except.bind, handle, decodes]
  rfl

def HeldBy (request : Request) (share : List ResponseWord) (slot : Slot) : Prop :=
  slot.reset = request.slot ∧ ∃ time, slot.state = .resolved (share.map ResponseWord.word) time

/-- Why the slot of the read does not take these words. -/
inductive RefusedBy (request : Request) (share : List ResponseWord) (slot : Slot) :
    ProgramError → Prop where
  | occupied (state : slot.state ≠ .empty) :
    RefusedBy request share slot (.slot (.alreadyResolved request.node.name))
  | undecodable {cause : DecodeError} (empty : slot.state = .empty)
      (failed : request.node.readWords request.coord request.explicit
        (share.map ResponseWord.word) = .error cause) :
    RefusedBy request share slot (.slot (.decode cause))

theorem check_of_own {request : Request} {slot : Slot} (own : slot.reset = request.slot)
    (words : List Word) :
    slot.check words =
      (request.node.readWords request.coord request.explicit words).map fun _ => () := by
  have check : slot.reset.check = request.slot.check := by rw [own]
  exact congrFun check words

theorem check_eq_ok_iff {request : Request} {slot : Slot} (own : slot.reset = request.slot)
    {words : List Word} :
    slot.check words = .ok () ↔
      ∃ value, request.node.readWords request.coord request.explicit words = .ok value := by
  rw [check_of_own own]
  cases request.node.readWords request.coord request.explicit words <;> simp [Except.map]

theorem check_eq_error_iff {request : Request} {slot : Slot} (own : slot.reset = request.slot)
    {words : List Word} {e : DecodeError} :
    slot.check words = .error e ↔
      request.node.readWords request.coord request.explicit words = .error e := by
  rw [check_of_own own]
  cases request.node.readWords request.coord request.explicit words <;> simp [Except.map]

end Request

namespace Program.Serves

open Slot

variable {p : Program} {requests : List Request}

theorem words_offers (serves : p.Serves requests) (words : List ResponseWord) :
    (offers 0 p.slots words).map Offer.words = Request.shares requests words := by
  rw [Slot.words_offers, serves.wordCounts, Request.shares]

theorem length_offers (serves : p.Serves requests) (words : List ResponseWord) :
    (offers 0 p.slots words).length = requests.length := by
  have same := congrArg List.length (serves.words_offers words)
  simpa [Request.length_shares] using same

theorem request_of_offer (serves : p.Serves requests) {words : List ResponseWord} {i : Nat}
    {offer : Offer} (given : (offers 0 p.slots words)[i]? = some offer) :
    ∃ request, requests[i]? = some request ∧ p.slots[i]? = some offer.slot ∧
      offer.slot.reset = request.slot ∧
      (Request.shares requests words)[i]? = some offer.words := by
  have slotAt : p.slots[i]? = some offer.slot := by
    rw [← slot_offers 0 p.slots words]
    simp [given]
  have share : (Request.shares requests words)[i]? = some offer.words := by
    rw [← serves.words_offers words]
    simp [given]
  have same : (requests.map Request.slot)[i]? = some offer.slot.reset := by
    rw [← serves.slots]
    simp [slotAt]
  rw [List.getElem?_map, Option.map_eq_some_iff] at same
  obtain ⟨request, place, own⟩ := same
  exact ⟨request, place, slotAt, own.symm, share⟩

theorem offer_of_request (serves : p.Serves requests) (words : List ResponseWord) {i : Nat}
    {request : Request} (place : requests[i]? = some request) :
    ∃ offer, (offers 0 p.slots words)[i]? = some offer ∧ p.slots[i]? = some offer.slot ∧
      offer.slot.reset = request.slot ∧
      (Request.shares requests words)[i]? = some offer.words := by
  have bound : i < (offers 0 p.slots words).length := by
    rw [serves.length_offers words]
    exact (List.getElem?_eq_some_iff.1 place).1
  have given := List.getElem?_eq_getElem bound
  obtain ⟨other, otherPlace, rest⟩ := serves.request_of_offer given
  rw [place, Option.some.injEq] at otherPlace
  subst otherPlace
  exact ⟨_, given, rest⟩

theorem held_of_ok (serves : p.Serves requests) {response : Response}
    (completes : (p.completeRun response).1 = .ok ()) {i : Nat} {request : Request}
    (place : requests[i]? = some request) :
    ∃ slot share value, (p.completeRun response).2.slots[i]? = some slot ∧
      (Request.shares requests response.words)[i]? = some share ∧ request.HeldBy share slot ∧
      request.node.readWords request.coord request.explicit (share.map ResponseWord.word) =
        .ok value := by
  have completed := serves.completed response
  rw [completes] at completed
  generalize (p.completeRun response).2 = q at completed ⊢
  cases completed with
  | resolved count taken =>
    obtain ⟨offer, given, -, own, share⟩ := serves.offer_of_request response.words place
    have decodes := (taken offer (List.mem_of_getElem? given)).decodes
    obtain ⟨value, reads⟩ := (Request.check_eq_ok_iff own).1 decodes
    have resolved : request.HeldBy offer.words offer.resolved := ⟨own, offer.time, rfl⟩
    exact ⟨offer.resolved, offer.words, value, by simp [given], share, resolved, reads⟩

theorem refused_of_error (serves : p.Serves requests) {response : Response} {e : ProgramError}
    (count : response.words.length = p.readCount)
    (fails : (p.completeRun response).1 = .error e) :
    ∃ (i : Nat) (request : Request) (share : List ResponseWord) (slot : Slot),
      requests[i]? = some request ∧ (Request.shares requests response.words)[i]? = some share ∧
      p.slots[i]? = some slot ∧ request.RefusedBy share slot e := by
  have completed := serves.completed response
  rw [fails] at completed
  generalize (p.completeRun response).2 = q at completed
  cases completed with
  | miscounted other => exact absurd count other
  | @refused before later offer e after count split taken refusal =>
    have given : (offers 0 p.slots response.words)[before.length]? = some offer := by
      simp [split]
    obtain ⟨request, place, slotAt, own, share⟩ := serves.request_of_offer given
    refine ⟨before.length, request, offer.words, offer.slot, place, share, slotAt, ?_⟩
    cases refusal with
    | occupied state =>
      have name : offer.slot.reset.container = request.slot.container := by rw [own]
      rw [show offer.slot.container = request.node.name from name]
      exact .occupied state
    | @undecodable cause empty failed =>
      exact .undecodable empty ((Request.check_eq_error_iff own).1 failed)

end Program.Serves

namespace Program

open Slot

-- The slots of a recorded program ask for the words that its instructions request, in order, and a
-- response of that many words reaches every slot with the answers to its own requests.
theorem shares_answer_requests (id : ProgramId) (calls : List Call) (steps : List RunStep) :
    let requests := Call.issued calls {}
    let p := (ofBuilder id (Call.record calls {})).after steps
    Instruction.requested p.instructions = requests.flatMap Request.addresses ∧
    p.slots.map Slot.reset = requests.map Request.slot ∧
    (p.slots.map Slot.wordCount).sum = p.readCount ∧
    ∀ response : Response, response.words.length = p.readCount →
      let shares := Request.shares requests response.words
      (Instruction.requested p.instructions).zip response.words =
        ((requests.zip shares).flatMap fun (request, share) => request.addresses.zip share) ∧
      ((p.completeRun response).1 = .ok () →
        ∀ (i : Nat) (request : Request), requests[i]? = some request →
          ∃ slot share, (p.completeRun response).2.slots[i]? = some slot ∧
            shares[i]? = some share ∧ request.HeldBy share slot) ∧
      ∀ e, (p.completeRun response).1 = .error e →
        ∃ (i : Nat) (request : Request) (share : List ResponseWord) (slot : Slot),
          requests[i]? = some request ∧ shares[i]? = some share ∧ p.slots[i]? = some slot ∧
          request.RefusedBy share slot e := by
  intro requests p
  have serves : p.Serves requests :=
    (serves_ofBuilder id (Call.keeps_record calls Builder.keeps_empty)).after steps
  refine ⟨serves.requested, serves.slots, serves.counts, fun response count => ?_⟩
  refine ⟨?_, fun completes i request place => ?_, fun e fails => ?_⟩
  · rw [serves.requested]
    exact Request.zip_shares requests response.words (by rw [serves.length_requested, count])
  · obtain ⟨slot, share, -, slotAt, given, held, -⟩ := serves.held_of_ok completes place
    exact ⟨slot, share, slotAt, given, held⟩
  · exact serves.refused_of_error count fails

-- Completing a run leaves every ticket with a value or none, and after a failure nothing but the
-- reason that a ticket has none has changed.
theorem completeRun_all_or_none (id : ProgramId) (calls : List Call) (steps : List RunStep) :
    let requests := Call.issued calls {}
    let p := (ofBuilder id (Call.record calls {})).after steps
    (∀ slot ∈ p.slots, slot.Settled) ∧
    ((∀ slot ∈ p.slots, slot.isResolved) ∨ ∀ slot ∈ p.slots, slot.isResolved = false) ∧
    (∀ (i : Nat) (request : Request), requests[i]? = some request →
      ∃ slot, p.slots[i]? = some slot ∧
        ∀ (_ : Coordinate request.C) (shelf : Shelf), shelf.slot? request.ticket = some slot →
          request.handle.isValid shelf = slot.isResolved) ∧
    ∀ response : Response,
      let q := (p.completeRun response).2
      (∀ e, (p.completeRun response).1 = .error e →
        q.slots.map Slot.isResolved = p.slots.map Slot.isResolved ∧
        q.events = p.events ∧ q.runs = p.runs) ∧
      ((p.completeRun response).1 = .ok () →
        (∀ (i : Nat) (request : Request), requests[i]? = some request →
          ∃ slot share value, q.slots[i]? = some slot ∧
            (Request.shares requests response.words)[i]? = some share ∧
            request.HeldBy share slot ∧
            request.node.readWords request.coord request.explicit
              (share.map ResponseWord.word) = .ok value ∧
            ∀ (_ : Coordinate request.C) (shelf : Shelf),
              shelf.slot? request.ticket = some slot →
                request.handle.isValid shelf ∧ request.handle.get shelf = .ok value) ∧
        (∀ slot ∈ q.slots, slot.isResolved) ∧
        q.events = response.events ∧ q.runs = p.runs + 1) := by
  intro requests p
  have serves : p.Serves requests :=
    (serves_ofBuilder id (Call.keeps_record calls Builder.keeps_empty)).after steps
  refine ⟨serves.settled, serves.together.imp_right fun idle slot member => ?_,
    fun i request place => ?_, fun response => ⟨fun e fails => ?_, fun completes => ?_⟩⟩
  · exact (idle slot member).not_resolved
  · obtain ⟨offer, -, slotAt, -⟩ := serves.offer_of_request [] place
    exact ⟨offer.slot, slotAt, fun _ shelf own => Request.isValid_handle own⟩
  · exact (serves.completed response).unchanged_of_error fails
  · obtain ⟨resolved, events, runs⟩ := (serves.completed response).replaced_of_ok completes
    refine ⟨fun i request place => ?_, resolved, events, runs⟩
    obtain ⟨slot, share, value, slotAt, given, held, reads⟩ := serves.held_of_ok completes place
    refine ⟨slot, share, value, slotAt, given, held, reads, fun _ shelf own => ?_⟩
    obtain ⟨time, state⟩ := held.2
    rw [Request.isValid_handle own]
    exact ⟨Slot.isResolved_iff.2 ⟨_, _, state⟩, Request.get_handle own state reads⟩

end Program

end Playback
