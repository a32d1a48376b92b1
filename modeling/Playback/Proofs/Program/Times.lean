import Playback.Proofs.Program.Answers
import Playback.Proofs.Program.Shelves

/-! When the reads of a program were answered.

A ticket shows the time of the first word of its read; a word without a time counts by its place.
The reads divide up a response without gaps, and none of them is empty. So their first words stand
in the order of the reads, and the times rise where those of the words do.
-/

set_option autoImplicit false

namespace Playback

/-- The time of a word of a response: its own, or else its place. -/
def Response.timeAt (words : List ResponseWord) (place : Nat) : FpgaTime :=
  (words[place]?.bind ResponseWord.fpgaTime).getD (UInt64.ofNat place)

namespace Request

def first (requests : List Request) (i : Nat) : Nat :=
  ((requests.take i).map fun request => request.addresses.length).sum

theorem first_succ {requests : List Request} {i : Nat} {request : Request}
    (place : requests[i]? = some request) :
    first requests (i + 1) = first requests i + request.addresses.length := by
  simp [first, List.take_add_one, place]

theorem first_add_le {requests : List Request} {i : Nat} {request : Request}
    (place : requests[i]? = some request) :
    first requests i + request.addresses.length ≤ (requests.flatMap addresses).length := by
  rw [← first_succ place, List.length_flatMap]
  conv_rhs => rw [← List.take_append_drop (i + 1) requests]
  simp only [first, List.map_append, List.sum_append]
  exact Nat.le_add_right _ _

variable {requests : List Request} (asks : ∀ request ∈ requests, 0 < request.addresses.length)

include asks

theorem first_lt {i j : Nat} (before : i < j) (within : j < requests.length) :
    first requests i < first requests j := by
  induction j with
  | zero => cases before
  | succ j ih =>
    have place : requests[j]? = some requests[j] := List.getElem?_eq_getElem (by omega)
    have some := asks requests[j] (List.getElem_mem _)
    rw [first_succ place]
    rcases Nat.lt_succ_iff_lt_or_eq.1 before with earlier | rfl
    · have := ih earlier (by omega)
      omega
    · omega

end Request

namespace Slot

theorem getElem?_offers (position : Nat) (slots : List Slot) (words : List ResponseWord) (i : Nat) :
    (offers position slots words)[i]? = slots[i]?.map fun slot =>
      let before := ((slots.take i).map Slot.wordCount).sum
      ⟨slot, (words.drop before).take slot.wordCount, position + before⟩ := by
  induction slots generalizing position words i with
  | nil => simp [offers]
  | cons slot rest ih =>
    cases i with
    | zero => simp [offers]
    | succ i =>
      simp [offers, ih, List.drop_drop, Nat.add_assoc]

end Slot

namespace Request

/-- The ticket of a read holds these words on a shelf, and shows this time. -/
def Holds (shelf : Shelf) (request : Request) (words : List Word) (time : FpgaTime) : Prop :=
  ∀ (_ : Coordinate request.C), request.handle.answer shelf = .ok (words, time) ∧
    request.handle.fpgaTime shelf = .ok time

/-- Two tickets, each on a shelf, show times, and that of the first is the smaller. -/
def Before (shelf : Shelf) (first : Request) (other : Shelf) (second : Request) : Prop :=
  ∃ earlier early later late, first.Holds shelf earlier early ∧ second.Holds other later late ∧
    early < late

def answering (requests : List Request) (words : List ResponseWord) (i : Nat) (request : Request) :
    List Word :=
  ((words.drop (first requests i)).take request.addresses.length).map ResponseWord.word

theorem pairwise_before {requests : List Request} {shelf : Shelf} {words : List ResponseWord}
    (holds : ∀ (i : Nat) (request : Request), requests[i]? = some request →
      request.Holds shelf (answering requests words i request)
        (Response.timeAt words (first requests i)))
    (rises : ∀ i j : Nat, i < j → j < requests.length →
      Response.timeAt words (first requests i) < Response.timeAt words (first requests j)) :
    requests.Pairwise fun earlier later => Before shelf earlier shelf later := by
  rw [List.pairwise_iff_getElem]
  intro i j small within before
  have early := holds i _ (List.getElem?_eq_getElem small)
  have late := holds j _ (List.getElem?_eq_getElem within)
  exact ⟨_, _, _, _, early, late, rises i j before within⟩

end Request

namespace Program.Serves

open Request

variable {p : Program} {requests : List Request} {response : Response}
  (serves : p.Serves requests) (asks : ∀ request ∈ requests, 0 < request.addresses.length)
  (completes : (p.completeRun response).1 = .ok ())

include serves asks completes

-- The place from which a slot is staged is the number of words before its own.
theorem state_of_ok {i : Nat} {request : Request} (place : requests[i]? = some request) :
    ∃ slot, (p.completeRun response).2.slots[i]? = some slot ∧ slot.reset = request.slot ∧
      slot.state = .resolved (answering requests response.words i request)
        (Response.timeAt response.words (first requests i)) := by
  have completed := serves.completed response
  rw [completes] at completed
  generalize (p.completeRun response).2 = q at completed ⊢
  cases completed with
  | resolved count taken =>
    obtain ⟨offer, given, slotAt, own, -⟩ := serves.offer_of_request response.words place
    have width : offer.slot.wordCount = request.addresses.length := congrArg Slot.wordCount own
    have before : ((p.slots.take i).map Slot.wordCount).sum = first requests i := by
      rw [List.map_take, serves.wordCounts, ← List.map_take, first]
    have offered := given
    rw [Slot.getElem?_offers, slotAt, Option.map_some, Option.some.injEq] at offered
    dsimp only at offered
    rw [width, before, Nat.zero_add] at offered
    refine ⟨offer.resolved, by simp [given], own, ?_⟩
    have some := asks request (List.mem_of_getElem? place)
    have time : offer.time = Response.timeAt response.words (first requests i) := by
      rw [← offered, Offer.time, Response.timeAt, List.head?_take, if_neg (by omega),
        List.head?_drop]
    have words : offer.bare = answering requests response.words i request := by
      rw [← offered]
      rfl
    rw [Offer.resolved, time, words]

theorem holds_of_ok {after : Shelf} {id : ProgramId}
    (stored : after.get id = (p.completeRun response).2)
    (distinct : (after.slots.map Slot.ticket).Nodup) {i : Nat} {request : Request}
    (place : requests[i]? = some request) :
    request.Holds after (answering requests response.words i request)
      (Response.timeAt response.words (first requests i)) := by
  obtain ⟨slot, slotAt, own, state⟩ := serves.state_of_ok asks completes place
  have member : slot ∈ (after.get id).slots := by
    rw [stored]
    exact List.mem_of_getElem? slotAt
  have named : slot.ticket = request.ticket := congrArg Slot.ticket own
  have found : after.slot? request.ticket = some slot := named ▸ Shelf.slot?_of_get distinct member
  intro _
  have answer := Request.answer_handle found state
  exact ⟨answer, by rw [Ticket.fpgaTime, answer, Except.map]⟩

end Program.Serves

end Playback
