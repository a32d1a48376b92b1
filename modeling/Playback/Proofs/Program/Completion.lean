import Playback.Program.Basic
import Mathlib

/-! One completion of a run.

Every slot is offered its share of the response, in order; the first refusal ends it. If the slots
ask for as many words as the program requests and none is staged beforehand, a completion ends in
one of the three ways of `Completed`.
-/

set_option autoImplicit false

namespace Playback

structure Offer where
  slot : Slot
  words : List ResponseWord
  position : Nat

namespace Offer

def bare (offer : Offer) : List Word :=
  offer.words.map ResponseWord.word

def time (offer : Offer) : FpgaTime :=
  (offer.words.head?.bind ResponseWord.fpgaTime).getD (UInt64.ofNat offer.position)

def held (offer : Offer) : Slot :=
  { offer.slot with state := .staged offer.bare offer.time }

def resolved (offer : Offer) : Slot :=
  { offer.slot with state := .resolved offer.bare offer.time }

structure Taken (offer : Offer) : Prop where
  empty : offer.slot.state = .empty
  decodes : offer.slot.check offer.bare = .ok ()

inductive Refused (offer : Offer) : SlotError → Slot → Prop where
  | occupied (state : offer.slot.state ≠ .empty) :
    Refused offer (.alreadyResolved offer.slot.container) offer.slot
  | undecodable {e : DecodeError} (empty : offer.slot.state = .empty)
      (failed : offer.slot.check offer.bare = .error e) :
    Refused offer (.decode e) { offer.slot with state := .failed e }

theorem stage_cases (offer : Offer) :
    (offer.Taken ∧ offer.slot.stage offer.words offer.position = (.ok (), offer.held)) ∨
    ∃ e after, offer.Refused e after ∧
      offer.slot.stage offer.words offer.position = (.error e, after) := by
  unfold Slot.stage
  cases state : offer.slot.state with
  | empty =>
    cases check : offer.slot.check offer.bare with
    | error e =>
      right
      refine ⟨.decode e, _, .undecodable state check, ?_⟩
      simp only [bare] at check
      simp only [check]
    | ok done =>
      left
      refine ⟨⟨state, check⟩, ?_⟩
      simp only [bare] at check
      simp only [check, held, bare, time]
  | staged words time => exact .inr ⟨_, _, .occupied (by simp [state]), rfl⟩
  | resolved words time => exact .inr ⟨_, _, .occupied (by simp [state]), rfl⟩
  | failed e => exact .inr ⟨_, _, .occupied (by simp [state]), rfl⟩

theorem commit_held (offer : Offer) : offer.held.commit = offer.resolved := rfl

theorem Taken.discard_held {offer : Offer} (taken : offer.Taken) :
    offer.held.discard = offer.slot := by
  rw [held, Slot.discard, ← taken.empty]

end Offer

namespace Slot

def offers : Nat → List Slot → List ResponseWord → List Offer
  | _, [], _ => []
  | position, slot :: rest, words =>
    ⟨slot, words.take slot.wordCount, position⟩ ::
      offers (position + slot.wordCount) rest (words.drop slot.wordCount)

theorem slot_offers (position : Nat) (slots : List Slot) (words : List ResponseWord) :
    (offers position slots words).map Offer.slot = slots := by
  induction slots generalizing position words with
  | nil => rfl
  | cons slot rest ih => simp only [offers, List.map_cons, ih]

theorem words_offers (position : Nat) (slots : List Slot) (words : List ResponseWord) :
    (offers position slots words).map Offer.words =
      (slots.map Slot.wordCount).splitLengths words := by
  induction slots generalizing position words with
  | nil => rfl
  | cons slot rest ih => simp only [offers, List.map_cons, ih, List.splitLengths_cons]

def Settled (slot : Slot) : Prop :=
  ∀ words time, slot.state ≠ .staged words time

theorem Settled.discard {slot : Slot} (settled : slot.Settled) : slot.discard = slot := by
  unfold Slot.discard
  cases state : slot.state with
  | staged words time => exact absurd state (settled words time)
  | empty => rfl
  | resolved words time => rfl
  | failed e => rfl

end Slot

theorem Offer.Refused.settled {offer : Offer} {e : SlotError} {after : Slot}
    (refused : offer.Refused e after) (settled : offer.slot.Settled) : after.Settled := by
  cases refused with
  | occupied state => exact settled
  | undecodable empty failed =>
    intro words time
    simp

namespace Program

open Slot

theorem stageSlots_cases (id : ProgramId) (total position : Nat) (slots : List Slot)
    (words : List ResponseWord) (enough : (slots.map Slot.wordCount).sum ≤ words.length) :
    ((∀ offer ∈ offers position slots words, offer.Taken) ∧
      stageSlots id total position slots words =
        (.ok (), (offers position slots words).map Offer.held)) ∨
    ∃ before refused later e after,
      offers position slots words = before ++ refused :: later ∧
      (∀ offer ∈ before, offer.Taken) ∧ refused.Refused e after ∧
      stageSlots id total position slots words =
        (.error (.slot e), before.map Offer.held ++ after :: later.map Offer.slot) := by
  -- The first slot takes its share or ends it; the rest then meet the words behind that share.
  induction slots generalizing position words with
  | nil => exact .inl ⟨by simp [offers], rfl⟩
  | cons slot rest ih =>
    simp only [List.map_cons, List.sum_cons] at enough
    have front : ¬ words.length < slot.wordCount := by omega
    have back : (rest.map Slot.wordCount).sum ≤ (words.drop slot.wordCount).length := by
      rw [List.length_drop]
      omega
    unfold stageSlots offers
    rw [if_neg front]
    let first : Offer := ⟨slot, words.take slot.wordCount, position⟩
    rcases first.stage_cases with ⟨taken, staged⟩ | ⟨e, after, refused, staged⟩
    · rcases ih (position + slot.wordCount) (words.drop slot.wordCount) back with
        ⟨all, result⟩ | ⟨before, refused, later, e, after, shared, takenBefore, refusal, result⟩
      · left
        refine ⟨List.forall_mem_cons.2 ⟨taken, all⟩, ?_⟩
        simp only [first] at staged
        simp only [staged, result, List.map_cons]
      · right
        refine ⟨first :: before, refused, later, e, after, ?_,
          List.forall_mem_cons.2 ⟨taken, takenBefore⟩, refusal, ?_⟩
        · rw [shared, List.cons_append]
        · simp only [first] at staged
          simp only [staged, result, List.map_cons, List.cons_append, first]
    · right
      refine ⟨[], first, _, e, after, rfl, by simp, refused, ?_⟩
      simp only [first] at staged
      simp only [staged, slot_offers, List.map_nil, List.nil_append]

inductive Completed (response : Response) (p : Program) :
    Except ProgramError Unit → Program → Prop where
  | miscounted (count : response.words.length ≠ p.readCount) :
    Completed response p
      (.error (.responseCount p.id p.readCount response.words.length)) p
  | resolved (count : response.words.length = p.readCount)
      (taken : ∀ offer ∈ offers 0 p.slots response.words, offer.Taken) :
    Completed response p (.ok ())
      { p with
        slots := (offers 0 p.slots response.words).map Offer.resolved
        runs := p.runs + 1
        events := response.events }
  -- Only the slot that refused may have changed.
  | refused {before later : List Offer} {offer : Offer} {e : SlotError} {after : Slot}
      (count : response.words.length = p.readCount)
      (shared : offers 0 p.slots response.words = before ++ offer :: later)
      (taken : ∀ offer ∈ before, offer.Taken) (refusal : offer.Refused e after) :
    Completed response p (.error (.slot e))
      { p with slots := before.map Offer.slot ++ after :: later.map Offer.slot }

-- Discarding gives back the slots as they were before the staging, but for the one that refused.
theorem discard_staged {before : List Offer} {after : Slot} {later : List Slot}
    (taken : ∀ offer ∈ before, offer.Taken) (refused : after.Settled)
    (unreached : ∀ slot ∈ later, slot.Settled) :
    (before.map Offer.held ++ after :: later).map Slot.discard =
      before.map Offer.slot ++ after :: later := by
  have front : (before.map Offer.held).map Slot.discard = before.map Offer.slot := by
    rw [List.map_map]
    exact List.map_congr_left fun offer held => (taken offer held).discard_held
  have back : later.map Slot.discard = later := by
    conv_rhs => rw [← List.map_id later]
    exact List.map_congr_left fun slot later => (unreached slot later).discard
  rw [List.map_append, List.map_cons, front, refused.discard, back]

theorem completed (response : Response) {p : Program}
    (counts : (p.slots.map Slot.wordCount).sum = p.readCount)
    (settled : ∀ slot ∈ p.slots, slot.Settled) :
    Completed response p (p.completeRun response).1 (p.completeRun response).2 := by
  unfold completeRun
  dsimp only
  by_cases count : response.words.length = p.readCount
  · have enough : (p.slots.map Slot.wordCount).sum ≤ response.words.length := by omega
    rw [if_neg (not_not.2 count)]
    rcases stageSlots_cases p.id response.words.length 0 p.slots response.words enough with
      ⟨all, result⟩ | ⟨before, offer, later, e, after, shared, taken, refusal, result⟩
    · simp only [result, List.map_map, Function.comp_def, Offer.commit_held]
      exact .resolved count all
    · have slots : p.slots = before.map Offer.slot ++ offer.slot :: later.map Offer.slot := by
        rw [← slot_offers 0 p.slots response.words, shared]
        simp
      have cleared : (before.map Offer.held ++ after :: later.map Offer.slot).map Slot.discard =
          before.map Offer.slot ++ after :: later.map Offer.slot := by
        apply discard_staged taken
        · exact refusal.settled (settled offer.slot (by simp [slots]))
        · intro slot member
          exact settled slot (by simp [slots, member])
      simp only [result, cleared]
      exact .refused count shared taken refusal
  · rw [if_pos count]
    exact .miscounted count

end Program

end Playback
