import Playback.Container.Timer
import Playback.Proofs.Program.Answers
import Playback.Proofs.Program.Shelves

/-! Runs that fail to complete, or that are completed more than once.

Nothing in a program says whether a run is open: its slots stand for that. As long as they are all
resolved no completion succeeds, and none that fails changes anything. A program without slots can
be completed any number of times.
-/

set_option autoImplicit false

namespace Playback

def RunStep.begins : RunStep → Bool
  | .begin => true
  | .complete _ => false

namespace Offer

theorem reset_stage (offer : Offer) :
    (offer.slot.stage offer.words offer.position).2.reset = offer.slot.reset := by
  rcases offer.stage_cases with ⟨taken, staged⟩ | ⟨e, after, refused, staged⟩
  · rw [staged]
    rfl
  · rw [staged]
    exact refused.reset

theorem isResolved_stage (offer : Offer) :
    (offer.slot.stage offer.words offer.position).2.isResolved = offer.slot.isResolved := by
  rcases offer.stage_cases with ⟨taken, staged⟩ | ⟨e, after, refused, staged⟩
  · simp [staged, held, Slot.isResolved, taken.empty]
  · rw [staged]
    exact refused.isResolved

theorem resolved_of_stage_ok (offer : Offer)
    (done : (offer.slot.stage offer.words offer.position).1 = .ok ()) :
    offer.slot.state = .empty ∧
      (offer.slot.stage offer.words offer.position).2.commit.isResolved := by
  rcases offer.stage_cases with ⟨taken, staged⟩ | ⟨e, after, refused, staged⟩
  · rw [staged, commit_held]
    exact ⟨taken.empty, offer.isResolved_resolved⟩
  · rw [staged] at done
    cases done

end Offer

namespace Slot

theorem isResolved_discard (slot : Slot) : slot.discard.isResolved = slot.isResolved := by
  unfold discard isResolved
  cases state : slot.state <;> simp [state]

theorem discard_reset (slot : Slot) : slot.discard.reset = slot.reset := by
  unfold discard
  cases slot.state <;> rfl

theorem commit_reset (slot : Slot) : slot.commit.reset = slot.reset := by
  unfold commit
  cases slot.state <;> rfl

end Slot

namespace Program

section Staging

variable {id : ProgramId} {total position : Nat} {slots : List Slot} {words : List ResponseWord}

theorem map_stageSlots {α : Type} {f : Slot → α}
    (kept : ∀ offer : Offer, f (offer.slot.stage offer.words offer.position).2 = f offer.slot) :
    (stageSlots id total position slots words).2.map f = slots.map f := by
  fun_induction stageSlots id total position slots words with
  | case1 => rfl
  | case2 => rfl
  | case3 position slot rest words enough e after staged =>
    have same := kept ⟨slot, words.take slot.wordCount, position⟩
    simp only [staged] at same
    simp only [List.map_cons, same]
  | case4 position slot rest words enough after staged outcome later recursion ih =>
    have same := kept ⟨slot, words.take slot.wordCount, position⟩
    simp only [staged] at same
    simp only [recursion] at ih
    simp only [List.map_cons, same, ih]

theorem resolved_of_stageSlots_ok
    (done : (stageSlots id total position slots words).1 = .ok ()) :
    (∀ slot ∈ slots, slot.state = .empty) ∧
      ∀ slot ∈ (stageSlots id total position slots words).2, slot.commit.isResolved := by
  fun_induction stageSlots id total position slots words with
  | case1 => simp
  | case2 => cases done
  | case3 => cases done
  | case4 position slot rest words enough after staged outcome later recursion ih =>
    simp only [recursion] at ih
    let offer : Offer := ⟨slot, words.take slot.wordCount, position⟩
    have first := offer.resolved_of_stage_ok (congrArg Prod.fst staged)
    simp only [offer, staged] at first
    exact ⟨List.forall_mem_cons.2 ⟨first.1, (ih done).1⟩,
      List.forall_mem_cons.2 ⟨first.2, (ih done).2⟩⟩

end Staging

/-- How a completion ends: at the count, with a slot that refuses, or with all slots staged. -/
inductive Ended (response : Response) (p : Program) :
    Except ProgramError Unit → Program → Prop where
  | miscounted (count : response.words.length ≠ p.readCount) :
    Ended response p (.error (.responseCount p.id p.readCount response.words.length)) p
  | refused {e : ProgramError} {slots : List Slot} (count : response.words.length = p.readCount)
      (staged : stageSlots p.id response.words.length 0 p.slots response.words =
        (.error e, slots)) :
    Ended response p (.error e) { p with slots := slots.map Slot.discard }
  | resolved {slots : List Slot} (count : response.words.length = p.readCount)
      (staged : stageSlots p.id response.words.length 0 p.slots response.words = (.ok (), slots)) :
    Ended response p (.ok ())
      { p with slots := slots.map Slot.commit, runs := p.runs + 1, events := response.events }

theorem ended (response : Response) (p : Program) :
    Ended response p (p.completeRun response).1 (p.completeRun response).2 := by
  unfold completeRun
  dsimp only
  by_cases count : response.words.length = p.readCount
  · rw [if_neg (not_not.2 count)]
    cases staged : stageSlots p.id response.words.length 0 p.slots response.words with
    | mk outcome slots =>
      cases outcome with
      | error e => exact .refused count staged
      | ok done => exact .resolved count staged
  · rw [if_pos count]
    exact .miscounted count

variable {p : Program} {response : Response}

theorem completeRun_reset (p : Program) (response : Response) :
    (p.completeRun response).2.slots.map Slot.reset = p.slots.map Slot.reset := by
  have kept : (stageSlots p.id response.words.length 0 p.slots response.words).2.map Slot.reset =
      p.slots.map Slot.reset := map_stageSlots Offer.reset_stage
  have ends := p.ended response
  generalize (p.completeRun response).1 = outcome at ends
  generalize (p.completeRun response).2 = q at ends ⊢
  cases ends with
  | miscounted count => rfl
  | refused count staged =>
    rw [staged] at kept
    simpa [Function.comp_def, Slot.discard_reset] using kept
  | resolved count staged =>
    rw [staged] at kept
    simpa [Function.comp_def, Slot.commit_reset] using kept

theorem completeRun_error {e : ProgramError} (fails : (p.completeRun response).1 = .error e) :
    (p.completeRun response).2.slots.map Slot.isResolved = p.slots.map Slot.isResolved ∧
      (p.completeRun response).2.events = p.events ∧ (p.completeRun response).2.runs = p.runs := by
  have kept : (stageSlots p.id response.words.length 0 p.slots response.words).2.map
      Slot.isResolved = p.slots.map Slot.isResolved := map_stageSlots Offer.isResolved_stage
  have ends := p.ended response
  rw [fails] at ends
  generalize (p.completeRun response).2 = q at ends ⊢
  cases ends with
  | miscounted count => exact ⟨rfl, rfl, rfl⟩
  | refused count staged =>
    rw [staged] at kept
    refine ⟨?_, rfl, rfl⟩
    simpa [Function.comp_def, Slot.isResolved_discard] using kept

theorem completeRun_ok (done : (p.completeRun response).1 = .ok ()) :
    (∀ slot ∈ p.slots, slot.state = .empty) ∧
      (∀ slot ∈ (p.completeRun response).2.slots, slot.isResolved) ∧
      (p.completeRun response).2.events = response.events ∧
      (p.completeRun response).2.runs = p.runs + 1 := by
  have ends := p.ended response
  rw [done] at ends
  generalize (p.completeRun response).2 = q at ends ⊢
  cases ends with
  | resolved count staged =>
    obtain ⟨empty, resolved⟩ := resolved_of_stageSlots_ok (congrArg Prod.fst staged)
    rw [staged] at resolved
    refine ⟨empty, fun slot member => ?_, rfl, rfl⟩
    obtain ⟨held, earlier, rfl⟩ := List.mem_map.1 member
    exact resolved held earlier

theorem count_of_completeRun_ok (done : (p.completeRun response).1 = .ok ()) :
    response.words.length = p.readCount := by
  have ends := p.ended response
  rw [done] at ends
  generalize (p.completeRun response).2 = q at ends
  cases ends with
  | resolved count staged => exact count

theorem completeRun_of_no_slots (none : p.slots = [])
    (count : response.words.length = p.readCount) : (p.completeRun response).1 = .ok () := by
  unfold completeRun
  dsimp only
  rw [if_neg (not_not.2 count), none]
  rfl

theorem completeRun_of_resolved (resolved : ∀ slot ∈ p.slots, slot.isResolved)
    (tickets : p.slots ≠ []) (response : Response) :
    ∃ e, p.completeRun response = (.error e, p) ∧ ∀ cause, e ≠ .slot (.decode cause) := by
  have kept : p.slots.map Slot.discard = p.slots := by
    conv_rhs => rw [← List.map_id p.slots]
    exact List.map_congr_left fun slot member =>
      (Slot.settled_of_resolved (resolved slot member)).discard
  unfold completeRun
  dsimp only
  by_cases count : response.words.length = p.readCount
  · rw [if_neg (not_not.2 count)]
    obtain ⟨first, rest, apart⟩ := List.exists_cons_of_ne_nil tickets
    obtain ⟨words, time, state⟩ :=
      Slot.isResolved_iff.1 (resolved first (apart ▸ List.mem_cons_self))
    -- The first slot already ends it.
    have refused : ∃ e, stageSlots p.id response.words.length 0 p.slots response.words =
        (.error e, p.slots) ∧ ∀ cause, e ≠ .slot (.decode cause) := by
      rw [apart]
      unfold stageSlots
      split
      · exact ⟨_, rfl, by simp⟩
      · simp only [Slot.stage, state]
        exact ⟨_, rfl, by simp⟩
    obtain ⟨e, ends, cause⟩ := refused
    refine ⟨e, ?_, cause⟩
    rw [ends]
    simp only [kept]
  · rw [if_pos count]
    exact ⟨_, rfl, by simp⟩

/-! ### Validity after a failure -/

/-- Whether a run was completed in these steps and none was begun since. -/
def Answered (p : Program) (steps : List RunStep) : Prop :=
  ∃ before response later, steps = before ++ .complete response :: later ∧
    (∀ step ∈ later, step ≠ .begin) ∧ ((p.after before).completeRun response).1 = .ok ()

theorem after_append (p : Program) (before later : List RunStep) :
    p.after (before ++ later) = (p.after before).after later :=
  List.foldl_append

theorem after_concat (p : Program) (steps : List RunStep) (step : RunStep) :
    p.after (steps ++ [step]) = (p.after steps).step step :=
  p.after_append steps [step]

theorem not_answered_nil (p : Program) : ¬ p.Answered [] := by
  rintro ⟨before, response, later, split, -⟩
  simp at split

theorem split_last {steps before later : List RunStep} {last middle : RunStep}
    (split : steps ++ [last] = before ++ middle :: later) :
    (later = [] ∧ steps = before ∧ last = middle) ∨
      ∃ front, later = front ++ [last] ∧ steps = before ++ middle :: front := by
  rcases List.eq_nil_or_concat' later with rfl | ⟨front, other, rfl⟩
  · obtain ⟨same, ends⟩ := List.append_inj' split rfl
    exact .inl ⟨rfl, same, (List.cons.inj ends).1⟩
  · rw [← List.cons_append, ← List.append_assoc] at split
    obtain ⟨same, ends⟩ := List.append_inj' split rfl
    exact .inr ⟨front, by rw [(List.cons.inj ends).1], same⟩

theorem not_answered_begin (p : Program) (steps : List RunStep) :
    ¬ p.Answered (steps ++ [.begin]) := by
  rintro ⟨before, response, later, split, unbegun, -⟩
  rcases split_last split with ⟨-, -, same⟩ | ⟨front, rfl, -⟩
  · cases same
  · exact unbegun .begin (by simp) rfl

theorem answered_complete_iff (p : Program) (steps : List RunStep) (response : Response) :
    p.Answered (steps ++ [.complete response]) ↔
      ((p.after steps).completeRun response).1 = .ok () ∨ p.Answered steps := by
  constructor
  · rintro ⟨before, other, later, split, unbegun, done⟩
    rcases split_last split with ⟨-, rfl, same⟩ | ⟨front, rfl, rfl⟩
    · cases same
      exact .inl done
    · exact .inr ⟨before, other, front, rfl, fun step member => unbegun step (by simp [member]),
        done⟩
  · rintro (done | ⟨before, other, later, rfl, unbegun, done⟩)
    · exact ⟨steps, response, [], rfl, by simp, done⟩
    · refine ⟨before, other, later ++ [.complete response], by simp, fun step member => ?_, done⟩
      rcases List.mem_append.1 member with earlier | last
      · exact unbegun step earlier
      · rw [List.mem_singleton.1 last]
        simp

theorem after_reset (p : Program) (steps : List RunStep) :
    (p.after steps).slots.map Slot.reset = p.slots.map Slot.reset := by
  induction steps using List.reverseRecOn with
  | nil => rfl
  | append_singleton steps step ih =>
    rw [after_concat, ← ih]
    cases step with
    | begin => exact beginRun_reset _
    | complete response => exact completeRun_reset _ response

theorem after_kept (p : Program) (steps : List RunStep) :
    (p.after steps).id = p.id ∧ (p.after steps).instructions = p.instructions := by
  induction steps generalizing p with
  | nil => exact ⟨rfl, rfl⟩
  | cons step rest ih =>
    obtain ⟨id, instructions⟩ := ih (p.step step)
    cases step with
    | begin => exact ⟨id, instructions⟩
    | complete response =>
      obtain ⟨same, stream⟩ := p.completeRun_kept response
      exact ⟨id.trans same, instructions.trans stream⟩

theorem slots_after_eq_nil_iff (p : Program) (steps : List RunStep) :
    (p.after steps).slots = [] ↔ p.slots = [] := by
  have size := congrArg List.length (p.after_reset steps)
  simp only [List.length_map] at size
  rw [← List.length_eq_zero_iff, size, List.length_eq_zero_iff]

theorem completeRun_again_iff {response : Response} (done : (p.completeRun response).1 = .ok ()) :
    ((p.completeRun response).2.completeRun response).1 = .ok () ↔ p.slots = [] := by
  have bare : (p.completeRun response).2.slots = [] ↔ p.slots = [] :=
    p.slots_after_eq_nil_iff [.complete response]
  constructor
  · intro again
    by_contra tickets
    obtain ⟨e, taken, -⟩ :=
      completeRun_of_resolved (completeRun_ok done).2.1 (mt bare.1 tickets) response
    rw [taken] at again
    cases again
  · intro none
    apply completeRun_of_no_slots (bare.2 none)
    simp only [readCount, (p.completeRun_kept response).2]
    exact count_of_completeRun_ok done

-- What the slots hold says whether a run was completed since the last one began.
theorem isResolved_after (p : Program) (fresh : ∀ slot ∈ p.slots, slot.isResolved = false)
    (steps : List RunStep) :
    ∀ slot ∈ (p.after steps).slots, (slot.isResolved ↔ p.Answered steps) := by
  induction steps using List.reverseRecOn with
  | nil =>
    intro slot member
    simp [fresh slot member, p.not_answered_nil]
  | append_singleton steps step ih =>
    rw [after_concat]
    intro slot member
    cases step with
    | begin =>
      simp only [Program.step, Program.beginRun, List.mem_map] at member
      obtain ⟨earlier, -, rfl⟩ := member
      simp [earlier.idle_reset.not_resolved, p.not_answered_begin steps]
    | complete response =>
      rw [answered_complete_iff]
      cases outcome : ((p.after steps).completeRun response).1 with
      | ok done =>
        simp [(completeRun_ok outcome).2.1 slot member]
      | error e =>
        have same := (completeRun_error outcome).1
        have known : slot.isResolved ∈ (p.after steps).slots.map Slot.isResolved :=
          same ▸ List.mem_map_of_mem member
        obtain ⟨earlier, there, kept⟩ := List.mem_map.1 known
        rw [← kept, ih earlier there]
        simp

theorem fresh_record (id : ProgramId) (calls : List Call) :
    ∀ slot ∈ (ofBuilder id (Call.record calls {})).slots, slot.isResolved = false := by
  intro slot member
  have keeps := Call.keeps_record calls Builder.keeps_empty
  simp only [ofBuilder, keeps.slots, List.mem_map] at member
  obtain ⟨request, -, rfl⟩ := member
  rfl

section Answers

variable {p : Program} {steps : List RunStep}

theorem isResolved_after_failure (fresh : ∀ slot ∈ p.slots, slot.isResolved = false)
    {response : Response} {e : ProgramError}
    (fails : ((p.after steps).completeRun response).1 = .error e) :
    ∀ slot ∈ ((p.after steps).completeRun response).2.slots,
      (slot.isResolved ↔ p.Answered steps) := by
  have resolved := p.isResolved_after fresh (steps ++ [.complete response])
  -- The completion that failed is no answer.
  rw [after_concat, answered_complete_iff, fails] at resolved
  simpa [Program.step] using resolved

theorem resolved_of_answered (tickets : p.slots ≠ []) (answered : p.Answered steps) :
    ∀ slot ∈ (p.after steps).slots, slot.isResolved := by
  obtain ⟨before, first, later, rfl, unbegun, done⟩ := answered
  have some : (p.after (before ++ [.complete first])).slots ≠ [] :=
    mt (p.slots_after_eq_nil_iff _).1 tickets
  have resolved : ∀ slot ∈ (p.after (before ++ [.complete first])).slots, slot.isResolved := by
    rw [after_concat]
    exact (completeRun_ok done).2.1
  rw [List.append_cons, after_append]
  generalize p.after (before ++ [.complete first]) = q at some resolved
  -- No completion that comes later changes anything.
  have still : q.after later = q := by
    induction later with
    | nil => rfl
    | cons step rest ih =>
      cases step with
      | begin => exact absurd rfl (unbegun .begin List.mem_cons_self)
      | complete response =>
        obtain ⟨e, taken, -⟩ := completeRun_of_resolved resolved some response
        have same : q.step (.complete response) = q := congrArg Prod.snd taken
        change (q.step (.complete response)).after rest = q
        rw [same]
        exact ih fun step member => unbegun step (List.mem_cons_of_mem _ member)
  rw [still]
  exact resolved

theorem completeRun_of_answered (tickets : p.slots ≠ []) (answered : p.Answered steps)
    (response : Response) :
    ∃ e, (p.after steps).completeRun response = (.error e, p.after steps) ∧
      ∀ cause, e ≠ .slot (.decode cause) :=
  completeRun_of_resolved (resolved_of_answered tickets answered)
    (mt (p.slots_after_eq_nil_iff steps).1 tickets) response

end Answers

-- After a failed completion the tickets are valid that were valid before it: those of a run that
-- was completed and not followed by another begin.
theorem validity_after_failure (id : ProgramId) (calls : List Call) (steps : List RunStep)
    (response : Response) {e : ProgramError}
    (fails : (((ofBuilder id (Call.record calls {})).after steps).completeRun response).1 =
      .error e) :
    let requests := Call.issued calls {}
    let p := ofBuilder id (Call.record calls {})
    let q := ((p.after steps).completeRun response).2
    ((∀ slot ∈ q.slots, slot.isResolved = false) ↔ p.slots = [] ∨ ¬ p.Answered steps) ∧
    (∀ (i : Nat) (request : Request), requests[i]? = some request →
      ∃ slot, q.slots[i]? = some slot ∧
        ∀ (_ : Coordinate request.C) (shelf : Shelf), shelf.slot? request.ticket = some slot →
          (request.handle.isValid shelf ↔ p.Answered steps)) ∧
    ((∃ cause, e = .slot (.decode cause)) → ∀ slot ∈ q.slots, slot.isResolved = false) ∧
    (p.slots ≠ [] → p.Answered steps → q = p.after steps) := by
  intro requests p q
  have fresh := fresh_record id calls
  have valid : ∀ slot ∈ q.slots, (slot.isResolved ↔ p.Answered steps) :=
    isResolved_after_failure fresh fails
  have ends : q = p.after (steps ++ [.complete response]) := by
    rw [after_concat]
    rfl
  have bare : q.slots = [] ↔ p.slots = [] := by rw [ends, slots_after_eq_nil_iff]
  have invalid : p.slots = [] ∨ ¬ p.Answered steps → ∀ slot ∈ q.slots, slot.isResolved = false := by
    rintro (none | unanswered) slot member
    · rw [bare.2 none] at member
      cases member
    · rw [← Bool.not_eq_true, valid slot member]
      exact unanswered
  refine ⟨⟨fun unresolved => ?_, invalid⟩, fun i request place => ?_, ?_, ?_⟩
  · by_contra others
    obtain ⟨tickets, answered⟩ := not_or.1 others
    obtain ⟨first, member⟩ := List.exists_mem_of_ne_nil q.slots (mt bare.1 tickets)
    have resolved := (valid first member).2 (not_not.1 answered)
    rw [unresolved first member] at resolved
    cases resolved
  · have serves : q.Serves requests := by
      rw [ends]
      exact (serves_ofBuilder id (Call.keeps_record calls Builder.keeps_empty)).after _
    obtain ⟨offer, -, slotAt, -⟩ := serves.offer_of_request [] place
    refine ⟨offer.slot, slotAt, fun _ shelf own => ?_⟩
    rw [Request.isValid_handle own]
    exact valid offer.slot (List.mem_of_getElem? slotAt)
  · rintro ⟨cause, rfl⟩
    apply invalid
    by_contra others
    obtain ⟨tickets, answered⟩ := not_or.1 others
    obtain ⟨e, taken, other⟩ := completeRun_of_answered tickets (not_not.1 answered) response
    rw [taken] at fails
    exact other cause (Except.error.inj fails)
  · intro tickets answered
    obtain ⟨e, taken, -⟩ := completeRun_of_answered tickets answered response
    exact congrArg Prod.snd taken

def timerRead : List Call :=
  [.read Timer.node (.first Nat.zero_lt_two) none 0]

def fiveRead : Response where
  words := [⟨.omnibus 5, none⟩]

theorem timerRead_after_failure :
    let p := ofBuilder 1 (Call.record timerRead {})
    let steps := [.begin, .complete fiveRead]
    ((p.after steps).completeRun {}).1 = .error (.responseCount 1 1 0) ∧
      ¬ ∀ slot ∈ ((p.after steps).completeRun {}).2.slots, slot.isResolved = false := by
  intro p steps
  have fails : ((p.after steps).completeRun {}).1 = .error (.responseCount 1 1 0) := rfl
  have answered : p.Answered steps := ⟨[.begin], fiveRead, [], rfl, by simp, rfl⟩
  refine ⟨fails, fun invalid => ?_⟩
  rcases (validity_after_failure 1 timerRead steps {} fails).1.1 invalid with none | unanswered
  · cases none
  · exact unanswered answered

-- A response with too few words leaves the ticket of the run before valid.
theorem not_invalid_after_failure : ¬ ∀ (id : ProgramId) (calls : List Call)
    (steps : List RunStep) (response : Response) (e : ProgramError),
    (((ofBuilder id (Call.record calls {})).after steps).completeRun response).1 = .error e →
      ∀ slot ∈ (((ofBuilder id (Call.record calls {})).after steps).completeRun response).2.slots,
        slot.isResolved = false := by
  intro always
  have invalid := always 1 timerRead [.begin, .complete fiveRead] {} (.responseCount 1 1 0) rfl
  have resolved := invalid _ List.mem_cons_self
  cases resolved

/-! ### The number of completions -/

def ceiling (p : Program) : Nat :=
  if ∀ slot ∈ p.slots, slot.isResolved then p.runs else p.runs + 1

theorem runs_le_ceiling (p : Program) : p.runs ≤ p.ceiling := by
  unfold ceiling
  split <;> omega

theorem ceiling_le (p : Program) : p.ceiling ≤ p.runs + 1 := by
  unfold ceiling
  split <;> omega

theorem ceiling_beginRun (p : Program) : p.beginRun.ceiling ≤ p.ceiling + 1 := by
  have begun : p.beginRun.ceiling ≤ p.runs + 1 := p.beginRun.ceiling_le
  have := p.runs_le_ceiling
  omega

theorem ceiling_completeRun (tickets : p.slots ≠ []) (response : Response) :
    (p.completeRun response).2.ceiling = p.ceiling := by
  cases outcome : (p.completeRun response).1 with
  | error e =>
    obtain ⟨valid, -, runs⟩ := completeRun_error outcome
    have same : (∀ slot ∈ (p.completeRun response).2.slots, slot.isResolved) ↔
        ∀ slot ∈ p.slots, slot.isResolved := by
      rw [← List.forall_mem_map (P := fun valid => valid = true), valid, List.forall_mem_map]
    simp only [ceiling, same, runs]
  | ok done =>
    -- Every slot was empty, so the program had one run left to count.
    obtain ⟨empty, resolved, -, runs⟩ := completeRun_ok outcome
    obtain ⟨first, member⟩ := List.exists_mem_of_ne_nil p.slots tickets
    have unresolved : ¬ ∀ slot ∈ p.slots, slot.isResolved := by
      intro all
      have valid := all first member
      simp [Slot.isResolved, empty first member] at valid
    rw [ceiling, if_pos resolved, ceiling, if_neg unresolved, runs]

theorem ceiling_after (tickets : p.slots ≠ []) (steps : List RunStep) :
    (p.after steps).ceiling ≤ p.ceiling + steps.countP RunStep.begins := by
  induction steps using List.reverseRecOn with
  | nil => exact Nat.le_refl _
  | append_singleton steps step ih =>
    rw [after_concat, List.countP_append]
    cases step with
    | begin =>
      have := (p.after steps).ceiling_beginRun
      simp only [Program.step, List.countP_singleton, RunStep.begins, if_true]
      omega
    | complete response =>
      have some : (p.after steps).slots ≠ [] := mt (p.slots_after_eq_nil_iff steps).1 tickets
      have := ceiling_completeRun some response
      simp only [Program.step, List.countP_singleton, RunStep.begins]
      omega

theorem runs_after_append (tickets : p.slots ≠ []) (before later : List RunStep) :
    (p.after (before ++ later)).runs ≤
      (p.after before).runs + later.countP RunStep.begins + 1 := by
  have some : (p.after before).slots ≠ [] := mt (p.slots_after_eq_nil_iff before).1 tickets
  have grown := ceiling_after some later
  have low := (p.after (before ++ later)).runs_le_ceiling
  have high := (p.after before).ceiling_le
  rw [after_append] at low ⊢
  omega

/-- Enough begins for the runs that are counted, and for the one that may be open. -/
def Backed (p : Program) (begins : Nat) : Prop :=
  begins = 0 ∧ p.runs = 0 ∨ p.ceiling ≤ begins

namespace Backed

variable {begins : Nat}

theorem runs_le (backed : p.Backed begins) : p.runs ≤ begins := by
  have := p.runs_le_ceiling
  rcases backed with ⟨-, none⟩ | enough <;> omega

theorem beginRun (backed : p.Backed begins) : p.beginRun.Backed (begins + 1) := by
  right
  rcases backed with ⟨-, none⟩ | enough
  · have begun : p.beginRun.ceiling ≤ p.runs + 1 := p.beginRun.ceiling_le
    omega
  · have := p.ceiling_beginRun
    omega

theorem completeRun (backed : p.Backed begins) (tickets : p.slots ≠ [])
    (begun : (p.completeRun response).1 = .ok () → 0 < begins) :
    (p.completeRun response).2.Backed begins := by
  rcases backed with ⟨zero, none⟩ | enough
  · left
    cases outcome : (p.completeRun response).1 with
    | error e => exact ⟨zero, (completeRun_error outcome).2.2.trans none⟩
    | ok done =>
      have := begun outcome
      omega
  · right
    rw [ceiling_completeRun tickets]
    exact enough

end Backed

/-- A history in which the runs never outnumber the begins. -/
def WithinBegins (p : Program) (steps : List RunStep) : Prop :=
  ∀ before later, steps = before ++ later →
    (p.after before).runs ≤ before.countP RunStep.begins

theorem begins_pos_iff (steps : List RunStep) :
    0 < steps.countP RunStep.begins ↔ .begin ∈ steps := by
  rw [List.countP_pos_iff]
  constructor
  · rintro ⟨step, member, begins⟩
    cases step with
    | begin => exact member
    | complete response => cases begins
  · exact fun member => ⟨.begin, member, rfl⟩

theorem backed_after (tickets : p.slots ≠ []) (unrun : p.runs = 0) (steps : List RunStep)
    (begun : ∀ before response later, steps = before ++ .complete response :: later →
      ((p.after before).completeRun response).1 = .ok () → .begin ∈ before) :
    (p.after steps).Backed (steps.countP RunStep.begins) := by
  induction steps using List.reverseRecOn with
  | nil => exact .inl ⟨rfl, unrun⟩
  | append_singleton steps step ih =>
    have earlier := ih fun before response later split =>
      begun before response (later ++ [step]) (by simp [split])
    rw [after_concat, List.countP_append]
    cases step with
    | begin => exact earlier.beginRun
    | complete response =>
      apply earlier.completeRun (mt (p.slots_after_eq_nil_iff steps).1 tickets)
      exact fun done => (begins_pos_iff steps).2 (begun steps response [] rfl done)

-- The runs of a program with tickets outnumber the begins only after a completion without any.
theorem withinBegins_iff (tickets : p.slots ≠ []) (unrun : p.runs = 0) (steps : List RunStep) :
    p.WithinBegins steps ↔
      ∀ before response later, steps = before ++ .complete response :: later →
        ((p.after before).completeRun response).1 = .ok () → .begin ∈ before := by
  constructor
  · intro within before response later split done
    have counted := within (before ++ [.complete response]) later (by simp [split])
    rw [after_concat, List.countP_append] at counted
    have runs : ((p.after before).step (.complete response)).runs = (p.after before).runs + 1 :=
      (completeRun_ok done).2.2.2
    rw [← begins_pos_iff]
    simp only [List.countP_singleton, RunStep.begins, Bool.false_eq_true, if_false] at counted
    omega
  · intro begun before later split
    refine (backed_after tickets unrun before fun front response rest apart => ?_).runs_le
    exact begun front response (rest ++ later) (by simp [split, apart])

end Program

end Playback
