import Playback.Program.Stimulus
import Playback.Proofs.Board.Packs
import Playback.Proofs.Recording.ReadBack

/-! The packs of spikes that a recording injects.

No pack is left unfinished at the end of an access, so the packs of a recording are those of its
accesses in order. The packs of an injection are the labels, cut by the pattern.
-/

set_option autoImplicit false

namespace Playback

open Board Labels

namespace Access

theorem packs_uses {access : Access} (allowed : access.Allowed) :
    empty.packs access.uses = access.written.filterMap LeafWrite.pack? ∧
      empty.left access.uses = empty := by
  cases access with
  | read kind regular coord explicit ticket => exact packs_of_quiet (quiet_loads _) empty
  | write kind regular coord value explicit =>
    have each := regular_written (List.forall_mem_singleton.2 allowed)
    rw [List.flatMap_singleton] at each
    rw [uses_eq_stores allowed]
    exact LeafWrite.packs_writes each

theorem packs_accesses {accesses : List Access} (allowed : ∀ access ∈ accesses, access.Allowed) :
    empty.packs (accesses.flatMap uses) =
        (accesses.flatMap written).filterMap LeafWrite.pack? ∧
      empty.left (accesses.flatMap uses) = empty := by
  induction accesses with
  | nil => exact ⟨rfl, rfl⟩
  | cons access rest ih =>
    obtain ⟨own, allowed⟩ := List.forall_mem_cons.1 allowed
    obtain ⟨packs, nothing⟩ := packs_uses own
    obtain ⟨others, none⟩ := ih allowed
    simp only [List.flatMap_cons, packs_append, left_append, List.filterMap_append, packs, nothing,
      others, none, and_self]

end Access

def ChipCall.injected (calls : List ChipCall) : List (List SpikeLabel) :=
  ((recorded calls {}).flatMap Access.written).filterMap LeafWrite.pack?

namespace Stimulus

theorem length_packs {pattern : List Nat} {place : Nat} {labels : List SpikeLabel} {i : Nat}
    {pack : List SpikeLabel} (here : (packs pattern place labels)[i]? = some pack) :
    0 < pack.length ∧ pack.length ≤ packSize pattern (place + i) ∧
      (i + 1 < (packs pattern place labels).length →
        pack.length = packSize pattern (place + i)) := by
  fun_induction packs pattern place labels generalizing i with
  | case1 => simp at here
  | case2 place label rest ih =>
    have size := packSize_pos pattern place
    cases i with
    | zero =>
      obtain rfl : (label :: rest).take (packSize pattern place) = pack := by simpa using here
      rw [List.length_take, List.length_cons]
      refine ⟨by omega, Nat.min_le_left _ _, fun more => ?_⟩
      -- Something is left for the next pack.
      have left : packSize pattern place < rest.length + 1 := by
        by_contra none
        rw [List.drop_eq_nil_of_le (by simpa using none), packs] at more
        simp at more
      exact Nat.min_eq_left (Nat.le_of_lt left)
    | succ i =>
      rw [List.getElem?_cons_succ] at here
      obtain ⟨positive, most, exactly⟩ := ih here
      rw [Nat.add_right_comm] at most exactly
      refine ⟨positive, most, fun more => exactly ?_⟩
      simpa using more

def spikeCall (label : SpikeLabel) (explicit : Option Backend) : ChipCall :=
  .access (.write (.leaf .spikePack1) rfl ⟨⟩ ⟨#v[label]⟩ explicit)

def packCalls : List SpikeLabel → List ChipCall
  | [] => []
  | [a] => [spikeCall a none]
  | [a, b] => [.access (.write (.leaf .spikePack2) rfl ⟨⟩ ⟨#v[a, b]⟩ none)]
  | a :: b :: c :: _ => [.access (.write (.leaf .spikePack3) rfl ⟨⟩ ⟨#v[a, b, c]⟩ none)]

theorem isRegular_timer : (NodeKind.leaf .timer).isRegular = true := rfl

def restart : Access :=
  .write (.leaf .timer) isRegular_timer (.first Nat.zero_lt_two) default none

def injection (labels : List SpikeLabel) (pattern : List Nat) : List ChipCall :=
  .access restart :: (packs pattern 0 labels).flatMap packCalls

theorem packSize_le (pattern : List Nat) (place : Nat) : packSize pattern place ≤ 3 :=
  Nat.min_le_left _ _

structure Injects (pack : List SpikeLabel) (access : Access) (part : Builder) : Prop where
  call : packCalls pack = [.access access]
  same : ∀ b, writePack pack b = access.call.perform b
  own : access.written.filterMap LeafWrite.pack? = [pack]
  alone : access.call.perform {} = .ok part
  length : part.instructions.length = pack.length
  unread : part.slots = []
  free : part.restriction = none
  unled : part.leadingWaits = .replicate 2 none

theorem exists_injects {pack : List SpikeLabel} (some : 0 < pack.length)
    (small : pack.length ≤ 3) : ∃ access part, Injects pack access part :=
  match pack with
  | [] => absurd some (Nat.lt_irrefl 0)
  | [_] => ⟨_, _, rfl, fun _ => rfl, rfl, rfl, rfl, rfl, rfl, rfl⟩
  | [_, _] => ⟨_, _, rfl, fun _ => rfl, rfl, rfl, rfl, rfl, rfl, rfl⟩
  | [_, _, _] => ⟨_, _, rfl, fun _ => rfl, rfl, rfl, rfl, rfl, rfl, rfl⟩
  | _ :: _ :: _ :: _ :: rest => absurd small (by simp)

theorem Injects.perform {pack : List SpikeLabel} {access : Access} {part b : Builder}
    (injects : Injects pack access part) (covered : b.Covered) :
    access.call.perform b = .ok (b.joined part) := by
  have fits : b.Fits part :=
    { forward := fun timer => by simp [Builder.Forward, injects.unled]
      agree := by simp [Builder.Agree, injects.free] }
  exact (Call.perform_iff_part access.call covered).2
    ⟨part, injects.alone, Builder.mergeBack_eq_ok_iff.2 ⟨fits, rfl⟩⟩

/-- Behind writes of packs, which a program does not see otherwise. -/
structure Injected (all : List (List SpikeLabel)) (b : Builder) : Prop where
  written : all.foldlM (fun b pack => writePack pack b) b =
    .ok (Call.record (ChipCall.history (all.flatMap packCalls)) b)
  own : ((ChipCall.recorded (all.flatMap packCalls) b).flatMap Access.written).filterMap
    LeafWrite.pack? = all
  length : (Call.record (ChipCall.history (all.flatMap packCalls)) b).instructions.length =
    b.instructions.length + all.flatten.length
  slots : (Call.record (ChipCall.history (all.flatMap packCalls)) b).slots = b.slots
  restriction :
    (Call.record (ChipCall.history (all.flatMap packCalls)) b).restriction = b.restriction

theorem injected_packs {all : List (List SpikeLabel)}
    (sized : ∀ pack ∈ all, 0 < pack.length ∧ pack.length ≤ 3) {b : Builder} (covered : b.Covered) :
    Injected all b := by
  induction all generalizing b with
  | nil => exact ⟨rfl, rfl, rfl, rfl, rfl⟩
  | cons pack rest ih =>
    obtain ⟨⟨some, small⟩, sized⟩ := List.forall_mem_cons.1 sized
    obtain ⟨access, part, injects⟩ := exists_injects some small
    have performed := injects.perform covered
    have others := ih sized (covered.joined (Call.covered_part access.call injects.alone))
    have history : ChipCall.history ((pack :: rest).flatMap packCalls) =
        access.call :: ChipCall.history (rest.flatMap packCalls) := by
      rw [List.flatMap_cons, injects.call]
      rfl
    have record : Call.record (ChipCall.history ((pack :: rest).flatMap packCalls)) b =
        Call.record (ChipCall.history (rest.flatMap packCalls)) (b.joined part) := by
      rw [history, Call.record, performed]
    constructor
    · rw [record, List.foldlM_cons, injects.same, performed]
      exact others.written
    · rw [List.flatMap_cons, injects.call, List.singleton_append, ChipCall.recorded, ChipCall.call,
        performed]
      dsimp only
      rw [List.flatMap_append, List.filterMap_append, others.own, ChipCall.accesses,
        List.flatMap_singleton, injects.own, List.singleton_append]
    · rw [record, others.length, Builder.joined, List.length_append, injects.length,
        List.flatten_cons, List.length_append, Nat.add_assoc]
    · rw [record, others.slots, Builder.joined, injects.unread, List.append_nil]
    · rw [record, others.restriction, Builder.joined, injects.free, Option.or_none]

/-- What an injection records: one instruction for the timer and one for each label. -/
structure Recorded (labels : List SpikeLabel) (pattern : List Nat) (b : Builder) : Prop where
  made : spikeInjection labels pattern = .ok b
  record : b = Call.record (ChipCall.history (injection labels pattern)) {}
  own : ChipCall.injected (injection labels pattern) = packs pattern 0 labels
  length : b.instructions.length = labels.length + 1
  slots : b.slots = []
  restriction : b.restriction = none

theorem exists_recorded (labels : List SpikeLabel) (pattern : List Nat) :
    ∃ b, Recorded labels pattern b := by
  have sized : ∀ pack ∈ packs pattern 0 labels, 0 < pack.length ∧ pack.length ≤ 3 := by
    intro pack member
    obtain ⟨i, here⟩ := List.mem_iff_getElem?.1 member
    obtain ⟨positive, most, -⟩ := length_packs here
    exact ⟨positive, most.trans (packSize_le _ _)⟩
  obtain ⟨timed, performed, length, slots, restriction, unled⟩ : ∃ timed : Builder,
      restart.call.perform {} = .ok timed ∧ timed.instructions.length = 1 ∧ timed.slots = [] ∧
        timed.restriction = none ∧ timed.leadingWaits = .replicate 2 none :=
    ⟨_, rfl, rfl, rfl, rfl, rfl⟩
  have injected := injected_packs sized (Builder.covered_of_none unled)
  have record : Call.record (ChipCall.history (injection labels pattern)) {} =
      Call.record (ChipCall.history ((packs pattern 0 labels).flatMap packCalls)) timed := by
    rw [injection, ChipCall.history, ChipCall.call, Call.record, performed]
  refine ⟨_, ?_, rfl, ?_, ?_, ?_, ?_⟩
  · have restarts : Builder.write Timer.node (.first Nat.zero_lt_two) default none {} = .ok timed :=
      performed
    rw [spikeInjection, restarts, record]
    exact injected.written
  · rw [ChipCall.injected, injection, ChipCall.recorded, ChipCall.call, performed]
    exact injected.own
  · rw [record, injected.length, length, flatten_packs, Nat.add_comm]
  · rw [record, injected.slots, slots]
  · rw [record, injected.restriction, restriction]

end Stimulus

end Playback
