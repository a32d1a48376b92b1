import Mathlib.Data.List.Dedup
import Playback.Proofs.Board.Slots

/-! Which slots the labels of a pack were written to.

A label that is held need not be at its own slot: there may be fewer labels before it than slots.
Whether it is at its slot is up to the order of the writes, not to what they write. Labels are at
their own slots where the latest writes to the slots since the last pack came one slot after another
(`InOrder`), and then they are the latest that were written there.
-/

set_option autoImplicit false

namespace Playback

namespace Board

open Instruction Response

namespace Labels

/-- The latest writes to the slots before the last one, as far as they are behind the last pack of
the size, come one slot after another. -/
def InOrder (size : Fin 3) (instructions : List Instruction) : Prop :=
  (((recent size instructions).map Prod.fst).filter (· < size.val)).dedup = List.range size.val

instance (size : Fin 3) (instructions : List Instruction) :
    Decidable (InOrder size instructions) :=
  inferInstanceAs (Decidable (_ = _))

theorem concat_eq_range_iff {numbers : List Nat} {last n : Nat} :
    numbers ++ [last] = List.range n ↔ n = last + 1 ∧ numbers = List.range last := by
  cases n with
  | zero => simp
  | succ m =>
    rw [List.range_succ, List.append_singleton_inj]
    constructor
    · rintro ⟨same, rfl⟩
      exact ⟨rfl, same⟩
    · rintro ⟨next, same⟩
      obtain rfl := Nat.succ.inj next
      exact ⟨same, rfl⟩

theorem dedup_concat (numbers : List Nat) (last : Nat) :
    (numbers ++ [last]).dedup = (numbers.filter (· ≠ last)).dedup ++ [last] := by
  induction numbers with
  | nil => rfl
  | cons first rest ih =>
    rw [List.cons_append]
    by_cases same : first = last
    · subst same
      rw [List.dedup_cons_of_mem (by simp), ih]
      simp
    · rw [List.filter_cons_of_pos (by simpa using same)]
      by_cases again : first ∈ rest
      · rw [List.dedup_cons_of_mem (by simp [again]),
          List.dedup_cons_of_mem (by simp [again, same]), ih]
      · rw [List.dedup_cons_of_notMem (by simp [again, same]),
          List.dedup_cons_of_notMem (by simp [again]), ih, List.cons_append]

theorem dedup_filter_concat_eq_range_iff {numbers : List Nat} {last n : Nat} (inside : last < n) :
    ((numbers ++ [last]).filter (· < n)).dedup = List.range n ↔
      n = last + 1 ∧ (numbers.filter (· < last)).dedup = List.range last := by
  rw [List.filter_append, List.filter_cons_of_pos (by simpa using inside), List.filter_nil,
    dedup_concat, concat_eq_range_iff, List.filter_filter]
  refine and_congr_right fun next => ?_
  have below (number : Nat) : (decide (number ≠ last) && decide (number < n)) =
      decide (number < last) := by
    rw [← Bool.decide_and]
    exact decide_eq_decide.2 (by omega)
  simp only [below]

theorem map_pushed_eq_range_iff {held : List (Nat × Word)} {write : Nat × Word} {n : Nat}
    (inside : write.1 < n) :
    ((pushed Prod.fst held write).take n).map Prod.fst = List.range n ↔
      n = write.1 + 1 ∧ (held.take write.1).map Prod.fst = List.range write.1 := by
  have short : (pushed Prod.fst held write).length ≤ n := by
    rw [pushed, List.length_append, List.length_take, List.length_singleton]
    omega
  rw [List.take_of_length_le short, pushed, List.map_append, List.map_singleton,
    concat_eq_range_iff]

theorem map_pushed_eq_range_iff_of_le {held : List (Nat × Word)} {write : Nat × Word} {n : Nat}
    (behind : n ≤ write.1) :
    ((pushed Prod.fst held write).take n).map Prod.fst = List.range n ↔
      (held.take n).map Prod.fst = List.range n := by
  by_cases enough : n ≤ held.length
  · rw [pushed, List.take_append_of_le_length (by rw [List.length_take]; omega), List.take_take,
      Nat.min_eq_left behind]
  · have few : held.length ≤ write.1 := by omega
    constructor
    · intro same
      have last : write.1 ∈ List.range n := by
        rw [← same, pushed, List.take_of_length_le few, List.take_of_length_le (by simp; omega)]
        simp
      exact absurd (List.mem_range.1 last) (by omega)
    · intro same
      have long := congrArg List.length same
      rw [List.length_map, List.length_take, List.length_range] at long
      omega

-- By induction on the stream from its end: the words held are at the first `n` slots where the
-- latest writes to these came in their order.
theorem holding_in_order_iff {size : Fin 3} (instructions : List Instruction) {n : Nat} :
    ((holding size instructions).take n).map Prod.fst = List.range n ↔
      (((recent size instructions).map Prod.fst).filter (· < n)).dedup = List.range n := by
  induction instructions using List.reverseRecOn generalizing n with
  | nil => simp [holding, held, slotWrites, recent, since, withPast]
  | append_singleton earlier last ih =>
    rcases holding_cases size earlier last with ⟨-, same, also⟩ |
      ⟨write, -, ⟨same, also⟩ | ⟨same, also⟩⟩
    · rw [same, also, ih]
    · rw [same, also]
      simp
    · rw [same, also, List.map_append, List.map_singleton, gathered]
      rcases Nat.lt_or_ge write.1 n with inside | behind
      · rw [map_pushed_eq_range_iff inside, dedup_filter_concat_eq_range_iff inside, ih]
      · rw [map_pushed_eq_range_iff_of_le behind, List.filter_append,
          List.filter_cons_of_neg (by simpa using behind), List.filter_nil, List.append_nil]
        exact ih

theorem inOrder_iff_holding {size : Fin 3} {instructions : List Instruction} :
    InOrder size instructions ↔
      (holding size instructions).map Prod.fst = List.range size.val := by
  rw [InOrder, ← holding_in_order_iff, List.take_of_length_le (length_holding _ _)]

theorem inOrder_congr {size : Fin 3} {instructions other : List Instruction}
    (same : slots size other = slots size instructions) :
    InOrder size other ↔ InOrder size instructions := by
  have bySlots (stream : List Instruction) :
      (holding size stream).map Prod.fst = held id size (slots size stream) :=
    map_held Prod.fst size Prod.fst id (fun _ => rfl) _
  rw [inOrder_iff_holding, inOrder_iff_holding, bySlots, bySlots, same]

theorem latest?_of_holding {size : Fin 3} {instructions : List Instruction} {slot : Nat}
    {word : Word} (inside : (holding size instructions)[slot]? = some (slot, word)) :
    latest? (slotAddress size slot) instructions = some word := by
  induction instructions using List.reverseRecOn with
  | nil => simp [holding, held, slotWrites] at inside
  | append_singleton earlier last ih =>
    have small : slot ≤ size.val := by
      have long := length_holding size (earlier ++ [last])
      have short := (List.getElem?_eq_some_iff.1 inside).1
      omega
    rw [latest?_concat, written?_slotAddress small]
    rcases holding_cases size earlier last with ⟨silent, same, -⟩ |
      ⟨write, found, ⟨same, -⟩ | ⟨same, -⟩⟩
    · rw [same] at inside
      rw [silent]
      exact ih inside
    · rw [same] at inside
      cases inside
    · rw [same, gathered, pushed, List.getElem?_append] at inside
      rw [found]
      split at inside
      case isTrue before =>
        -- The slot is before the one that is written now.
        rw [List.length_take] at before
        rw [List.getElem?_take_of_lt (by omega)] at inside
        have apart : write.1 ≠ slot := by omega
        simpa [apart] using ih inside
      case isFalse =>
        obtain rfl := List.mem_singleton.1 (List.mem_of_getElem? inside)
        simp

/-- The labels of a pack are the latest ones that a stream writes to the registers of its size. -/
def OwnSlots (size : Fin 3) (instructions : List Instruction) (pack : List SpikeLabel) : Prop :=
  pack.map some = (SpikePack.addresses (size.val + 1)).map fun address =>
    (latest? address instructions).map Word.label

instance (size : Fin 3) (instructions : List Instruction) (pack : List SpikeLabel) :
    Decidable (OwnSlots size instructions pack) :=
  inferInstanceAs (Decidable (_ = _))

theorem OwnSlots.latest?_of_label {size : Fin 3} {instructions : List Instruction}
    {pack : List SpikeLabel} (own : OwnSlots size instructions pack) {slot : Nat}
    (small : slot ≤ size.val) {label : SpikeLabel} (here : pack[slot]? = some label) :
    (latest? (slotAddress size slot) instructions).map Word.label = some label := by
  have same := congrArg (·[slot]?) own
  simp only [addresses_slots, List.getElem?_map, here,
    List.getElem?_range (Nat.lt_succ_of_le small), Option.map_some] at same
  exact (Option.some.inj same).symm

theorem latest?_of_mem_holding {size : Fin 3} {instructions : List Instruction}
    (ordered : (holding size instructions).map Prod.fst = List.range size.val) {write : Nat × Word}
    (member : write ∈ holding size instructions) :
    write.1 < size.val ∧
      latest? (slotAddress size write.1) instructions = some write.2 := by
  obtain ⟨slot, inside⟩ := List.mem_iff_getElem?.1 member
  have own : (List.range size.val)[slot]? = some write.1 := by
    rw [← ordered, List.getElem?_map, inside]
    rfl
  obtain ⟨small, here⟩ := List.getElem?_eq_some_iff.1 own
  rw [List.length_range] at small
  rw [List.getElem_range] at here
  subst here
  exact ⟨small, latest?_of_holding inside⟩

theorem written?_last {size : Fin 3} {access : WriteAccess}
    (last : access.address = slotAddress size size.val) {slot : Nat} (small : slot ≤ size.val) :
    (Instruction.write access).written? (slotAddress size slot) =
      if slot = size.val then some access.word else none := by
  rw [written?_slotAddress small, slotWrite?_last last]
  simp only [Option.bind_some, eq_comm]

theorem ownSlots_of_holding {size : Fin 3} {instructions : List Instruction} {access : WriteAccess}
    (last : access.address = slotAddress size size.val)
    (ordered : (holding size instructions).map Prod.fst = List.range size.val) :
    OwnSlots size (instructions ++ [.write access])
      ((holding size instructions).map (fun write => write.2.label) ++ [access.word.label]) := by
  rw [OwnSlots, addresses_slots, List.range_succ, ← ordered, List.map_append, List.map_append,
    List.map_append, List.map_map, List.map_map, List.map_map]
  congr 1
  · refine List.map_congr_left fun write member => ?_
    obtain ⟨small, latest⟩ := latest?_of_mem_holding ordered member
    simp only [Function.comp_apply]
    rw [latest?_concat, written?_last last small.le, if_neg small.ne, Option.none_or, latest]
    rfl
  · simp only [List.map_cons, List.map_nil]
    rw [latest?_concat, written?_last last (Nat.le_refl _), if_pos rfl]
    rfl

def numbered (size : Fin 3) (slot : Nat) : Instruction :=
  .write (.omnibus (UInt32.ofNat (0x00020300 + 4 * size.val + slot)) (UInt32.ofNat slot))

theorem slotWrite?_numbered {size : Fin 3} {slot : Nat} (small : slot ≤ size.val) :
    (numbered size slot).slotWrite? size = some (slot, .omnibus (UInt32.ofNat slot)) :=
  slotWrite?_eq_some_iff.2 ⟨small, _, rfl, rfl, rfl⟩

theorem le_of_mem_slots {size : Fin 3} {instructions : List Instruction} {slot : Nat}
    (member : slot ∈ slots size instructions) : slot ≤ size.val := by
  obtain ⟨write, inside, rfl⟩ := List.mem_map.1 member
  obtain ⟨instruction, -, found⟩ := List.mem_filterMap.1 inside
  exact (slotWrite?_eq_some_iff.1 found).1

theorem slotWrites_numbered {size : Fin 3} {numbers : List Nat}
    (small : ∀ slot ∈ numbers, slot ≤ size.val) :
    slotWrites size (numbers.map (numbered size)) =
      numbers.map fun slot => (slot, .omnibus (UInt32.ofNat slot)) := by
  rw [slotWrites, List.filterMap_map, ← List.filterMap_eq_map]
  refine List.filterMap_congr fun slot member => ?_
  exact slotWrite?_numbered (small slot member)

theorem slots_numbered {size : Fin 3} {numbers : List Nat}
    (small : ∀ slot ∈ numbers, slot ≤ size.val) :
    slots size (numbers.map (numbered size)) = numbers := by
  rw [slots, slotWrites_numbered small, List.map_map]
  exact List.map_id numbers

theorem latest?_numbered {size : Fin 3} {numbers : List Nat}
    (small : ∀ slot ∈ numbers, slot ≤ size.val) {slot : Nat} (also : slot ≤ size.val) {word : Word}
    (latest : latest? (slotAddress size slot) (numbers.map (numbered size)) = some word) :
    word = .omnibus (UInt32.ofNat slot) := by
  obtain ⟨instruction, member, writes⟩ := List.exists_of_findSome?_eq_some latest
  obtain ⟨other, inside, rfl⟩ := List.mem_map.1 (List.mem_reverse.1 member)
  rw [written?_slotAddress also, slotWrite?_numbered (small other inside)] at writes
  simp only [Option.bind_some, Option.ite_none_right_eq_some, Option.some.injEq] at writes
  obtain ⟨rfl, rfl⟩ := writes
  rfl

theorem number_inj {size : Fin 3} {slot other : Nat} (small : slot ≤ size.val)
    (also : other ≤ size.val)
    (same : (Word.omnibus (UInt32.ofNat slot)).label = (Word.omnibus (UInt32.ofNat other)).label) :
    slot = other := by
  have all : ∀ slot ∈ List.range 3, ∀ other ∈ List.range 3,
      (Word.omnibus (UInt32.ofNat slot)).label = (Word.omnibus (UInt32.ofNat other)).label →
        slot = other := by
    decide
  exact all slot (List.mem_range.2 (by omega)) other (List.mem_range.2 (by omega)) same

-- Numbers that are sent as those of their own slots are held in order.
theorem holding_of_ownSlots {size : Fin 3} {numbers : List Nat}
    (small : ∀ slot ∈ numbers, slot ≤ size.val) {access : WriteAccess}
    (last : access.address = slotAddress size size.val)
    (whole : (holding size (numbers.map (numbered size))).length = size.val)
    (own : OwnSlots size (numbers.map (numbered size) ++ [.write access])
      ((holding size (numbers.map (numbered size))).map (fun write => write.2.label) ++
        [access.word.label])) :
    (holding size (numbers.map (numbered size))).map Prod.fst = List.range size.val := by
  refine List.ext_getElem (by rw [List.length_map, List.length_range, whole]) ?_
  intro slot inside before
  rw [List.length_range] at before
  rw [List.getElem_map, List.getElem_range]
  have bound : slot < (holding size (numbers.map (numbered size))).length := by omega
  have member := held_subset Prod.fst size _ (List.getElem_mem bound)
  rw [slotWrites_numbered small] at member
  obtain ⟨number, listed, here⟩ := List.mem_map.1 member
  have label := own.latest?_of_label before.le
    (List.getElem?_append_left (by rwa [List.length_map]) |>.trans
      (List.getElem?_eq_getElem (by rwa [List.length_map])))
  rw [List.getElem_map, ← here, latest?_concat, written?_last last before.le, if_neg before.ne,
    Option.none_or] at label
  obtain ⟨word, latest, same⟩ := Option.map_eq_some_iff.1 label
  rw [latest?_numbered small before.le latest] at same
  rw [← here]
  exact number_inj (small number listed) before.le same.symm

end Labels

end Board

open Board Labels Instruction

-- A board sends a pack for a write to the last slot of its size, of labels that were written to the
-- slots since the last pack of the size, in the order of the writes. Where the latest writes to the
-- other slots came one slot after another, each label is the latest that was written to its slot;
-- in any other order there are words for which it is not, or nothing is sent.
theorem Board.packs_by_slots (annotate : Bool) (instructions : List Instruction)
    (machine : Machine) :
    (machine.play annotate instructions).1.filterMap Response.Record.spikeLabels? =
      ((withPast instructions).filterMap fun (earlier, instruction) =>
        sent? earlier instruction) ∧
    (∀ earlier instruction pack, sent? earlier instruction = some pack →
      ∃ size access, instruction = .write access ∧
        (SpikePack.addresses (size.val + 1)).getLast? = some access.address ∧
        pack.length = size.val + 1 ∧
        ∃ front, pack = front ++ [access.word.label] ∧
          front.Sublist ((recent size earlier).map fun write => write.2.label)) ∧
    ∀ size earlier access,
      (SpikePack.addresses (size.val + 1)).getLast? = some access.address →
      (InOrder size earlier ↔ ∀ other, slots size other = slots size earlier →
        ∃ pack, sent? other (.write access) = some pack ∧
          OwnSlots size (other ++ [.write access]) pack) := by
  have lastSlot (size : Fin 3) {address : Address} :
      (SpikePack.addresses (size.val + 1)).getLast? = some address ↔
        address = slotAddress size size.val := by
    rw [addresses_slots, List.range_succ, List.map_append, List.map_singleton,
      List.getLast?_concat, Option.some.injEq, eq_comm]
  refine ⟨?_, ?_, ?_⟩
  · rw [Machine.play, List.filterMap_append, Play.spikeLabels?_steps]
    exact List.append_nil _
  · intro earlier instruction pack sends
    obtain ⟨size, access, rfl, last⟩ := last_of_sent? sends
    rw [sent?_last earlier last] at sends
    split at sends
    case isFalse => cases sends
    case isTrue whole =>
      obtain rfl := Option.some.inj sends
      refine ⟨size, access, rfl, (lastSlot size).2 last, ?_, _, rfl, ?_⟩
      · rw [List.length_append, List.length_map, whole, List.length_singleton]
      · exact (holding_sublist_recent size earlier).map _
  · intro size earlier access last
    have last := (lastSlot size).1 last
    constructor
    · intro ordered other same
      have ordered := inOrder_iff_holding.1 ((inOrder_congr same).2 ordered)
      have whole : (holding size other).length = size.val := by
        have long := congrArg List.length ordered
        rwa [List.length_map, List.length_range] at long
      exact ⟨_, (sent?_last other last).trans (if_pos whole), ownSlots_of_holding last ordered⟩
    · intro always
      have small : ∀ slot ∈ slots size earlier, slot ≤ size.val := fun _ => le_of_mem_slots
      have same := slots_numbered small
      obtain ⟨pack, sends, own⟩ := always _ same
      rw [sent?_last _ last] at sends
      split at sends
      case isFalse => cases sends
      case isTrue whole =>
        obtain rfl := Option.some.inj sends
        have ordered := holding_of_ownSlots small last whole own
        exact (inOrder_congr same).1 (inOrder_iff_holding.2 ordered)

-- Writes to other registers, and earlier ones to the same slots, may stand between.
example : InOrder 1
    [.write (.omnibus 0x20305 9), .write (.omnibus 0x20304 5), .write (.omnibus 0x20308 7)] := by
  decide

-- The first slot of two was never written.
theorem Board.not_always_own_slots :
    let stream : List Instruction := [.write (.omnibus 0x20305 5), .write (.omnibus 0x20305 6)]
    (({} : Machine).play false stream).1.filterMap Response.Record.spikeLabels? = [[5, 6]] ∧
      latest? (.omnibus 0x20304) stream = none ∧ ¬ OwnSlots 1 stream [5, 6] := by
  decide

end Playback
