import Mathlib.Data.List.Induction
import Playback.Proofs.Board.Interpreter

/-! Packs of spikes from single writes in any order.

The registers of a pack are its slots. A label that is written to a slot goes behind the labels that
are held, as far as these are before the slot, and the pack is sent once it is full. So only a write
to the last slot sends one (`last_of_sent?`), and its labels were written since the last pack of the
size (`holding_sublist_recent`).
-/

set_option autoImplicit false

namespace Playback

def Word.label (word : Word) : SpikeLabel :=
  UInt16.ofNat word.raw

def Response.Record.spikeLabels? : Response.Record → Option (List SpikeLabel)
  | .spikes pack => some (pack.entries.map SpikeEntry.label)
  | _ => none

namespace Instruction

/-- The slot of the packs of a size that an instruction writes to, and the word. -/
def slotWrite? (size : Fin 3) : Instruction → Option (Nat × Word)
  | write access =>
    ((SpikePack.addresses (size.val + 1)).idxOf? access.address).map fun slot =>
      (slot, access.word)
  | _ => none

def slotWrites (size : Fin 3) (instructions : List Instruction) : List (Nat × Word) :=
  instructions.filterMap (slotWrite? size)

def slots (size : Fin 3) (instructions : List Instruction) : List Nat :=
  (slotWrites size instructions).map Prod.fst

theorem withPast_concat (instructions : List Instruction) (last : Instruction) :
    withPast (instructions ++ [last]) = withPast instructions ++ [(instructions, last)] := by
  induction instructions with
  | nil => rfl
  | cons first rest ih =>
    rw [List.cons_append, withPast_cons, ih, withPast_cons, List.map_append]
    rfl

theorem slot_or_none (instruction : Instruction) :
    (∃ size write, instruction.slotWrite? size = some write) ∨
      ∀ size, instruction.slotWrite? size = none := by
  by_cases nowhere : ∀ size, instruction.slotWrite? size = none
  · exact .inr nowhere
  · obtain ⟨size, found⟩ := not_forall.1 nowhere
    exact .inl ⟨size, Option.ne_none_iff_exists'.1 found⟩

theorem slotWrites_concat (size : Fin 3) (instructions : List Instruction) (last : Instruction) :
    slotWrites size (instructions ++ [last]) =
      slotWrites size instructions ++ (slotWrite? size last).toList := by
  unfold slotWrites
  rw [List.filterMap_append]
  cases found : slotWrite? size last <;> simp [found]

theorem latest?_concat (address : Address) (instructions : List Instruction)
    (last : Instruction) :
    latest? address (instructions ++ [last]) =
      (last.written? address).or (latest? address instructions) := by
  unfold latest?
  rw [List.reverse_append, List.reverse_singleton, List.singleton_append, List.findSome?_cons]
  cases last.written? address <;> rfl

end Instruction

namespace Board

open Instruction Response

def slotAddress (size : Fin 3) (slot : Nat) : Address :=
  .ofNat .omnibus (0x00020300 + 4 * size.val + slot)

theorem addresses_slots (size : Fin 3) :
    SpikePack.addresses (size.val + 1) = (List.range (size.val + 1)).map (slotAddress size) :=
  rfl

theorem idxOf?_addresses {address : Address} {size : Fin 3} {slot : Nat} :
    (SpikePack.addresses (size.val + 1)).idxOf? address = some slot ↔
      slot ≤ size.val ∧ slotAddress size slot = address := by
  constructor
  · intro index
    obtain ⟨small, here, -⟩ := List.idxOf?_eq_some_iff.1 index
    rw [addresses_slots, List.length_map, List.length_range] at small
    simp only [addresses_slots, List.getElem_map, List.getElem_range] at here
    exact ⟨Nat.le_of_lt_succ small, here⟩
  · rintro ⟨small, rfl⟩
    have all : ∀ size : Fin 3, ∀ slot ∈ List.range (size.val + 1),
        (SpikePack.addresses (size.val + 1)).idxOf? (slotAddress size slot) = some slot := by
      decide
    exact all size slot (List.mem_range.2 (Nat.lt_succ_of_le small))

theorem packPlace?_eq_some_iff {address : Address} {size : Fin 3} {slot : Nat} :
    packPlace? address = some ⟨size, slot⟩ ↔
      slot ≤ size.val ∧ slotAddress size slot = address := by
  rw [← idxOf?_addresses]
  constructor
  · intro found
    obtain ⟨other, -, here⟩ := List.exists_of_findSome?_eq_some found
    obtain ⟨before, index, same⟩ := Option.map_eq_some_iff.1 here
    cases same
    exact index
  · intro index
    have all : ∀ size : Fin 3, ∀ address ∈ SpikePack.addresses (size.val + 1),
        packPlace? address =
          ((SpikePack.addresses (size.val + 1)).idxOf? address).map fun slot => ⟨size, slot⟩ := by
      decide
    have member : address ∈ SpikePack.addresses (size.val + 1) :=
      List.isSome_idxOf?.1 (by rw [index]; rfl)
    rw [all size address member, index]
    rfl

theorem slotAddress_inj {size : Fin 3} {slot other : Nat} (small : slot ≤ size.val)
    (also : other ≤ size.val) (same : slotAddress size slot = slotAddress size other) :
    slot = other := by
  have first := packPlace?_eq_some_iff.2 ⟨small, rfl⟩
  have second := packPlace?_eq_some_iff.2 ⟨also, rfl⟩
  rw [same, second] at first
  cases first
  rfl

theorem slotWrite?_eq_some_iff {size : Fin 3} {instruction : Instruction} {slot : Nat}
    {word : Word} :
    instruction.slotWrite? size = some (slot, word) ↔
      slot ≤ size.val ∧ ∃ access, instruction = .write access ∧
        slotAddress size slot = access.address ∧ access.word = word := by
  cases instruction with
  | write access => simp [slotWrite?, idxOf?_addresses, and_assoc]
  | _ => simp [slotWrite?]

theorem written?_slotAddress {size : Fin 3} {slot : Nat} (small : slot ≤ size.val)
    (instruction : Instruction) :
    instruction.written? (slotAddress size slot) =
      (instruction.slotWrite? size).bind fun (other, word) =>
        if other = slot then some word else none := by
  cases found : instruction.slotWrite? size with
  | some write =>
    obtain ⟨other, word⟩ := write
    obtain ⟨also, access, rfl, address, rfl⟩ := slotWrite?_eq_some_iff.1 found
    rw [written?, ← address]
    by_cases same : other = slot
    · simp [same]
    · have apart : slotAddress size other ≠ slotAddress size slot :=
        fun equal => same (slotAddress_inj also small equal)
      simp [same, apart]
  | none =>
    cases instruction with
    | write access =>
      have apart : access.address ≠ slotAddress size slot := by
        intro same
        have writes := slotWrite?_eq_some_iff.2 ⟨small, access, rfl, same.symm, rfl⟩
        rw [found] at writes
        cases writes
      simp [written?, apart]
    | _ => rfl

/-! ### Labels held -/

namespace Labels

section Held

variable {α β : Type} (slot : α → Nat) (size : Fin 3)

def pushed (held : List α) (next : α) : List α :=
  held.take (slot next) ++ [next]

def heldNext (held : List α) (next : α) : List α :=
  if (pushed slot held next).length = size.val + 1 then [] else pushed slot held next

def held (writes : List α) : List α :=
  writes.foldl (heldNext slot size) []

theorem held_concat (writes : List α) (last : α) :
    held slot size (writes ++ [last]) = heldNext slot size (held slot size writes) last :=
  List.foldl_append

theorem length_held (writes : List α) : (held slot size writes).length ≤ size.val := by
  induction writes using List.reverseRecOn with
  | nil => exact Nat.zero_le _
  | append_singleton writes last ih =>
    rw [held_concat, heldNext]
    split
    case isTrue => exact Nat.zero_le _
    case isFalse unfinished =>
      have short : (pushed slot (held slot size writes) last).length ≤
          (held slot size writes).length + 1 := by
        rw [pushed, List.length_append, List.length_take]
        exact Nat.succ_le_succ (Nat.min_le_right _ _)
      omega

theorem held_subset (writes : List α) : held slot size writes ⊆ writes := by
  induction writes using List.reverseRecOn with
  | nil => exact List.Subset.refl _
  | append_singleton writes last ih =>
    rw [held_concat, heldNext]
    split
    case isTrue => exact List.nil_subset _
    case isFalse =>
      have before := List.Subset.trans (List.take_subset (slot last) _) ih
      exact List.append_subset.2 ⟨List.subset_append_of_subset_left _ before,
        List.subset_append_right _ _⟩

theorem map_held (f : α → β) (slotOf : β → Nat) (same : ∀ a, slotOf (f a) = slot a)
    (writes : List α) : (held slot size writes).map f = held slotOf size (writes.map f) := by
  induction writes using List.reverseRecOn with
  | nil => rfl
  | append_singleton writes last ih =>
    have next : (pushed slot (held slot size writes) last).map f =
        pushed slotOf (held slotOf size (writes.map f)) (f last) := by
      rw [pushed, pushed, same, ← ih, List.map_append, List.map_take]
      rfl
    rw [List.map_append, List.map_singleton, held_concat, held_concat, heldNext, heldNext, ← next,
      List.length_map, apply_ite (List.map f)]
    rfl

end Held

/-! ### Packs sent -/

def sent? (earlier : List Instruction) (instruction : Instruction) : Option (List SpikeLabel) :=
  ((empty.after earlier).obey instruction).1

def completes (size : Fin 3) (earlier : List Instruction) (instruction : Instruction) : Bool :=
  (sent? earlier instruction).any (·.length = size.val + 1)

/-- The instructions of a stream behind its last pack of a size. -/
def since (size : Fin 3) (instructions : List Instruction) : List Instruction :=
  (withPast instructions).foldl
    (fun recent (earlier, instruction) =>
      if completes size earlier instruction then [] else recent ++ [instruction])
    []

theorem since_concat (size : Fin 3) (instructions : List Instruction) (last : Instruction) :
    since size (instructions ++ [last]) =
      if completes size instructions last then [] else since size instructions ++ [last] := by
  unfold since
  rw [withPast_concat, List.foldl_append]
  rfl

theorem after_concat (labels : Labels) (instructions : List Instruction) (last : Instruction) :
    labels.after (instructions ++ [last]) = ((labels.after instructions).obey last).2 :=
  List.foldl_append

def offeredAt (labels : Labels) (size : Fin 3) (write : Nat × Word) : List SpikeLabel :=
  (labels.get size).take write.1 ++ [write.2.label]

theorem obey_of_slot (labels : Labels) {size : Fin 3} {instruction : Instruction}
    {write : Nat × Word} (found : instruction.slotWrite? size = some write) :
    labels.obey instruction =
      if (labels.offeredAt size write).length = size.val + 1 then
        (some (labels.offeredAt size write), labels.keep size [])
      else (none, labels.keep size (labels.offeredAt size write)) := by
  obtain ⟨slot, word⟩ := write
  obtain ⟨small, access, rfl, address, rfl⟩ := slotWrite?_eq_some_iff.1 found
  have place := packPlace?_eq_some_iff.2 ⟨small, address⟩
  unfold obey use
  dsimp only [use?]
  rw [place]
  rfl

theorem obey_of_no_slot (labels : Labels) {instruction : Instruction}
    (silent : ∀ size, instruction.slotWrite? size = none) :
    labels.obey instruction = (none, labels) := by
  cases instruction with
  | write access =>
    have nowhere : packPlace? access.address = none := by
      cases found : packPlace? access.address with
      | none => rfl
      | some place =>
        obtain ⟨small, address⟩ := packPlace?_eq_some_iff.1 found
        have writes := slotWrite?_eq_some_iff.2 ⟨small, access, rfl, address, rfl⟩
        rw [silent] at writes
        cases writes
    unfold obey use
    dsimp only [use?]
    rw [nowhere]
  | _ => rfl

theorem get_keep (labels : Labels) (size other : Fin 3) (pack : List SpikeLabel) :
    (labels.keep size pack).get other = if size = other then pack else labels.get other := by
  change (Vector.set labels size pack size.isLt)[other.val] = if _ then _ else labels[other.val]
  rw [Vector.getElem_set]
  simp only [Fin.ext_iff]

theorem get_obey_of_slot (labels : Labels) {size : Fin 3} {instruction : Instruction}
    {write : Nat × Word} (found : instruction.slotWrite? size = some write) :
    (labels.obey instruction).2.get size =
      if (labels.offeredAt size write).length = size.val + 1 then []
      else labels.offeredAt size write := by
  rw [labels.obey_of_slot found]
  split <;> simp [get_keep]

theorem get_obey_of_other (labels : Labels) {size : Fin 3} {instruction : Instruction}
    (silent : instruction.slotWrite? size = none) :
    (labels.obey instruction).2.get size = labels.get size := by
  rcases instruction.slot_or_none with ⟨other, write, found⟩ | nowhere
  · have apart : other ≠ size := by
      rintro rfl
      rw [silent] at found
      cases found
    rw [labels.obey_of_slot found]
    split <;> simp [get_keep, apart]
  · rw [labels.obey_of_no_slot nowhere]

/-- The words held of a pack behind a stream, with their slots. -/
def holding (size : Fin 3) (instructions : List Instruction) : List (Nat × Word) :=
  held Prod.fst size (slotWrites size instructions)

def gathered (size : Fin 3) (earlier : List Instruction) (write : Nat × Word) :
    List (Nat × Word) :=
  pushed Prod.fst (holding size earlier) write

theorem length_holding (size : Fin 3) (instructions : List Instruction) :
    (holding size instructions).length ≤ size.val :=
  length_held _ _ _

theorem holding_concat_of_slot {size : Fin 3} (earlier : List Instruction)
    {instruction : Instruction} {write : Nat × Word}
    (found : instruction.slotWrite? size = some write) :
    holding size (earlier ++ [instruction]) =
      if (gathered size earlier write).length = size.val + 1 then []
      else gathered size earlier write := by
  rw [holding, slotWrites_concat, found, Option.toList_some, held_concat]
  rfl

theorem holding_concat_of_other {size : Fin 3} (earlier : List Instruction)
    {instruction : Instruction} (silent : instruction.slotWrite? size = none) :
    holding size (earlier ++ [instruction]) = holding size earlier := by
  rw [holding, slotWrites_concat, silent, Option.toList_none, List.append_nil]
  rfl

theorem offeredAt_of_get {labels : Labels} {size : Fin 3} {earlier : List Instruction}
    (same : labels.get size = (holding size earlier).map fun write => write.2.label)
    (write : Nat × Word) :
    labels.offeredAt size write =
      (gathered size earlier write).map fun write => write.2.label := by
  rw [offeredAt, same, gathered, pushed, List.map_append, List.map_take]
  rfl

theorem get_after (size : Fin 3) (instructions : List Instruction) :
    (empty.after instructions).get size =
      (holding size instructions).map fun write => write.2.label := by
  induction instructions using List.reverseRecOn with
  | nil =>
    revert size
    decide
  | append_singleton earlier last ih =>
    rw [after_concat]
    cases found : last.slotWrite? size with
    | none => rw [get_obey_of_other _ found, ih, holding_concat_of_other earlier found]
    | some write =>
      rw [get_obey_of_slot _ found, offeredAt_of_get ih, List.length_map,
        holding_concat_of_slot _ found, apply_ite (List.map _)]
      rfl

theorem sent?_of_slot {size : Fin 3} (earlier : List Instruction) {instruction : Instruction}
    {write : Nat × Word} (found : instruction.slotWrite? size = some write) :
    sent? earlier instruction =
      if (gathered size earlier write).length = size.val + 1 then
        some ((gathered size earlier write).map fun write => write.2.label)
      else none := by
  rw [sent?, obey_of_slot _ found, offeredAt_of_get (get_after size earlier), List.length_map]
  split <;> rfl

theorem sent?_eq_some_iff {earlier : List Instruction} {instruction : Instruction}
    {pack : List SpikeLabel} :
    sent? earlier instruction = some pack ↔
      ∃ size write, instruction.slotWrite? size = some write ∧
        (gathered size earlier write).length = size.val + 1 ∧
        (gathered size earlier write).map (fun write => write.2.label) = pack := by
  constructor
  · intro sends
    rcases instruction.slot_or_none with ⟨size, write, found⟩ | nowhere
    · rw [sent?_of_slot earlier found] at sends
      split at sends
      case isTrue whole => exact ⟨size, write, found, whole, Option.some.inj sends⟩
      case isFalse => cases sends
    · rw [sent?, obey_of_no_slot _ nowhere] at sends
      cases sends
  · rintro ⟨size, write, found, whole, rfl⟩
    rw [sent?_of_slot earlier found, if_pos whole]

theorem completes_iff {size : Fin 3} {earlier : List Instruction} {instruction : Instruction} :
    completes size earlier instruction = true ↔
      ∃ write, instruction.slotWrite? size = some write ∧
        (gathered size earlier write).length = size.val + 1 := by
  rw [completes, Option.any_eq_true]
  simp only [sent?_eq_some_iff, decide_eq_true_eq]
  constructor
  · rintro ⟨pack, ⟨other, write, found, whole, rfl⟩, long⟩
    rw [List.length_map, whole] at long
    obtain rfl : other = size := Fin.ext (Nat.succ.inj long)
    exact ⟨write, found, whole⟩
  · rintro ⟨write, found, whole⟩
    exact ⟨_, ⟨size, write, found, whole, rfl⟩, by rw [List.length_map, whole]⟩

theorem slotWrite?_last {size : Fin 3} {access : WriteAccess}
    (last : access.address = slotAddress size size.val) :
    (Instruction.write access).slotWrite? size = some (size.val, access.word) :=
  slotWrite?_eq_some_iff.2 ⟨Nat.le_refl _, access, rfl, last.symm, rfl⟩

theorem gathered_last (size : Fin 3) (earlier : List Instruction) (word : Word) :
    gathered size earlier (size.val, word) = holding size earlier ++ [(size.val, word)] :=
  congrArg (· ++ _) (List.take_of_length_le (length_holding size earlier))

theorem sent?_last {size : Fin 3} (earlier : List Instruction) {access : WriteAccess}
    (last : access.address = slotAddress size size.val) :
    sent? earlier (.write access) =
      if (holding size earlier).length = size.val then
        some ((holding size earlier).map (fun write => write.2.label) ++ [access.word.label])
      else none := by
  rw [sent?_of_slot earlier (slotWrite?_last last), gathered_last, List.length_append,
    List.map_append]
  simp

theorem last_of_sent? {earlier : List Instruction} {instruction : Instruction}
    {pack : List SpikeLabel} (sends : sent? earlier instruction = some pack) :
    ∃ size access, instruction = .write access ∧
      access.address = slotAddress size size.val := by
  obtain ⟨size, ⟨slot, word⟩, found, whole, -⟩ := sent?_eq_some_iff.1 sends
  obtain ⟨small, access, rfl, address, -⟩ := slotWrite?_eq_some_iff.1 found
  have few := length_holding size earlier
  rw [gathered, pushed, List.length_append, List.length_take, List.length_singleton] at whole
  obtain rfl : slot = size.val := by omega
  exact ⟨size, access, rfl, address.symm⟩

def recent (size : Fin 3) (instructions : List Instruction) : List (Nat × Word) :=
  slotWrites size (since size instructions)

-- A further instruction leaves the words held alone, sends them or adds one.
theorem holding_cases (size : Fin 3) (earlier : List Instruction) (last : Instruction) :
    (last.slotWrite? size = none ∧
      holding size (earlier ++ [last]) = holding size earlier ∧
      recent size (earlier ++ [last]) = recent size earlier) ∨
    ∃ write, last.slotWrite? size = some write ∧
      (holding size (earlier ++ [last]) = [] ∧ recent size (earlier ++ [last]) = [] ∨
        holding size (earlier ++ [last]) = gathered size earlier write ∧
          recent size (earlier ++ [last]) = recent size earlier ++ [write]) := by
  unfold recent
  rw [since_concat]
  cases found : last.slotWrite? size with
  | none =>
    have incomplete : ¬ completes size earlier last = true := by
      rw [completes_iff, found]
      rintro ⟨write, other, -⟩
      cases other
    rw [if_neg incomplete, slotWrites_concat, found, Option.toList_none, List.append_nil]
    exact .inl ⟨rfl, holding_concat_of_other earlier found, rfl⟩
  | some write =>
    refine .inr ⟨write, rfl, ?_⟩
    rw [holding_concat_of_slot earlier found]
    by_cases whole : (gathered size earlier write).length = size.val + 1
    · rw [if_pos whole, if_pos (completes_iff.2 ⟨write, found, whole⟩)]
      exact .inl ⟨rfl, rfl⟩
    · have incomplete : ¬ completes size earlier last = true := by
        rw [completes_iff, found]
        rintro ⟨other, same, long⟩
        obtain rfl := Option.some.inj same
        exact whole long
      rw [if_neg whole, if_neg incomplete, slotWrites_concat, found]
      exact .inr ⟨rfl, rfl⟩

theorem holding_sublist_recent (size : Fin 3) (instructions : List Instruction) :
    (holding size instructions).Sublist (recent size instructions) := by
  induction instructions using List.reverseRecOn with
  | nil => exact List.Sublist.refl _
  | append_singleton earlier last ih =>
    rcases holding_cases size earlier last with ⟨-, same, also⟩ |
      ⟨write, -, ⟨same, also⟩ | ⟨same, also⟩⟩
    · rwa [same, also]
    · rw [same, also]
    · rw [same, also, gathered, pushed]
      exact ((List.take_sublist _ _).trans ih).append (List.Sublist.refl _)

end Labels

namespace Play

theorem spikeLabels?_send (annotate : Bool) (record : Record) (play : Play) :
    (play.send annotate record).1.filterMap Record.spikeLabels? =
      record.spikeLabels?.toList := by
  have single : [record].filterMap Record.spikeLabels? = record.spikeLabels?.toList := by
    rw [List.filterMap_cons]
    cases record.spikeLabels? <;> rfl
  unfold send stamp
  dsimp only
  split <;> exact single

theorem spikeLabels?_offer (annotate : Bool) (place : PackPlace) (label : SpikeLabel)
    (play : Play) :
    (play.offer annotate place label).1.filterMap Record.spikeLabels? =
      (Labels.put play.pending place label).1.toList := by
  unfold offer Labels.put
  dsimp only
  by_cases complete : (play.offered place label).length = place.size + 1
  · rw [dif_pos complete, if_pos (by exact complete), spikeLabels?_send]
    simp [Record.spikeLabels?, SpikeEntry.ofSpike, Function.comp_def]
    rfl
  · rw [dif_neg complete, if_neg (by exact complete)]
    rfl

theorem spikeLabels?_step (annotate : Bool) (instruction : Instruction) (play : Play) :
    (play.step annotate instruction).1.filterMap Record.spikeLabels? =
      (Labels.obey play.pending instruction).1.toList := by
  cases instruction with
  | write access =>
    unfold step Labels.obey Labels.use
    dsimp only [use?]
    cases packPlace? access.address with
    | none => rfl
    | some place => exact spikeLabels?_offer _ _ _ _
  | read address => exact spikeLabels?_send _ _ _
  | wait timer value => rfl
  | barrier kind => rfl

theorem spikeLabels?_steps (annotate : Bool) (instructions : List Instruction) (play : Play) :
    (steps annotate instructions play).1.filterMap Record.spikeLabels? =
      (withPast instructions).filterMap fun (earlier, instruction) =>
        ((Labels.after play.pending earlier).obey instruction).1 := by
  induction instructions generalizing play with
  | nil => rfl
  | cons instruction rest ih =>
    rw [steps_cons, withPast_cons, List.filterMap_append, ih, spikeLabels?_step,
      (play.step_obeys annotate instruction).2, List.filterMap_cons, List.filterMap_map]
    dsimp only [Labels.after, List.foldl_nil]
    cases (Labels.obey play.pending instruction).1 <;> rfl

end Play

end Board

end Playback
