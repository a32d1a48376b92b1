import Playback.Proofs.Board.Places

/-! How a board puts packs of spikes together.

The registers of packs are places in three packs, one of each size, and nothing else goes there. A
write of a pack fills its places one after another, so it comes back as the pack that was written
and leaves nothing behind.
-/

set_option autoImplicit false

namespace Playback

namespace Board

/-- The labels of unfinished packs of each size. -/
abbrev Labels := Vector (List SpikeLabel) 3

namespace Labels

def empty : Labels := .replicate 3 []

def offered (labels : Labels) (place : PackPlace) (label : SpikeLabel) : List SpikeLabel :=
  (labels.get place.size).take place.before ++ [label]

def keep (labels : Labels) (size : Fin 3) (pack : List SpikeLabel) : Labels :=
  labels.set size pack size.isLt

def put (labels : Labels) (place : PackPlace) (label : SpikeLabel) :
    Option (List SpikeLabel) × Labels :=
  let pack := labels.offered place label
  if pack.length = place.size + 1 then (some pack, labels.keep place.size [])
  else (none, labels.keep place.size pack)

def use (labels : Labels) : RegisterUse → Option (List SpikeLabel) × Labels
  | .store address word =>
    match packPlace? address with
    | some place => labels.put place (UInt16.ofNat word.raw)
    | none => (none, labels)
  | .load _ => (none, labels)

/-- The packs that uses of registers complete, in order. -/
def packs (labels : Labels) : List RegisterUse → List (List SpikeLabel)
  | [] => []
  | use :: rest => (labels.use use).1.toList ++ packs (labels.use use).2 rest

def left (labels : Labels) (uses : List RegisterUse) : Labels :=
  uses.foldl (fun labels use => (labels.use use).2) labels

theorem packs_append (labels : Labels) (first second : List RegisterUse) :
    labels.packs (first ++ second) = labels.packs first ++ (labels.left first).packs second := by
  induction first generalizing labels with
  | nil => rfl
  | cons use rest ih =>
    rw [List.cons_append, packs, packs, ih, List.append_assoc]
    rfl

theorem left_append (labels : Labels) (first second : List RegisterUse) :
    labels.left (first ++ second) = (labels.left first).left second :=
  List.foldl_append

end Labels

theorem packPlace?_addresses (size : Fin 3) :
    (SpikePack.addresses (size.val + 1)).map packPlace? =
      (List.range (size.val + 1)).map fun before => some ⟨size, before⟩ := by
  revert size
  decide

theorem drop_addresses {size : Fin 3} {before : Nat} (small : before < size.val + 1) :
    ∃ address,
      (SpikePack.addresses (size.val + 1)).drop before =
        address :: (SpikePack.addresses (size.val + 1)).drop (before + 1) ∧
      packPlace? address = some ⟨size, before⟩ := by
  have bound : before < (SpikePack.addresses (size.val + 1)).length := by
    simpa [SpikePack.addresses] using small
  refine ⟨_, List.drop_eq_getElem_cons bound, ?_⟩
  have same := congrArg (·[before]?) (packPlace?_addresses size)
  simpa [bound, small] using same

def packKind (size : Fin 3) : LeafKind :=
  match size with
  | 0 => .spikePack1
  | 1 => .spikePack2
  | 2 => .spikePack3

theorem owner_of_packPlace? {address : Address} {place : PackPlace}
    (found : packPlace? address = some place) : address.owner.1 = packKind place.size := by
  obtain ⟨size, -, here⟩ := List.exists_of_findSome?_eq_some found
  obtain ⟨before, index, rfl⟩ := Option.map_eq_some_iff.1 here
  have member : address ∈ SpikePack.addresses (size.val + 1) :=
    List.isSome_idxOf?.1 (by rw [index]; rfl)
  have all : ∀ size : Fin 3, ∀ address ∈ SpikePack.addresses (size.val + 1),
      address.owner.1 = packKind size := by decide
  exact all size address member

namespace Labels

/-- Uses that neither complete a pack nor change the labels left. -/
def Quiet (uses : List RegisterUse) : Prop :=
  ∀ use ∈ uses, ∀ labels : Labels, labels.use use = (none, labels)

theorem packs_of_quiet {uses : List RegisterUse} (quiet : Quiet uses) (labels : Labels) :
    labels.packs uses = [] ∧ labels.left uses = labels := by
  induction uses with
  | nil => exact ⟨rfl, rfl⟩
  | cons use rest ih =>
    obtain ⟨here, later⟩ := List.forall_mem_cons.1 quiet
    rw [packs, left, List.foldl_cons, here labels]
    exact ih later

theorem quiet_loads (addresses : List Address) : Quiet (addresses.map .load) := by
  intro use member labels
  obtain ⟨address, -, rfl⟩ := List.mem_map.1 member
  rfl

def only (size : Fin 3) (pack : List SpikeLabel) : Labels :=
  empty.keep size pack

theorem only_nil (size : Fin 3) : only size [] = empty := by
  revert size
  decide

theorem put_only {size : Fin 3} (before : List SpikeLabel) (label : SpikeLabel) :
    (only size before).put ⟨size, before.length⟩ label =
      if before.length + 1 = size.val + 1 then (some (before ++ [label]), empty)
      else (none, only size (before ++ [label])) := by
  have held : (only size before).get size = before := Vector.getElem_set_self size.isLt
  have offers : (only size before).offered ⟨size, before.length⟩ label = before ++ [label] := by
    rw [offered, held, List.take_length]
  have again (pack : List SpikeLabel) :
      (only size before).keep size pack = only size pack := by
    simp [only, keep]
  unfold put
  dsimp only
  rw [offers, again, again, only_nil, List.length_append, List.length_singleton]

theorem packs_fill (size : Fin 3) (before : List SpikeLabel) {later : List SpikeLabel}
    (whole : before.length + later.length = size.val + 1) (more : later ≠ []) :
    let uses := (((SpikePack.addresses (size.val + 1)).drop before.length).zip
      (wordsOf .omnibus (later.map UInt16.toNat))).map fun (address, word) =>
        RegisterUse.store address word
    (only size before).packs uses = [before ++ later] ∧ (only size before).left uses = empty := by
  induction later generalizing before with
  | nil => exact absurd rfl more
  | cons label rest ih =>
    rw [List.length_cons] at whole
    obtain ⟨address, apart, place⟩ := drop_addresses
      (show before.length < size.val + 1 by omega)
    have raw : UInt16.ofNat (Word.ofNat .omnibus label.toNat).raw = label := by
      have small := label.toNat_lt
      rw [Word.raw_ofNat_of_lt (by omega), UInt16.ofNat_toNat]
    have first : (only size before).use (.store address (Word.ofNat .omnibus label.toNat)) =
        (only size before).put ⟨size, before.length⟩ label := by
      simp only [use, place, raw]
    rw [apart, wordsOf, List.map_cons, List.map_cons, List.zip_cons_cons, List.map_cons]
    dsimp only
    rw [packs, left, List.foldl_cons, first, put_only]
    by_cases last : before.length + 1 = size.val + 1
    · obtain rfl : rest = [] := List.length_eq_zero_iff.1 (by omega)
      rw [if_pos last]
      simp [packs]
    · rw [if_neg last]
      have others := ih (before ++ [label])
        (by rw [List.length_append, List.length_singleton]; omega)
        (by rintro rfl; simp at whole; omega)
      rw [List.length_append, List.length_singleton, List.append_assoc] at others
      exact others

end Labels

end Board

open Board Labels

def LeafKind.labels? : (kind : LeafKind) → kind.Value → Option (List SpikeLabel)
  | spikePack1, pack => some pack.labels.toList
  | spikePack2, pack => some pack.labels.toList
  | spikePack3, pack => some pack.labels.toList
  | _, _ => none

namespace LeafWrite

def pack? (write : LeafWrite) : Option (List SpikeLabel) :=
  write.place.kind.labels? write.value

theorem quiet_stores {write : LeafWrite} (regular : write.place.Regular)
    (other : ∀ size, write.place.kind ≠ packKind size) : Quiet write.stores := by
  intro use member labels
  obtain ⟨⟨address, word⟩, stored, rfl⟩ := List.mem_map.1 member
  have owner := LeafKind.owner_of_mem regular.regular write.place.coord (List.of_mem_zip stored).1
  cases found : packPlace? address with
  | none => simp only [Labels.use, found]
  | some place =>
    have owned := owner_of_packPlace? found
    rw [owner] at owned
    exact absurd owned (other place.size)

theorem packs_of_pack (size : Fin 3) {pack : List SpikeLabel} (whole : pack.length = size.val + 1) :
    let uses := ((SpikePack.addresses (size.val + 1)).zip
      (wordsOf .omnibus (pack.map UInt16.toNat))).map fun (address, word) =>
        RegisterUse.store address word
    empty.packs uses = [pack] ∧ empty.left uses = empty := by
  have filled := packs_fill size [] (by simpa using whole) (by rintro rfl; simp at whole)
  rwa [only_nil] at filled

theorem packs_stores {write : LeafWrite} (regular : write.place.Regular) :
    empty.packs write.stores = write.pack?.toList ∧ empty.left write.stores = empty := by
  obtain ⟨⟨kind, coord, backend⟩, value⟩ := write
  cases kind with
  | spikePack1 =>
    obtain rfl := List.mem_singleton.1 regular.supported
    exact packs_of_pack 0 value.labels.length_toList
  | spikePack2 =>
    obtain rfl := List.mem_singleton.1 regular.supported
    exact packs_of_pack 1 value.labels.length_toList
  | spikePack3 =>
    obtain rfl := List.mem_singleton.1 regular.supported
    exact packs_of_pack 2 value.labels.length_toList
  | _ => exact packs_of_quiet (quiet_stores regular (by dsimp only; decide)) empty

theorem packs_writes {writes : List LeafWrite} (each : ∀ write ∈ writes, write.place.Regular) :
    empty.packs (writes.flatMap stores) = writes.filterMap pack? ∧
      empty.left (writes.flatMap stores) = empty := by
  induction writes with
  | nil => exact ⟨rfl, rfl⟩
  | cons write rest ih =>
    obtain ⟨own, each⟩ := List.forall_mem_cons.1 each
    obtain ⟨pack, nothing⟩ := packs_stores own
    obtain ⟨others, none⟩ := ih each
    rw [List.flatMap_cons, packs_append, left_append, pack, nothing, others, none]
    refine ⟨?_, rfl⟩
    cases found : write.pack? <;> simp [found]

end LeafWrite

end Playback
