import Playback.Proofs.Container.Trees
import Playback.Proofs.Program.Answers
import Playback.Proofs.Recording.Accesses

/-! What the reads of a recording show.

The words of a response go to the reads in order, so every read gets what its registers hold after
the accesses before it. Leaf by leaf this is the latest value written through the same backend, or
what was in memory before.
-/

set_option autoImplicit false

namespace Playback

namespace NodeKind

variable {kind : NodeKind} (regular : kind.isRegular = true) {coord : kind.Coord}
  {leaf : LeafPart kind.Value} {explicit : Option Backend}

include regular

theorem regular_place (supported : Leaves.unsupported? explicit (kind.node.leaves coord) = none)
    (member : leaf ∈ kind.parts coord) : (leaf.place explicit).Regular where
  regular := isRegular_of_mem_parts regular member
  supported := by
    rw [leaves_eq, Leaves.unsupported?_eq_none_iff, List.forall_mem_map] at supported
    exact supported leaf member

omit regular in
theorem readAddresses_parts
    (supported : Leaves.unsupported? explicit (kind.node.leaves coord) = none) :
    Leaves.readAddresses explicit (kind.node.leaves coord) =
      (kind.parts coord).flatMap fun leaf =>
        leaf.kind.leaf.readAddresses leaf.coord (leaf.backend explicit) :=
  gather_eq _ supported

theorem isReadable_of_mem_parts
    (supported : Leaves.unsupported? explicit (kind.node.leaves coord) = none)
    (some : Leaves.readAddresses explicit (kind.node.leaves coord) ≠ [])
    (member : leaf ∈ kind.parts coord) : leaf.kind.isReadable = true := by
  rcases kind_of_mem_parts regular member with ⟨single, rfl⟩ | readable
  · obtain rfl := List.mem_singleton.1 member
    rw [(readAddresses_parts supported).trans (List.flatMap_singleton _ _)] at some
    exact LeafKind.isReadable_of_readAddresses regular some
  · exact readable

end NodeKind

theorem Node.readWords_eq_ok {C V : Type} {node : Node C V} {coord : C} {explicit : Option Backend}
    {words : List Word} {value : V} (reads : node.readWords coord explicit words = .ok value) :
    (Leaves.decode explicit (node.leaves coord) words node.blank).error = none ∧
      (Leaves.decode explicit (node.leaves coord) words node.blank).value = value := by
  unfold readWords at reads
  dsimp only at reads
  split at reads
  · cases reads
  · split at reads
    · exact ⟨by assumption, Except.ok.inj reads⟩
    · cases reads

theorem NodeKind.decode_of_readWords {kind : NodeKind} (regular : kind.isRegular = true)
    {coord : kind.Coord} {explicit : Option Backend}
    (supported : Leaves.unsupported? explicit (kind.node.leaves coord) = none) {memory : Memory}
    {value : kind.Value}
    (reads : kind.node.readWords coord explicit
      ((Leaves.readAddresses explicit (kind.node.leaves coord)).map memory) = .ok value) :
    ∀ leaf ∈ kind.parts coord, ∃ start,
      leaf.kind.leaf.decode (leaf.backend explicit)
        ((leaf.kind.leaf.readAddresses leaf.coord (leaf.backend explicit)).map memory) start =
          .ok (leaf.part.get value) := by
  let words (leaf : LeafPart kind.Value) : List Word :=
    (leaf.kind.leaf.readAddresses leaf.coord (leaf.backend explicit)).map memory
  have sizes : ∀ leaf ∈ kind.parts coord, (words leaf).length = leaf.kind.leaf.readWords := by
    intro leaf member
    rw [List.length_map]
    exact LeafKind.length_readAddresses (isRegular_of_mem_parts regular member) _ _
  rw [readAddresses_parts supported, List.map_flatMap] at reads
  obtain ⟨decodes, rfl⟩ := Node.readWords_eq_ok reads
  rw [leaves_eq] at decodes ⊢
  exact LeafPart.decode_parts (kind.divide_parts coord) words sizes decodes

open RegisterUse

/-- What a read shows of the leaf at a place: the latest value written, else what the words in
memory stand for. -/
def Place.Shows (place : Place) (writes : List LeafWrite) (memory : Memory)
    (value : place.kind.Value) : Prop :=
  match LeafWrite.latest? place writes with
  | some written => value = written
  | none =>
    ∀ start, place.kind.leaf.decode place.backend
      ((place.kind.leaf.readAddresses place.coord place.backend).map memory) start = .ok value

-- The value that decoding starts from does not matter, so what was decoded tells both cases.
theorem Place.shows_of_decode {place : Place} (readable : place.kind.isReadable = true)
    (regular : place.Regular) {writes : List LeafWrite}
    (each : ∀ write ∈ writes, write.place.Regular) {memory : Memory}
    {start value : place.kind.Value}
    (decoded : place.kind.leaf.decode place.backend
      ((place.kind.leaf.readAddresses place.coord place.backend).map
        (after memory (writes.flatMap LeafWrite.stores))) start = .ok value) :
    place.Shows writes memory value := by
  have latest := LeafWrite.addresses_after each regular memory
  have same : place.addresses = place.kind.leaf.readAddresses place.coord place.backend := by
    rw [LeafKind.readAddresses_eq readable, addresses]
  rw [same] at latest
  rw [latest] at decoded
  unfold Shows
  cases found : LeafWrite.latest? place writes with
  | some written =>
    rw [found] at decoded
    exact Except.ok.inj (decoded.symm.trans (LeafKind.decode_encode readable written start _))
  | none =>
    rw [found] at decoded
    intro other
    rw [LeafKind.decode_congr readable _ _ other start]
    exact decoded

namespace Access

theorem uses_eq_stores {kind : NodeKind} {regular : kind.isRegular = true} {coord : kind.Coord}
    {value : kind.Value} {explicit : Option Backend}
    (allowed : (write kind regular coord value explicit).Allowed) :
    (write kind regular coord value explicit).uses =
      (write kind regular coord value explicit).written.flatMap LeafWrite.stores := by
  have supported : Leaves.unsupported? explicit (kind.node.leaves coord) = none := allowed
  rw [kind.leaves_eq] at supported
  simp only [uses, written, Leaves.assignments, kind.leaves_eq, LeafPart.gather_parts _ supported,
    List.map_flatMap, List.flatMap_map]
  rfl

theorem stores_written {access : Access} (allowed : access.Allowed) (memory : Memory) :
    after memory access.uses = after memory (access.written.flatMap LeafWrite.stores) := by
  cases access with
  | read kind regular coord explicit ticket => exact after_loads memory _
  | write kind regular coord value explicit => rw [uses_eq_stores allowed]

theorem after_accesses {accesses : List Access} (allowed : ∀ access ∈ accesses, access.Allowed)
    (memory : Memory) :
    after memory (accesses.flatMap uses) =
      after memory ((accesses.flatMap written).flatMap LeafWrite.stores) := by
  induction accesses generalizing memory with
  | nil => rfl
  | cons access rest ih =>
    obtain ⟨here, allowed⟩ := List.forall_mem_cons.1 allowed
    simp only [List.flatMap_cons, List.flatMap_append, after_append, stores_written here,
      ih allowed]

theorem regular_written {accesses : List Access} (allowed : ∀ access ∈ accesses, access.Allowed) :
    ∀ write ∈ accesses.flatMap written, write.place.Regular := by
  intro write member
  obtain ⟨access, among, inside⟩ := List.mem_flatMap.1 member
  cases access with
  | read kind regular coord explicit ticket => cases inside
  | write kind regular coord value explicit =>
    obtain ⟨leaf, part, rfl⟩ := List.mem_map.1 inside
    exact NodeKind.regular_place regular (allowed _ among) part

-- A read gets the words that its registers hold after the accesses before it.
theorem share_of_read {earlier later : List Access} {kind : NodeKind}
    {regular : kind.isRegular = true} {coord : kind.Coord} {explicit : Option Backend}
    {ticket : TicketId} {memory : Memory} {words : List ResponseWord}
    (answered : words.map ResponseWord.word =
      found memory ((earlier ++ read kind regular coord explicit ticket :: later).flatMap uses)) :
    ∃ share,
      (Request.shares ((earlier ++ read kind regular coord explicit ticket :: later).filterMap
        request?) words)[(earlier.filterMap request?).length]? = some share ∧
      share.map ResponseWord.word =
        (Leaves.readAddresses explicit (kind.node.leaves coord)).map
          (after memory (earlier.flatMap uses)) := by
  induction earlier generalizing memory words with
  | nil =>
    simp only [List.nil_append, List.flatMap_cons, found_append, uses, found_loads] at answered
    simp only [List.nil_append, List.filterMap_cons, request?, Request.shares_cons]
    refine ⟨_, rfl, ?_⟩
    rw [List.map_take, answered]
    exact List.take_left' (List.length_map _)
  | cons access rest ih =>
    simp only [List.cons_append, List.flatMap_cons, found_append, after_append] at answered ⊢
    cases access with
    | write =>
      simp only [uses, found_stores] at answered
      exact ih answered
    | read other regular place backend own =>
      simp only [uses, found_loads, after_loads] at answered ⊢
      simp only [List.filterMap_cons, request?, Request.shares_cons, List.length_cons,
        List.getElem?_cons_succ]
      apply ih
      rw [List.map_drop, answered]
      exact List.drop_left' (List.length_map _)

theorem shows_of_readWords {earlier : List Access} {kind : NodeKind}
    {regular : kind.isRegular = true} {coord : kind.Coord} {explicit : Option Backend}
    {ticket : TicketId} (allowed : ∀ access ∈ earlier, access.Allowed)
    (own : (read kind regular coord explicit ticket).Allowed) {memory : Memory} {value : kind.Value}
    (reads : kind.node.readWords coord explicit
      ((Leaves.readAddresses explicit (kind.node.leaves coord)).map
        (after memory (earlier.flatMap uses))) = .ok value) :
    ∀ leaf ∈ kind.parts coord,
      (leaf.place explicit).Shows (earlier.flatMap written) memory (leaf.part.get value) := by
  obtain ⟨supported, some⟩ := own
  rw [after_accesses allowed] at reads
  intro leaf member
  obtain ⟨start, decoded⟩ := NodeKind.decode_of_readWords regular supported reads leaf member
  exact Place.shows_of_decode (NodeKind.isReadable_of_mem_parts regular supported some member)
    (NodeKind.regular_place regular supported member) (regular_written allowed) decoded

theorem ticket_of_completes {p : Program} {accesses : List Access}
    (serves : p.Serves (accesses.filterMap request?))
    (allowed : ∀ access ∈ accesses, access.Allowed) {response : Response}
    (completes : (p.completeRun response).1 = .ok ()) {memory : Memory}
    (answered : response.words.map ResponseWord.word = found memory (accesses.flatMap uses))
    {earlier later : List Access} {kind : NodeKind} {regular : kind.isRegular = true}
    {coord : kind.Coord} {explicit : Option Backend} {ticket : TicketId}
    (split : accesses = earlier ++ read kind regular coord explicit ticket :: later) :
    ∃ slot ∈ (p.completeRun response).2.slots, slot.ticket = ticket ∧
      ∃ value : kind.Value,
        (∀ shelf : Shelf, shelf.slot? ticket = some slot →
          Ticket.get ⟨ticket, kind.node, coord, explicit⟩ shelf = .ok value) ∧
        ∀ leaf ∈ kind.parts coord,
          (leaf.place explicit).Shows (earlier.flatMap written) memory (leaf.part.get value) := by
  let request : Request := { node := kind.node, coord, explicit, ticket }
  have place : (accesses.filterMap request?)[(earlier.filterMap request?).length]? =
      some request := by
    rw [split, List.filterMap_append, List.getElem?_append_right (Nat.le_refl _), Nat.sub_self]
    rfl
  obtain ⟨slot, share, value, slotAt, given, held, decodes⟩ := serves.held_of_ok completes place
  subst split
  obtain ⟨other, own, shown⟩ := share_of_read answered
  cases given.symm.trans own
  obtain ⟨kept, time, state⟩ := held
  have named : slot.ticket = request.ticket := congrArg Slot.ticket kept
  refine ⟨slot, List.mem_of_getElem? slotAt, named, value, fun shelf found => ?_, ?_⟩
  · exact Request.get_handle found state decodes
  · rw [List.forall_mem_append, List.forall_mem_cons] at allowed
    rw [shown] at decodes
    exact shows_of_readWords allowed.1 allowed.2.1 decodes

end Access

end Playback
