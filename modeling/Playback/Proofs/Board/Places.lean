import Playback.Proofs.Board.Registers
import Playback.Proofs.Container.Parts
import Playback.Proofs.Container.RegisterMap

/-! Leaves in memory.

A leaf at a place, through one backend, has registers of its own. So they show the latest write of
this leaf there, whatever else was written before and after.
-/

set_option autoImplicit false

namespace Playback

instance LeafKind.decidableEqCoord : (kind : LeafKind) → DecidableEq kind.Coord
  | timer => inferInstanceAs (DecidableEq TimerOnChip)
  | commonSynramConfig => inferInstanceAs (DecidableEq SynramOnChip)
  | synapseQuad => inferInstanceAs (DecidableEq SynapseQuadOnChip)
  | neuronConfig => inferInstanceAs (DecidableEq NeuronOnChip)
  | pllClockOutput => inferInstanceAs (DecidableEq AdpllOnChip)
  | systimeSync | systimeSyncBase | resetChip | spikePack1 | spikePack2 | spikePack3
  | simOnly | readOnly | badCount | crossWord | badDefault | shortRead | longRead =>
    inferInstanceAs (DecidableEq Unique)

/-- A leaf of the library, a coordinate and a backend. -/
structure Place where
  kind : LeafKind
  coord : kind.Coord
  backend : Backend
  deriving DecidableEq

namespace Place

/-- The leaf is one of a chip's own and supports the backend. -/
structure Regular (place : Place) : Prop where
  regular : place.kind.isRegular = true
  supported : place.backend ∈ place.kind.leaf.supported

def addresses (place : Place) : List Address :=
  place.kind.leaf.writeAddresses place.coord place.backend

theorem eq_of_mem {place other : Place} (regular : place.Regular) (also : other.Regular)
    {address : Address} (here : address ∈ place.addresses) (there : address ∈ other.addresses) :
    place = other := by
  have owner := LeafKind.owner_of_mem regular.regular place.coord here
  have owned := LeafKind.owner_of_mem also.regular other.coord there
  have backend := LeafKind.backend_of_mem regular.regular place.coord regular.supported here
  have backed := LeafKind.backend_of_mem also.regular other.coord also.supported there
  obtain ⟨kind, coord, through⟩ := place
  obtain ⟨otherKind, otherCoord, otherThrough⟩ := other
  obtain ⟨same, index⟩ := Prod.mk.inj (owner.symm.trans owned)
  dsimp only at same backend backed
  subst same backend backed
  cases LeafKind.index_inj index
  rfl

end Place

def LeafPart.place {V : Type} (explicit : Option Backend) (leaf : LeafPart V) : Place where
  kind := leaf.kind
  coord := leaf.coord
  backend := leaf.backend explicit

structure LeafWrite where
  place : Place
  value : place.kind.Value

namespace LeafWrite

def words (write : LeafWrite) : List Word :=
  write.place.kind.leaf.encode write.value write.place.backend

def stores (write : LeafWrite) : List RegisterUse :=
  (write.place.addresses.zip write.words).map fun (address, word) => .store address word

def latest? (place : Place) : List LeafWrite → Option place.kind.Value
  | [] => none
  | write :: later =>
    (latest? place later).or
      (if here : write.place = place then some (here ▸ write.value) else none)

end LeafWrite

namespace RegisterUse

theorem after_stores_of_not_mem {addresses : List Address} (words : List Word) {address : Address}
    (elsewhere : address ∉ addresses) (memory : Memory) :
    after memory ((addresses.zip words).map fun (address, word) => .store address word) address =
      memory address := by
  induction addresses generalizing words memory with
  | nil => rfl
  | cons other rest ih =>
    obtain ⟨apart, elsewhere⟩ := not_or.1 (List.mem_cons.not.1 elsewhere)
    cases words with
    | nil => rfl
    | cons word later =>
      have kept : Function.update memory other word address = memory address :=
        Function.update_of_ne apart word memory
      exact (ih later elsewhere _).trans kept

theorem map_after_stores {addresses : List Address} {words : List Word} (distinct : addresses.Nodup)
    (same : addresses.length = words.length) (memory : Memory) :
    addresses.map
        (after memory ((addresses.zip words).map fun (address, word) => .store address word)) =
      words := by
  induction addresses generalizing words memory with
  | nil => exact (List.length_eq_zero_iff.1 same.symm).symm
  | cons address rest ih =>
    obtain ⟨fresh, distinct⟩ := List.nodup_cons.1 distinct
    cases words with
    | nil => cases same
    | cons word later =>
      have here := after_stores_of_not_mem later fresh (Function.update memory address word)
      have there := ih distinct (Nat.succ.inj same) (Function.update memory address word)
      rw [Function.update_self] at here
      exact congr (congrArg List.cons here) there

end RegisterUse

open RegisterUse

namespace LeafWrite

theorem map_after_own {write : LeafWrite} (regular : write.place.Regular) (memory : Memory) :
    write.place.addresses.map (after memory write.stores) = write.words := by
  apply map_after_stores
  · exact LeafKind.nodup_writeAddresses regular.regular write.place.coord write.place.backend
  · refine LeafKind.length_encode (fun bad => ?_) write.place.coord write.value write.place.backend
    have := regular.regular
    rw [bad] at this
    cases this

theorem map_after_other {write : LeafWrite} {place : Place} (regular : place.Regular)
    (also : write.place.Regular) (other : write.place ≠ place) (memory : Memory) :
    place.addresses.map (after memory write.stores) = place.addresses.map memory := by
  refine List.map_congr_left fun address member => ?_
  apply after_stores_of_not_mem
  intro there
  exact other (Place.eq_of_mem also regular there member)

theorem addresses_after {writes : List LeafWrite} (each : ∀ write ∈ writes, write.place.Regular)
    {place : Place} (regular : place.Regular) (memory : Memory) :
    place.addresses.map (after memory (writes.flatMap stores)) =
      match latest? place writes with
      | some value => place.kind.leaf.encode value place.backend
      | none => place.addresses.map memory := by
  induction writes generalizing memory with
  | nil => rfl
  | cons write later ih =>
    obtain ⟨own, each⟩ := List.forall_mem_cons.1 each
    rw [List.flatMap_cons, after_append, ih each, latest?]
    cases latest? place later with
    | some value => rfl
    | none =>
      by_cases here : write.place = place
      · subst here
        rw [dif_pos rfl]
        exact map_after_own own memory
      · rw [dif_neg here]
        exact map_after_other regular own here memory

end LeafWrite

end Playback
