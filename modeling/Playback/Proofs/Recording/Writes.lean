import Playback.Proofs.Container.Parts
import Playback.Proofs.Container.RegisterMap
import Playback.Proofs.Recording.Replay

/-! What a write puts where, leaf by leaf.

A builder collects the addresses of all leaves and the words of all leaves, and pairs the two lists.
Where every leaf makes a word for each of its addresses, each word lands at an address of its own
leaf.
-/

set_option autoImplicit false

namespace Playback

variable {C V : Type}

namespace Leaves

theorem gather_cons {α : Type} (explicit : Option Backend) (give : LeafSite V → Backend → List α)
    (site : LeafSite V) (rest : List (LeafSite V)) :
    gather explicit give (site :: rest) =
      (match site.resolve explicit with
        | .ok backend => give site backend
        | .error _ => []) ++ gather explicit give rest :=
  List.flatMap_cons

def assignments (explicit : Option Backend) (value : V) :
    List (LeafSite V) → List (Address × Word) :=
  gather explicit fun site backend => (site.writeAddresses backend).zip (site.encode value backend)

/-- Words and addresses are equally many at every leaf if they are so in total. -/
def Aligned (leaves : List (LeafSite V)) : Prop :=
  ∀ (explicit : Option Backend) (value : V),
    (writeAddresses explicit leaves).length = (words explicit value leaves).length →
      ∀ site ∈ leaves, ∀ backend, site.resolve explicit = .ok backend →
        (site.writeAddresses backend).length = (site.encode value backend).length

theorem aligned_of_each {leaves : List (LeafSite V)}
    (each : ∀ site ∈ leaves, ∀ backend ∈ site.supported, ∀ value,
      (site.writeAddresses backend).length = (site.encode value backend).length) :
    Aligned leaves := by
  intro explicit value total site member backend resolved
  exact each site member backend (LeafSite.resolve_eq_ok_iff.1 resolved).2 value

theorem aligned_singleton (site : LeafSite V) : Aligned [site] := by
  intro explicit value total other member backend resolved
  obtain rfl := List.mem_singleton.1 member
  simpa [writeAddresses, words, gather, resolved] using total

theorem zip_words {explicit : Option Backend} {value : V} {leaves : List (LeafSite V)}
    (same : ∀ site ∈ leaves, ∀ backend, site.resolve explicit = .ok backend →
      (site.writeAddresses backend).length = (site.encode value backend).length) :
    (writeAddresses explicit leaves).zip (words explicit value leaves) =
      assignments explicit value leaves := by
  induction leaves with
  | nil => rfl
  | cons site rest ih =>
    have later := ih fun other member => same other (List.mem_cons_of_mem _ member)
    simp only [assignments, writeAddresses, words, gather_cons] at later ⊢
    cases resolved : site.resolve explicit with
    | error e => exact later
    | ok backend =>
      have here := same site (List.mem_cons_self ..) backend resolved
      dsimp only
      rw [List.zip_append here, later]

end Leaves

namespace WriteAccess

def assignment (access : WriteAccess) : Address × Word :=
  (access.address, access.word)

end WriteAccess

namespace Builder

theorem pairs_eq_ok_iff {assignments : List (Address × Word)} {accesses : List WriteAccess} :
    pairs assignments = .ok accesses ↔ accesses.map WriteAccess.assignment = assignments := by
  induction assignments generalizing accesses with
  | nil => simp [pairs, pure, Except.pure, eq_comm]
  | cons assignment rest ih =>
    obtain ⟨address, word⟩ := assignment
    have apart : pairs ((address, word) :: rest) = .ok accesses ↔
        ∃ access, WriteAccess.pair? address word = some access ∧
          ∃ later, pairs rest = .ok later ∧ accesses = access :: later := by
      simp only [pairs, List.mapM_cons, bind_eq_ok_iff, pure, Except.pure, Except.ok.injEq]
      cases WriteAccess.pair? address word <;> simp [eq_comm]
    rw [apart]
    simp only [WriteAccess.pair?_eq_some_iff, ih]
    constructor
    · rintro ⟨access, ⟨rfl, rfl⟩, later, rfl, rfl⟩
      rfl
    · intro same
      obtain ⟨access, later, rfl, here, rfl⟩ := List.map_eq_cons_iff.1 same
      exact ⟨access, Prod.mk.inj here, later, rfl, rfl⟩

theorem assigned_of_write {node : Node C V} {coord : C} {value : V} {explicit : Option Backend}
    {b next : Builder} (aligned : Leaves.Aligned (node.leaves coord))
    (written : b.write node coord value explicit = .ok next) :
    Leaves.unsupported? explicit (node.leaves coord) = none ∧
      ∃ (restriction : Option ExecutorKind) (accesses : List WriteAccess),
        accesses.map WriteAccess.assignment =
          Leaves.assignments explicit value (node.leaves coord) ∧
        next =
          { b with
            instructions := b.instructions ++ accesses.map .write
            restriction
            watermarks := (Leaves.timerResets explicit value (node.leaves coord)).foldl
              (fun table (timer, value) => table.set timer value) b.watermarks } := by
  obtain ⟨supported, -, total, restriction, accesses, -, paired, same⟩ := write_eq_ok_iff.1 written
  refine ⟨supported, restriction, accesses, ?_, same⟩
  rw [pairs_eq_ok_iff.1 paired]
  exact Leaves.zip_words (aligned explicit value total)

end Builder

theorem NodeKind.aligned (kind : NodeKind) (coord : kind.Coord) :
    Leaves.Aligned (kind.node.leaves coord) := by
  rw [leaves_eq]
  by_cases single : ∃ leaf, kind = .leaf leaf
  · obtain ⟨leaf, rfl⟩ := single
    exact Leaves.aligned_singleton _
  · refine Leaves.aligned_of_each fun site member backend _ value => ?_
    obtain ⟨leaf, among, rfl⟩ := List.mem_map.1 member
    have counted := kind_ne_badCount (not_exists.1 single) among
    exact LeafKind.length_encode counted leaf.coord (leaf.part.get value) backend

end Playback
