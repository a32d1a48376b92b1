import Playback.Proofs.Container.Trees
import Playback.Proofs.Recording.Restrictions

/-! Writes that a builder accepts.

A write of one of a chip's own nodes fails for two reasons only: a leaf does not support its
backend, or the builder is restricted to another kind of executor. Otherwise there are registers to
write, each leaf makes a word for each of its own, and words and registers have the same backend.
-/

set_option autoImplicit false

namespace Playback

namespace LeafKind

theorem writeAddresses_ne_nil {kind : LeafKind} (regular : kind.isRegular = true)
    (coord : kind.Coord) (backend : Backend) : kind.leaf.writeAddresses coord backend ≠ [] := by
  cases kind with
  | systimeSyncBase | commonSynramConfig => cases backend <;> exact List.cons_ne_nil _ _
  | simOnly | readOnly | badCount | crossWord | badDefault | shortRead | longRead => cases regular
  | _ => exact List.cons_ne_nil _ _

end LeafKind

namespace NodeKind

variable {kind : NodeKind} {coord : kind.Coord}

theorem parts_ne_nil (regular : kind.isRegular = true) (coord : kind.Coord) :
    kind.parts coord ≠ [] := by
  cases kind with
  | timerTwice | mixed | hollow => cases regular
  | _ => exact List.cons_ne_nil _ _

theorem writeAddresses_ne_nil (regular : kind.isRegular = true) {explicit : Option Backend}
    (supported : ∀ site ∈ kind.node.leaves coord, site.backendFor explicit ∈ site.supported) :
    Leaves.writeAddresses explicit (kind.node.leaves coord) ≠ [] := by
  obtain ⟨leaf, rest, parts⟩ := List.exists_cons_of_ne_nil (parts_ne_nil regular coord)
  have member : leaf ∈ kind.parts coord := parts ▸ List.mem_cons_self
  have own := LeafKind.writeAddresses_ne_nil (isRegular_of_mem_parts regular member) leaf.coord
    (leaf.backend explicit)
  rw [writeAddresses_eq supported, parts, List.flatMap_cons]
  exact List.append_ne_nil_of_left_ne_nil own _

end NodeKind

namespace Builder

theorem exists_pairs {addresses : List Address} {words : List Word}
    (same : words.map Word.backend = addresses.map Address.backend) :
    ∃ accesses, pairs (addresses.zip words) = .ok accesses := by
  suffices ∃ accesses : List WriteAccess,
      accesses.map WriteAccess.assignment = addresses.zip words by
    obtain ⟨accesses, paired⟩ := this
    exact ⟨accesses, pairs_eq_ok_iff.2 paired⟩
  induction addresses generalizing words with
  | nil => exact ⟨[], rfl⟩
  | cons address rest ih =>
    cases words with
    | nil => cases same
    | cons word others =>
      obtain ⟨here, later⟩ := List.cons.inj same
      have fits := WriteAccess.pair?_isSome_iff.2 here.symm
      obtain ⟨access, paired⟩ := Option.isSome_iff_exists.1 fits
      obtain ⟨rfl, rfl⟩ := WriteAccess.pair?_eq_some_iff.1 paired
      obtain ⟨accesses, assigned⟩ := ih later
      exact ⟨access :: accesses, congrArg (access.assignment :: ·) assigned⟩

-- What a supported write of a chip's own node comes to, as long as the restrictions agree.
theorem write_of_supported {kind : NodeKind} (regular : kind.isRegular = true) (coord : kind.Coord)
    (value : kind.Value) {explicit : Option Backend}
    (supported : Leaves.unsupported? explicit (kind.node.leaves coord) = none) {b : Builder}
    {restriction : Option ExecutorKind}
    (agrees : restrict kind.node.name b.restriction (Leaves.required (kind.node.leaves coord)) =
      .ok restriction) :
    ∃ next, b.write kind.node coord value explicit = .ok next ∧
      next.instructions =
        b.instructions ++ (Call.write kind.node coord value explicit).lowered ∧
      next.restriction = restriction ∧ next.leadingWaits = b.leadingWaits := by
  have each := Leaves.unsupported?_eq_none_iff.1 supported
  have backends : (Leaves.words explicit value (kind.node.leaves coord)).map Word.backend =
      (Leaves.writeAddresses explicit (kind.node.leaves coord)).map Address.backend :=
    NodeKind.backends_of_regular each regular
  have total := congrArg List.length backends
  rw [List.length_map, List.length_map] at total
  obtain ⟨accesses, paired⟩ := exists_pairs backends
  rw [← Leaves.restrictions_eq supported] at agrees
  refine ⟨_, write_eq_ok_iff.2 ⟨supported, NodeKind.writeAddresses_ne_nil regular each, total.symm,
    restriction, accesses, agrees, paired, rfl⟩, ?_, rfl, rfl⟩
  rw [Call.lowered, ← pairs_eq_ok_iff.1 paired, Call.lowered_pairs]

end Builder

end Playback
