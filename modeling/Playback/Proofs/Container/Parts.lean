import Mathlib.Data.List.Basic
import Playback.Container.Catalogue

/-! The leaves of a node, each with its place and with its part of the value.

A composite nests visits. Flattened, its leaves are leaves of the library at known places, and each
has a part of the whole value to itself.
-/

set_option autoImplicit false

namespace Playback

variable {U V W : Type}

namespace Part

def whole : Part V V where
  get v := v
  set w _ := w

def inside (outer : Part U V) (inner : Part V W) : Part U W where
  get u := inner.get (outer.get u)
  set w u := outer.set (inner.set w (outer.get u)) u

end Part

namespace LeafSite

theorem within_whole (site : LeafSite V) : site.within .whole = site := by
  have same (backend : Backend) (words : List Word) (v : V) :
      (site.within .whole).decode backend words v = site.decode backend words v := by
    dsimp only [within, Part.whole]
    cases site.decode backend words v <;> rfl
  unfold within
  congr
  funext backend words v
  exact same backend words v

theorem within_within (site : LeafSite W) (inner : Part V W) (outer : Part U V) :
    (site.within inner).within outer = site.within (outer.inside inner) := by
  unfold within
  congr
  funext backend words u
  dsimp only [Part.inside]
  cases site.decode backend words (inner.get (outer.get u)) <;> rfl

end LeafSite

/-- A leaf of the library at its place, with its part of a larger value. -/
structure LeafPart (V : Type) where
  kind : LeafKind
  coord : kind.Coord
  part : Part V kind.Value

namespace LeafPart

def site (leaf : LeafPart V) : LeafSite V :=
  (leaf.kind.leaf.at leaf.coord).within leaf.part

def within (outer : Part U V) (leaf : LeafPart V) : LeafPart U :=
  { leaf with part := outer.inside leaf.part }

theorem site_within (outer : Part U V) (leaf : LeafPart V) :
    (leaf.within outer).site = leaf.site.within outer :=
  (leaf.kind.leaf.at leaf.coord).within_within leaf.part outer |>.symm

end LeafPart

namespace NodeKind

def rowParts (row : SynapseRowOnChip) : List (LeafPart SynapseRow) :=
  Site.all.map fun column => ⟨.synapseQuad, ⟨row, column⟩, SynapseRow.quad column⟩

def chipParts : List (LeafPart Chip) :=
  (Site.all.map fun s => ⟨.commonSynramConfig, s, Chip.synram s⟩)
    ++ (Site.all.flatMap fun row => (rowParts row).map (.within (Chip.row row)))
    ++ (Site.all.map fun n => ⟨.neuronConfig, n, Chip.neuron n⟩)
    ++ [⟨.systimeSyncBase, ⟨⟩, Chip.base⟩]

def parts : (kind : NodeKind) → kind.Coord → List (LeafPart kind.Value)
  | leaf kind, coord => [⟨kind, coord, .whole⟩]
  | synapseRow, row => rowParts row
  | chip, _ => chipParts
  | timerTwice, _ =>
    [⟨.timer, .first Nat.zero_lt_two, ⟨TimerTwice.first, fun first both => { both with first }⟩⟩,
      ⟨.timer, .first Nat.zero_lt_two,
        ⟨TimerTwice.second, fun second both => { both with second }⟩⟩]
  | mixed, _ =>
    [⟨.simOnly, ⟨⟩, ⟨Mixed.sim, fun sim mixed => { mixed with sim }⟩⟩,
      ⟨.pllClockOutput, .first Nat.zero_lt_two, ⟨Mixed.pll, fun pll mixed => { mixed with pll }⟩⟩]
  | hollow, _ => []

end NodeKind

namespace Node

variable {C D : Type}

theorem site?_within (part : Part V W) (visit : Visit W) :
    (visit.within part).site? = visit.site?.map (LeafSite.within · part) := by
  cases visit <;> rfl

theorem filterMap_visitsWithin (node : Node D W) (coord : D) (part : Part V W) :
    (node.visitsWithin coord part).filterMap Visit.site? =
      (node.leaves coord).map (LeafSite.within · part) := by
  simp only [visitsWithin, leaves, List.filterMap_map, List.map_filterMap]
  congr
  funext visit
  exact site?_within part visit

end Node

namespace NodeKind

theorem leaves_composite {C : Type} [Coordinate C] (name : String) (blank : V)
    (children : C → List (Visit V)) (coord : C) :
    (Node.composite name blank children).leaves coord = (children coord).filterMap Visit.site? :=
  rfl

theorem leaves_row (row : SynapseRowOnChip) :
    SynapseRow.node.leaves row = (rowParts row).map LeafPart.site := by
  rw [SynapseRow.node, leaves_composite, List.filterMap_flatMap, rowParts, List.map_map]
  simp only [Node.filterMap_visitsWithin]
  rfl

theorem leaves_chip (coord : Unique) : Chip.node.leaves coord = chipParts.map LeafPart.site := by
  have rows (row : SynapseRowOnChip) :
      ((rowParts row).map (LeafPart.within (Chip.row row))).map LeafPart.site =
        (SynapseRow.node.leaves row).map (LeafSite.within · (Chip.row row)) := by
    rw [leaves_row, List.map_map, List.map_map]
    exact List.map_congr_left fun leaf _ => leaf.site_within _
  simp only [chipParts, List.map_append, List.map_flatMap, rows]
  rw [Chip.node, leaves_composite]
  simp only [List.filterMap_append, List.filterMap_flatMap, Node.filterMap_visitsWithin]
  rfl

theorem leaves_eq (kind : NodeKind) (coord : kind.Coord) :
    kind.node.leaves coord = (kind.parts coord).map LeafPart.site := by
  cases kind with
  | leaf kind =>
    change [kind.leaf.at coord] = [(kind.leaf.at coord).within .whole]
    rw [LeafSite.within_whole]
  | synapseRow => exact leaves_row coord
  | chip => exact leaves_chip coord
  | timerTwice => rfl
  | mixed => rfl
  | hollow => rfl

theorem kind_of_mem_rowParts {row : SynapseRowOnChip} {part : LeafPart SynapseRow}
    (member : part ∈ rowParts row) : part.kind = .synapseQuad := by
  obtain ⟨column, -, rfl⟩ := List.mem_map.1 member
  rfl

theorem kind_ne_badCount {kind : NodeKind} (composite : ∀ leaf : LeafKind, kind ≠ .leaf leaf)
    {coord : kind.Coord} {part : LeafPart kind.Value} (member : part ∈ kind.parts coord) :
    part.kind ≠ .badCount := by
  cases kind with
  | leaf leaf => exact absurd rfl (composite leaf)
  | synapseRow =>
    rw [kind_of_mem_rowParts member]
    decide
  | chip =>
    have all : ∀ part ∈ chipParts, part.kind ≠ .badCount := by decide
    exact all part member
  | timerTwice | mixed | hollow =>
    cases coord
    revert part
    decide

end NodeKind

namespace Part

variable {X : Type}

def Apart (first : Part V W) (second : Part V X) : Prop :=
  ∀ x v, first.get (second.set x v) = first.get v

/-- Setting one of two parts leaves the other as it is. -/
def Separate (first : Part V W) (second : Part V X) : Prop :=
  first.Apart second ∧ second.Apart first

theorem lawful_inside {outer : Part U V} {inner : Part V W} (first : outer.Lawful)
    (second : inner.Lawful) : (outer.inside inner).Lawful where
  get_set w u := by simp only [inside, first.get_set, second.get_set]
  set_get u := by simp only [inside, second.set_get, first.set_get]
  set_set a b u := by simp only [inside, first.get_set, second.set_set, first.set_set]

theorem lawful_whole : (whole : Part V V).Lawful :=
  ⟨fun _ _ => rfl, fun _ => rfl, fun _ _ _ => rfl⟩

theorem apart_entry {n : Nat} {get : V → Vector W n} {set : Vector W n → V → V}
    (field : Lawful ⟨get, set⟩) {i j : Fin n} (other : i ≠ j) :
    (entry get set i).Apart (entry get set j) := by
  intro w v
  have read : get (set ((get v).set j w) v) = (get v).set j w := field.get_set _ v
  have distinct : j.val ≠ i.val := fun same => other (Fin.ext same.symm)
  simp [entry, read, Vector.getElem_set_ne, distinct]

theorem apart_inside {outer : Part U V} {first : Part V W} {second : Part V X}
    (lawful : outer.Lawful) (apart : first.Apart second) :
    (outer.inside first).Apart (outer.inside second) := by
  intro x u
  simp only [inside, lawful.get_set]
  exact apart x _

theorem inside_apart {Y : Type} {outer : Part U V} {other : Part U X} {first : Part V W}
    {second : Part X Y} (apart : outer.Apart other) :
    (outer.inside first).Apart (other.inside second) := by
  intro y u
  exact congrArg first.get (apart _ u)

theorem separate_entry {n : Nat} {get : V → Vector W n} {set : Vector W n → V → V}
    (field : Lawful ⟨get, set⟩) {i j : Fin n} (other : i ≠ j) :
    (entry get set i).Separate (entry get set j) :=
  ⟨apart_entry field other, apart_entry field other.symm⟩

theorem separate_inside {outer : Part U V} {first : Part V W} {second : Part V X}
    (lawful : outer.Lawful) (separate : first.Separate second) :
    (outer.inside first).Separate (outer.inside second) :=
  ⟨apart_inside lawful separate.1, apart_inside lawful separate.2⟩

theorem inside_separate {Y : Type} {outer : Part U V} {other : Part U X} {first : Part V W}
    {second : Part X Y} (separate : outer.Separate other) :
    (outer.inside first).Separate (other.inside second) :=
  ⟨inside_apart separate.1, inside_apart separate.2⟩

end Part

theorem Site.pairwise_all {kind : String} {size : Nat} :
    (Site.all : List (Site kind size)).Pairwise (· ≠ ·) := by
  refine List.pairwise_map.2 ((List.nodup_finRange size).imp ?_)
  intro i j other same
  exact other (congrArg Site.position same)

namespace LeafPart

def backend (explicit : Option Backend) (leaf : LeafPart V) : Backend :=
  explicit.getD leaf.kind.leaf.defaultBackend

theorem decode_site (leaf : LeafPart V) (backend : Backend) (words : List Word) (v : V) :
    leaf.site.decode backend words v =
      (leaf.kind.leaf.decode backend words (leaf.part.get v)).map (leaf.part.set · v) := by
  change (do return leaf.part.set (← leaf.kind.leaf.decode backend words (leaf.part.get v)) v) = _
  cases leaf.kind.leaf.decode backend words (leaf.part.get v) <;> rfl

def Apart (first second : LeafPart V) : Prop :=
  first.part.Apart second.part

def Separate (first second : LeafPart V) : Prop :=
  first.part.Separate second.part

/-- Leaves that each have a part of the value to themselves. -/
structure Divide (parts : List (LeafPart V)) : Prop where
  lawful : ∀ leaf ∈ parts, leaf.part.Lawful
  apart : parts.Pairwise Apart

end LeafPart

namespace NodeKind

theorem lawful_quads :
    Part.Lawful ⟨SynapseRow.quads, fun quads row => { row with quads }⟩ :=
  ⟨fun _ _ => rfl, fun _ => rfl, fun _ _ _ => rfl⟩

theorem lawful_synrams :
    Part.Lawful ⟨Chip.commonSynramConfigs,
      fun commonSynramConfigs chip => { chip with commonSynramConfigs }⟩ :=
  ⟨fun _ _ => rfl, fun _ => rfl, fun _ _ _ => rfl⟩

theorem lawful_rows :
    Part.Lawful ⟨Chip.synapseRows, fun synapseRows chip => { chip with synapseRows }⟩ :=
  ⟨fun _ _ => rfl, fun _ => rfl, fun _ _ _ => rfl⟩

theorem lawful_neurons : Part.Lawful ⟨Chip.neurons, fun neurons chip => { chip with neurons }⟩ :=
  ⟨fun _ _ => rfl, fun _ => rfl, fun _ _ _ => rfl⟩

theorem lawful_row (row : SynapseRowOnChip) : ∀ leaf ∈ rowParts row, leaf.part.Lawful := by
  intro leaf member
  obtain ⟨column, -, rfl⟩ := List.mem_map.1 member
  exact Part.lawful_entry lawful_quads _

theorem lawful_chip : ∀ leaf ∈ chipParts, leaf.part.Lawful := by
  intro leaf member
  simp only [chipParts, List.mem_append, List.mem_map, List.mem_flatMap, List.mem_singleton]
    at member
  obtain ((⟨s, -, rfl⟩ | ⟨row, -, quad, among, rfl⟩) | ⟨n, -, rfl⟩) | rfl := member
  · exact Part.lawful_entry lawful_synrams _
  · exact Part.lawful_inside (Part.lawful_entry lawful_rows _) (lawful_row row quad among)
  · exact Part.lawful_entry lawful_neurons _
  · exact ⟨fun _ _ => rfl, fun _ => rfl, fun _ _ _ => rfl⟩

theorem separate_row (row : SynapseRowOnChip) : (rowParts row).Pairwise LeafPart.Separate := by
  refine List.pairwise_map.2 (Site.pairwise_all.imp fun other => ?_)
  exact Part.separate_entry lawful_quads fun same => other (congrArg Site.mk same)

theorem separate_chip : chipParts.Pairwise LeafPart.Separate := by
  have synrams : (Site.all.map fun s : SynramOnChip =>
      (⟨.commonSynramConfig, s, Chip.synram s⟩ : LeafPart Chip)).Pairwise LeafPart.Separate := by
    refine List.pairwise_map.2 (Site.pairwise_all.imp fun other => ?_)
    exact Part.separate_entry lawful_synrams fun same => other (congrArg Site.mk same)
  have neurons : (Site.all.map fun n : NeuronOnChip =>
      (⟨.neuronConfig, n, Chip.neuron n⟩ : LeafPart Chip)).Pairwise LeafPart.Separate := by
    refine List.pairwise_map.2 (Site.pairwise_all.imp fun other => ?_)
    exact Part.separate_entry lawful_neurons fun same => other (congrArg Site.mk same)
  have rows : (Site.all.flatMap fun row : SynapseRowOnChip =>
      (rowParts row).map (LeafPart.within (Chip.row row))).Pairwise LeafPart.Separate := by
    refine List.pairwise_flatMap.2 ⟨fun row _ => ?_, Site.pairwise_all.imp fun other => ?_⟩
    · refine List.pairwise_map.2 ((separate_row row).imp fun separate => ?_)
      exact Part.separate_inside (Part.lawful_entry lawful_rows _) separate
    · intro first among second within
      obtain ⟨_, -, rfl⟩ := List.mem_map.1 among
      obtain ⟨_, -, rfl⟩ := List.mem_map.1 within
      refine Part.inside_separate (Part.separate_entry lawful_rows fun same => ?_)
      exact other (congrArg Site.mk same)
  -- The groups lie in different fields.
  simp only [chipParts, List.pairwise_append, List.pairwise_singleton, synrams, neurons, rows,
    true_and, List.mem_append, List.mem_map, List.mem_flatMap, List.mem_singleton]
  refine ⟨⟨?_, ?_⟩, ?_⟩
  · rintro _ ⟨s, -, rfl⟩ _ ⟨row, -, quad, -, rfl⟩
    exact ⟨fun _ _ => rfl, fun _ _ => rfl⟩
  · rintro _ (⟨s, -, rfl⟩ | ⟨row, -, quad, -, rfl⟩) _ ⟨n, -, rfl⟩
    · exact ⟨fun _ _ => rfl, fun _ _ => rfl⟩
    · exact ⟨fun _ _ => rfl, fun _ _ => rfl⟩
  · rintro _ ((⟨s, -, rfl⟩ | ⟨row, -, quad, -, rfl⟩) | ⟨n, -, rfl⟩) _ rfl
    · exact ⟨fun _ _ => rfl, fun _ _ => rfl⟩
    · exact ⟨fun _ _ => rfl, fun _ _ => rfl⟩
    · exact ⟨fun _ _ => rfl, fun _ _ => rfl⟩

theorem lawful_parts (kind : NodeKind) (coord : kind.Coord) :
    ∀ leaf ∈ kind.parts coord, leaf.part.Lawful := by
  cases kind with
  | leaf kind => exact List.forall_mem_singleton.2 Part.lawful_whole
  | synapseRow => exact lawful_row coord
  | chip => exact lawful_chip
  | timerTwice | mixed =>
    refine List.forall_mem_cons.2 ⟨?_, List.forall_mem_singleton.2 ?_⟩
    · exact ⟨fun _ _ => rfl, fun _ => rfl, fun _ _ _ => rfl⟩
    · exact ⟨fun _ _ => rfl, fun _ => rfl, fun _ _ _ => rfl⟩
  | hollow => nofun

theorem separate_parts (kind : NodeKind) (coord : kind.Coord) :
    (kind.parts coord).Pairwise LeafPart.Separate := by
  cases kind with
  | leaf kind => exact List.pairwise_singleton _ _
  | synapseRow => exact separate_row coord
  | chip => exact separate_chip
  | timerTwice | mixed => exact List.pairwise_pair.2 ⟨fun _ _ => rfl, fun _ _ => rfl⟩
  | hollow => exact .nil

theorem divide_parts (kind : NodeKind) (coord : kind.Coord) :
    LeafPart.Divide (kind.parts coord) where
  lawful := kind.lawful_parts coord
  apart := (kind.separate_parts coord).imp And.left

end NodeKind

namespace LeafPart

variable {X : Type} {explicit : Option Backend} {parts : List (LeafPart V)}

theorem gather_parts {α : Type} (give : LeafSite V → Backend → List α)
    (supported : Leaves.unsupported? explicit (parts.map site) = none) :
    Leaves.gather explicit give (parts.map site) =
      parts.flatMap fun leaf => give leaf.site (leaf.backend explicit) := by
  rw [Leaves.unsupported?_eq_none_iff, List.forall_mem_map] at supported
  unfold Leaves.gather
  rw [List.flatMap_map]
  refine List.flatMap_congr fun leaf member => ?_
  rw [LeafSite.resolve_eq_ok_iff.2 ⟨rfl, supported leaf member⟩]
  rfl

theorem decode_cons (leaf : LeafPart V) (rest : List (LeafPart V)) {words : List Word}
    (later : List Word) (size : words.length = leaf.kind.leaf.readWords) (v : V) :
    Leaves.decode explicit ((leaf :: rest).map site) (words ++ later) v =
      match leaf.kind.leaf.decode (leaf.backend explicit) words (leaf.part.get v) with
      | .error e => { value := v, consumed := words.length, error := some e }
      | .ok w =>
        let outcome := Leaves.decode explicit (rest.map site) later (leaf.part.set w v)
        { outcome with consumed := words.length + outcome.consumed } := by
  have own : leaf.site.readWords = words.length := size.symm
  have enough : ¬(words ++ later).length < words.length := by simp
  have through : leaf.site.backendFor explicit = leaf.backend explicit := rfl
  simp only [List.map_cons, Leaves.decode, own, if_neg enough, List.take_left, List.drop_left,
    decode_site, through]
  cases leaf.kind.leaf.decode (leaf.backend explicit) words (leaf.part.get v) <;> rfl

-- The leaves that follow do not touch another part.
theorem get_decode {other : Part V X} (apart : ∀ leaf ∈ parts, other.Apart leaf.part)
    (words : List Word) (v : V) :
    other.get (Leaves.decode explicit (parts.map site) words v).value = other.get v := by
  induction parts generalizing words v with
  | nil => rfl
  | cons leaf rest ih =>
    have later := ih fun next member => apart next (List.mem_cons_of_mem _ member)
    simp only [List.map_cons, Leaves.decode, decode_site]
    split
    · rfl
    · cases leaf.kind.leaf.decode _ _ (leaf.part.get v) with
      | error e => rfl
      | ok w => exact (later _ _).trans (apart leaf (List.mem_cons_self ..) w v)

-- What every leaf of a divided value decodes is what its part holds in the end.
theorem decode_parts (divide : Divide parts) (words : LeafPart V → List Word)
    (sizes : ∀ leaf ∈ parts, (words leaf).length = leaf.kind.leaf.readWords) {blank : V}
    (decodes : (Leaves.decode explicit (parts.map site) (parts.flatMap words) blank).error = none) :
    ∀ leaf ∈ parts, ∃ start,
      leaf.kind.leaf.decode (leaf.backend explicit) (words leaf) start = .ok (leaf.part.get
        (Leaves.decode explicit (parts.map site) (parts.flatMap words) blank).value) := by
  induction parts generalizing blank with
  | nil => nofun
  | cons leaf rest ih =>
    obtain ⟨lawful, lawfulRest⟩ := List.forall_mem_cons.1 divide.lawful
    obtain ⟨apart, apartRest⟩ := List.pairwise_cons.1 divide.apart
    obtain ⟨size, sizesRest⟩ := List.forall_mem_cons.1 sizes
    rw [List.flatMap_cons] at decodes ⊢
    rw [decode_cons leaf rest _ size] at decodes ⊢
    cases reads : leaf.kind.leaf.decode (leaf.backend explicit) (words leaf)
        (leaf.part.get blank) with
    | error e => simp [reads] at decodes
    | ok w =>
      simp only [reads] at decodes ⊢
      refine List.forall_mem_cons.2 ⟨⟨leaf.part.get blank, ?_⟩, ?_⟩
      · rw [get_decode apart, lawful.get_set]
        exact reads
      · exact ih ⟨lawfulRest, apartRest⟩ sizesRest decodes

end LeafPart

end Playback
