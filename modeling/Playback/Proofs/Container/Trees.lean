import Playback.Proofs.Container.Encoding
import Playback.Proofs.Container.Parts
import Playback.Proofs.Container.RegisterMap

/-! Writing and reading whole trees.

A tree is written and read leaf by leaf. Every leaf takes back the words that it made, and the parts
of the leaves make up the value, so nothing of the value that decoding starts from remains.
-/

set_option autoImplicit false

namespace Playback

theorem Site.entries_ext {name : String} {size : Nat} {W : Type} {a b : Vector W size}
    (same : ∀ site : Site name size, site.entry a = site.entry b) : a = b :=
  Vector.ext fun i small => same ⟨⟨i, small⟩⟩

namespace LeafKind

variable {kind : LeafKind}

theorem length_encode_eq_readWords (readable : kind.isReadable = true) (coord : kind.Coord)
    (value : kind.Value) (backend : Backend) :
    (kind.leaf.encode value backend).length = kind.leaf.readWords := by
  have regular := isRegular_of_isReadable readable
  have counted : kind ≠ .badCount := fun same => by
    subst same
    cases regular
  rw [← length_encode counted coord, ← readAddresses_eq readable,
    length_readAddresses regular]

theorem backend_encode (regular : kind.isRegular = true) (value : kind.Value) (backend : Backend) :
    ∀ word ∈ kind.leaf.encode value backend, word.backend = backend := by
  have made (raw : List Nat) : ∀ word ∈ wordsOf backend raw, word.backend = backend := by
    intro word member
    obtain ⟨n, -, rfl⟩ := List.mem_map.1 member
    exact Word.backend_ofNat backend n
  cases kind with
  | simOnly | readOnly | badCount | crossWord | badDefault | shortRead | longRead => cases regular
  | _ => exact made _

theorem backends_encode (regular : kind.isRegular = true) (coord : kind.Coord)
    (value : kind.Value) {backend : Backend} (supported : backend ∈ kind.leaf.supported) :
    (kind.leaf.encode value backend).map Word.backend =
      (kind.leaf.writeAddresses coord backend).map Address.backend := by
  have counted : kind ≠ .badCount := fun same => by
    subst same
    cases regular
  have words : (kind.leaf.encode value backend).map Word.backend =
      List.replicate (kind.leaf.encode value backend).length backend :=
    List.map_eq_replicate_iff.2 (backend_encode regular value backend)
  have addresses : (kind.leaf.writeAddresses coord backend).map Address.backend =
      List.replicate (kind.leaf.writeAddresses coord backend).length backend :=
    List.map_eq_replicate_iff.2 fun _ member => backend_of_mem regular coord supported member
  rw [words, addresses, length_encode counted coord]

end LeafKind

namespace LeafPart

variable {V : Type} {parts : List (LeafPart V)}

def words (explicit : Option Backend) (value : V) (leaf : LeafPart V) : List Word :=
  leaf.kind.leaf.encode (leaf.part.get value) (leaf.backend explicit)

theorem decode_complete (explicit : Option Backend) (words : LeafPart V → List Word)
    (sizes : ∀ leaf ∈ parts, (words leaf).length = leaf.kind.leaf.readWords)
    (decodes : ∀ leaf ∈ parts, ∀ start, ∃ w,
      leaf.kind.leaf.decode (leaf.backend explicit) (words leaf) start = .ok w) (blank : V) :
    (Leaves.decode explicit (parts.map site) (parts.flatMap words) blank).error = none ∧
      (Leaves.decode explicit (parts.map site) (parts.flatMap words) blank).consumed =
        (parts.flatMap words).length := by
  induction parts generalizing blank with
  | nil => exact ⟨rfl, rfl⟩
  | cons leaf rest ih =>
    obtain ⟨size, sizesRest⟩ := List.forall_mem_cons.1 sizes
    obtain ⟨here, decodesRest⟩ := List.forall_mem_cons.1 decodes
    obtain ⟨w, reads⟩ := here (leaf.part.get blank)
    obtain ⟨clean, consumed⟩ := ih sizesRest decodesRest (leaf.part.set w blank)
    rw [List.flatMap_cons, decode_cons leaf rest _ size]
    simp only [reads, List.length_append, consumed]
    exact ⟨clean, trivial⟩

end LeafPart

namespace NodeKind

def isReadable : NodeKind → Bool
  | leaf kind => kind.isReadable
  | synapseRow | chip => true
  | timerTwice | mixed | hollow => false

variable {kind : NodeKind}

theorem isRegular_of_readable (readable : kind.isReadable = true) : kind.isRegular = true := by
  cases kind with
  | leaf kind => exact LeafKind.isRegular_of_isReadable readable
  | synapseRow | chip => rfl
  | timerTwice | mixed | hollow => cases readable

section Members

variable {coord : kind.Coord} {leaf : LeafPart kind.Value}

theorem kind_of_mem_parts (regular : kind.isRegular = true) (member : leaf ∈ kind.parts coord) :
    (∃ single, kind = .leaf single) ∨ leaf.kind.isReadable = true := by
  cases kind with
  | leaf kind => exact .inl ⟨kind, rfl⟩
  | synapseRow =>
    rw [kind_of_mem_rowParts member]
    exact .inr rfl
  | chip =>
    have all : ∀ leaf ∈ chipParts, leaf.kind.isReadable = true := by decide
    exact .inr (all leaf member)
  | timerTwice | mixed | hollow => cases regular

theorem isRegular_of_mem_parts (regular : kind.isRegular = true)
    (member : leaf ∈ kind.parts coord) : leaf.kind.isRegular = true := by
  rcases kind_of_mem_parts regular member with ⟨single, rfl⟩ | readable
  · obtain rfl := List.mem_singleton.1 member
    exact regular
  · exact LeafKind.isRegular_of_isReadable readable

theorem readable_of_mem_parts (readable : kind.isReadable = true)
    (member : leaf ∈ kind.parts coord) : leaf.kind.isReadable = true := by
  rcases kind_of_mem_parts (isRegular_of_readable readable) member with ⟨single, rfl⟩ | part
  · obtain rfl := List.mem_singleton.1 member
    exact readable
  · exact part

end Members

theorem gather_eq {α : Type} {coord : kind.Coord} {explicit : Option Backend}
    (give : LeafSite kind.Value → Backend → List α)
    (supported : Leaves.unsupported? explicit (kind.node.leaves coord) = none) :
    Leaves.gather explicit give (kind.node.leaves coord) =
      (kind.parts coord).flatMap fun leaf => give leaf.site (leaf.backend explicit) := by
  rw [leaves_eq] at supported ⊢
  exact LeafPart.gather_parts give supported

theorem row_ext {row : SynapseRowOnChip} {a b : SynapseRow}
    (same : ∀ leaf ∈ rowParts row, leaf.part.get a = leaf.part.get b) : a = b := by
  have quads : a.quads = b.quads :=
    Site.entries_ext fun column => same _ (List.mem_map_of_mem column.mem_all)
  cases a
  cases b
  exact congrArg SynapseRow.mk quads

theorem chip_ext {a b : Chip} (same : ∀ leaf ∈ chipParts, leaf.part.get a = leaf.part.get b) :
    a = b := by
  simp only [chipParts, List.mem_append, or_imp, forall_and, List.forall_mem_map,
    List.forall_mem_flatMap, List.forall_mem_singleton] at same
  obtain ⟨⟨⟨synrams, quads⟩, neurons⟩, base⟩ := same
  have configs : a.commonSynramConfigs = b.commonSynramConfigs :=
    Site.entries_ext fun synram => synrams synram synram.mem_all
  have rows : a.synapseRows = b.synapseRows :=
    Site.entries_ext fun row => row_ext fun quad member => quads row row.mem_all quad member
  have cells : a.neurons = b.neurons :=
    Site.entries_ext fun neuron => neurons neuron neuron.mem_all
  cases a
  cases b
  cases configs
  cases rows
  cases cells
  exact congrArg (Chip.mk _ _ _) base

theorem parts_ext (readable : kind.isReadable = true) (coord : kind.Coord) {a b : kind.Value}
    (same : ∀ leaf ∈ kind.parts coord, leaf.part.get a = leaf.part.get b) : a = b := by
  cases kind with
  | leaf kind => exact same _ (List.mem_singleton_self _)
  | synapseRow => exact row_ext same
  | chip => exact chip_ext same
  | timerTwice | mixed | hollow => cases readable

section Supported

variable {coord : kind.Coord} {explicit : Option Backend} {value : kind.Value}
  (readable : kind.isReadable = true)
  (supported : ∀ site ∈ kind.node.leaves coord, site.backendFor explicit ∈ site.supported)

include supported

theorem words_eq : Leaves.words explicit value (kind.node.leaves coord) =
    (kind.parts coord).flatMap (LeafPart.words explicit value) :=
  gather_eq _ (Leaves.unsupported?_eq_none_iff.2 supported)

theorem writeAddresses_eq : Leaves.writeAddresses explicit (kind.node.leaves coord) =
    (kind.parts coord).flatMap fun leaf =>
      leaf.kind.leaf.writeAddresses leaf.coord (leaf.backend explicit) :=
  gather_eq _ (Leaves.unsupported?_eq_none_iff.2 supported)

theorem readAddresses_eq : Leaves.readAddresses explicit (kind.node.leaves coord) =
    (kind.parts coord).flatMap fun leaf =>
      leaf.kind.leaf.readAddresses leaf.coord (leaf.backend explicit) :=
  gather_eq _ (Leaves.unsupported?_eq_none_iff.2 supported)

theorem backends_of_regular (regular : kind.isRegular = true) :
    (Leaves.words explicit value (kind.node.leaves coord)).map Word.backend =
      (Leaves.writeAddresses explicit (kind.node.leaves coord)).map Address.backend := by
  rw [words_eq supported, writeAddresses_eq supported, List.map_flatMap, List.map_flatMap]
  rw [leaves_eq] at supported
  refine List.flatMap_congr fun leaf member => ?_
  exact LeafKind.backends_encode (isRegular_of_mem_parts regular member) leaf.coord _
    (List.forall_mem_map.1 supported leaf member)

include readable

theorem backends_words :
    (Leaves.words explicit value (kind.node.leaves coord)).map Word.backend =
      (Leaves.writeAddresses explicit (kind.node.leaves coord)).map Address.backend :=
  backends_of_regular supported (isRegular_of_readable readable)

theorem readAddresses_eq_writeAddresses :
    Leaves.readAddresses explicit (kind.node.leaves coord) =
      Leaves.writeAddresses explicit (kind.node.leaves coord) := by
  rw [readAddresses_eq supported, writeAddresses_eq supported]
  refine List.flatMap_congr fun leaf member => ?_
  rw [LeafKind.readAddresses_eq (readable_of_mem_parts readable member)]

-- Every leaf finds its own words, and the parts make up the value.
theorem decode_words (blank : kind.Value) :
    let words := Leaves.words explicit value (kind.node.leaves coord)
    Leaves.decode explicit (kind.node.leaves coord) words blank =
      { value, consumed := words.length, error := none } := by
  have sizes : ∀ leaf ∈ kind.parts coord,
      (leaf.words explicit value).length = leaf.kind.leaf.readWords :=
    fun leaf member =>
      LeafKind.length_encode_eq_readWords (readable_of_mem_parts readable member) leaf.coord _ _
  have decodes : ∀ leaf ∈ kind.parts coord, ∀ start,
      leaf.kind.leaf.decode (leaf.backend explicit) (leaf.words explicit value) start =
        .ok (leaf.part.get value) :=
    fun leaf member start => LeafKind.decode_encode (readable_of_mem_parts readable member) _ start _
  obtain ⟨clean, consumed⟩ := LeafPart.decode_complete explicit _ sizes
    (fun leaf member start => ⟨_, decodes leaf member start⟩) blank
  have parts := LeafPart.decode_parts (kind.divide_parts coord) _ sizes clean
  rw [← words_eq supported, ← leaves_eq] at clean consumed parts
  intro words
  generalize Leaves.decode explicit (kind.node.leaves coord) words blank = outcome at *
  obtain ⟨final, count, error⟩ := outcome
  cases clean
  cases consumed
  have same : final = value := by
    refine parts_ext readable coord fun leaf member => ?_
    obtain ⟨start, reads⟩ := parts leaf member
    exact Except.ok.inj (reads.symm.trans (decodes leaf member start))
  rw [same]

end Supported

-- The words of a readable tree stand at its addresses, which are the same for reading, and decode
-- to the value again, whatever value decoding starts from.
theorem words_decode_back (readable : kind.isReadable = true) (coord : kind.Coord)
    (explicit : Option Backend)
    (supported : ∀ site ∈ kind.node.leaves coord, site.backendFor explicit ∈ site.supported)
    (value blank : kind.Value) :
    let leaves := kind.node.leaves coord
    let words := Leaves.words explicit value leaves
    let addresses := Leaves.writeAddresses explicit leaves
    words.length = addresses.length ∧
    words.map Word.backend = addresses.map Address.backend ∧
    Leaves.readAddresses explicit leaves = addresses ∧
    Leaves.decode explicit leaves words blank =
      { value, consumed := words.length, error := none } := by
  intro leaves words addresses
  have backends : words.map Word.backend = addresses.map Address.backend :=
    backends_words readable supported
  have counts : words.length = addresses.length := by
    simpa using congrArg List.length backends
  exact ⟨counts, backends, readAddresses_eq_writeAddresses readable supported,
    decode_words readable supported blank⟩

def tunedChip : Chip :=
  (Chip.synram (.first Nat.zero_lt_two)).set { (default : CommonSynramConfig) with wConfWest := 7 }
    { (default : Chip) with
      neurons := .replicate 8 { (default : NeuronConfig) with refractoryTime := 255 }
      systimeSyncBase := .ofNat 0x7ffdeadbeef }

theorem tunedChip_decodes_back :
    (∀ site ∈ Chip.node.leaves ⟨⟩, site.backendFor none ∈ site.supported) ∧
    let words := Leaves.words none tunedChip (Chip.node.leaves ⟨⟩)
    words.length = 32 ∧
    Leaves.decode none (Chip.node.leaves ⟨⟩) words default =
      { value := tunedChip, consumed := 32, error := none } := by
  have supported : ∀ site ∈ Chip.node.leaves ⟨⟩, site.backendFor none ∈ site.supported := by decide
  refine ⟨supported, ?_⟩
  intro words
  obtain ⟨counts, -, -, decodes⟩ :=
    @words_decode_back .chip rfl ⟨⟩ none supported tunedChip (default : Chip)
  have count : words.length = 32 := counts
  refine ⟨count, ?_⟩
  rw [← count]
  exact decodes

end NodeKind

end Playback
