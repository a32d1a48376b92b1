import Playback.Json.Codec

/-! Coordinates of the places on a chip.

A place of one kind is numbered from zero; `Site kind size` holds the numbers below `size`. The kind
is part of the type, so a neuron's configuration cannot be written to a synapse row.
-/

set_option autoImplicit false

namespace Playback

structure OutOfRange where
  kind : String
  index : Nat
  size : Nat
  deriving DecidableEq, Repr

def OutOfRange.message (e : OutOfRange) : String :=
  s!"{e.kind} index {e.index} out of range (size {e.size})"

/-- A place out of `size` numbered places of one kind. -/
structure Site (kind : String) (size : Nat) where
  position : Fin size
  deriving DecidableEq, Repr

namespace Site

variable {kind : String} {size : Nat}

def index (site : Site kind size) : Nat :=
  site.position.val

theorem index_lt (site : Site kind size) : site.index < size :=
  site.position.isLt

theorem index_inj {a b : Site kind size} : a.index = b.index ↔ a = b := by
  cases a
  cases b
  simp [index, Fin.val_inj]

def ofIndex (i : Nat) : Except OutOfRange (Site kind size) :=
  if h : i < size then .ok ⟨i, h⟩ else .error { kind, index := i, size }

theorem ofIndex_eq_ok_iff {i : Nat} {site : Site kind size} :
    ofIndex i = .ok site ↔ site.index = i := by
  unfold ofIndex
  split
  · rw [Except.ok.injEq, ← index_inj]
    exact eq_comm
  · have := site.index_lt
    simp only [reduceCtorEq, false_iff]
    omega

def first (nonempty : 0 < size) : Site kind size :=
  ⟨⟨0, nonempty⟩⟩

def entry {α : Type} (site : Site kind size) (table : Vector α size) : α :=
  table[site.position]

def setEntry {α : Type} (site : Site kind size) (value : α) (table : Vector α size) :
    Vector α size :=
  table.set site.position value

theorem entry_setEntry {α : Type} (site other : Site kind size) (value : α)
    (table : Vector α size) :
    other.entry (site.setEntry value table) =
      if other = site then value else other.entry table := by
  simp only [entry, setEntry, Fin.getElem_fin, Vector.getElem_set]
  by_cases same : other = site
  · simp [same]
  · have : site.position.val ≠ other.position.val := fun h => same (index_inj.1 h).symm
    simp [same, this]

def all : List (Site kind size) :=
  (List.finRange size).map Site.mk

theorem mem_all (site : Site kind size) : site ∈ all :=
  List.mem_map.2 ⟨site.position, List.mem_finRange _, rfl⟩

def text (site : Site kind size) : String :=
  s!"{kind}({site.index})"

end Site

instance {kind : String} {size : Nat} : Codec (Site kind size) where
  encode site := .ofNat site.index
  decode json := do
    match Site.ofIndex (← json.toNatBelow 0x10000) with
    | .ok site => return site
    | .error e => .error (.bounds e.message)

abbrev TimerOnChip := Site "TimerOnChip" 2

abbrev SynramOnChip := Site "SynramOnChip" 2

abbrev NeuronOnChip := Site "NeuronOnChip" 8

abbrev SynapseRowOnChip := Site "SynapseRowOnChip" 4

/-- Block of four columns within a row. -/
abbrev SynapseQuadColumn := Site "SynapseQuadColumn" 2

abbrev AdpllOnChip := Site "AdpllOnChip" 2

/-- The one place of a register that a chip has once. -/
structure Unique where
  deriving DecidableEq, Repr, Inhabited

def Unique.text (_ : Unique) : String := "Unique"

instance : Codec Unique where
  encode _ := .null
  decode
    | .null => .ok ⟨⟩
    | _ => .error .form

structure SynapseQuadOnChip where
  row : SynapseRowOnChip
  column : SynapseQuadColumn
  deriving DecidableEq, Repr

namespace SynapseQuadOnChip

def size : Nat := 8

/-- Quads are numbered row by row. -/
def index (quad : SynapseQuadOnChip) : Nat :=
  quad.row.index * 2 + quad.column.index

def ofIndex (i : Nat) : Except OutOfRange SynapseQuadOnChip :=
  if h : i < 8 then .ok ⟨⟨i / 2, by omega⟩, ⟨i % 2, by omega⟩⟩
  else .error { kind := "SynapseQuadOnChip", index := i, size }

def all : List SynapseQuadOnChip :=
  Site.all.flatMap fun row => Site.all.map fun column => ⟨row, column⟩

def text (quad : SynapseQuadOnChip) : String :=
  s!"SynapseQuadOnChip({quad.row.index}, {quad.column.index})"

theorem index_lt (quad : SynapseQuadOnChip) : quad.index < size := by
  have := quad.row.index_lt
  have := quad.column.index_lt
  simp only [index, size]
  omega

theorem index_inj {a b : SynapseQuadOnChip} : a.index = b.index ↔ a = b := by
  constructor
  · intro same
    have := a.column.index_lt
    have := b.column.index_lt
    obtain ⟨row, column⟩ := a
    obtain ⟨otherRow, otherColumn⟩ := b
    simp only [index] at *
    rw [mk.injEq, ← Site.index_inj, ← Site.index_inj]
    omega
  · rintro rfl
    rfl

end SynapseQuadOnChip

def SynapseQuadOnChip.record : Json.RecordCodec SynapseQuadOnChip where
  members :=
    [.of "row" (·.row) fun row quad => { quad with row },
      .of "column" (·.column) fun column quad => { quad with column }]
  blank := ⟨⟨0⟩, ⟨0⟩⟩
  optional := false

instance : Codec SynapseQuadOnChip := SynapseQuadOnChip.record.toCodec

class Coordinate (C : Type) where
  text : C → String
  describe : C → String
  size : Nat
  index : C → Nat
  ofIndex : Nat → Except OutOfRange C
  all : List C

instance {kind : String} {size : Nat} : Coordinate (Site kind size) where
  text := Site.text
  describe := Site.text
  size := size
  index := Site.index
  ofIndex := Site.ofIndex
  all := Site.all

instance : Coordinate Unique where
  text := Unique.text
  describe := Unique.text
  size := 1
  index _ := 0
  ofIndex _ := .ok ⟨⟩
  all := [⟨⟩]

instance : Coordinate SynapseQuadOnChip where
  text := SynapseQuadOnChip.text
  describe quad :=
    "SynapseQuadOnChip \x7b row: " ++ quad.row.text ++ ", column: " ++ quad.column.text ++ " \x7d"
  size := SynapseQuadOnChip.size
  index := SynapseQuadOnChip.index
  ofIndex := SynapseQuadOnChip.ofIndex
  all := SynapseQuadOnChip.all

end Playback
