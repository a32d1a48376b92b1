import Playback.Container.Leaf

/-! Trees of leaves and their traversal.

A node lists its visits in preorder: itself, if it is a composite, then its children in the order it
declares. Every operation on a tree (addresses, words, timers restarted, decoding) goes over this
one list, so all of them meet the same leaves in the same order.

A leaf inside a larger value sees only its own part of it. The laws of a `Part` say that this part
can be read and replaced without touching the rest.
-/

set_option autoImplicit false

namespace Playback

/-- A value of type `W` inside a value of type `V`. -/
structure Part (V W : Type) where
  get : V → W
  set : W → V → V

namespace Part

/-- What makes a part a part: it reads as it was set, and setting what was read changes nothing. -/
structure Lawful {V W : Type} (part : Part V W) : Prop where
  get_set : ∀ w v, part.get (part.set w v) = w
  set_get : ∀ v, part.set (part.get v) v = v
  set_set : ∀ a b v, part.set a (part.set b v) = part.set a v

def entry {V W : Type} {n : Nat} (get : V → Vector W n) (set : Vector W n → V → V) (i : Fin n) :
    Part V W where
  get v := (get v)[i]
  set w v := set ((get v).set i w) v

theorem lawful_entry {V W : Type} {n : Nat} {get : V → Vector W n} {set : Vector W n → V → V}
    (field : Lawful ⟨get, set⟩) (i : Fin n) : (entry get set i).Lawful where
  get_set w v := by
    have read : get (set ((get v).set i w) v) = (get v).set i w := field.get_set _ v
    simp [entry, read]
  set_get v := by
    have back : set (get v) v = v := field.set_get v
    simp [entry, back]
  set_set a b v := by
    have read : get (set ((get v).set i b) v) = (get v).set i b := field.get_set _ v
    have twice : ∀ x y, set x (set y v) = set x v := fun x y => field.set_set x y v
    simp [entry, read, twice]

end Part

/-- A leaf at a coordinate, as a part of a tree with values in `V`. -/
structure LeafSite (V : Type) where
  name : String
  coordinate : String
  supported : List Backend
  defaultBackend : Backend
  writeWords : Nat
  readWords : Nat
  restriction : Option ExecutorKind
  writeAddresses : Backend → List Address
  readAddresses : Backend → List Address
  encode : V → Backend → List Word
  decode : Backend → List Word → V → Except DecodeError V
  timerReset : V → Option (TimerOnChip × TimerValue)

structure UnsupportedBackend where
  container : String
  coordinate : String
  backend : Backend
  deriving DecidableEq, Repr

def UnsupportedBackend.message (e : UnsupportedBackend) : String :=
  s!"{e.container} at {e.coordinate} does not support backend {e.backend.name}"

namespace LeafSite

variable {V W : Type}

def within (site : LeafSite W) (part : Part V W) : LeafSite V :=
  { site with
    encode := fun v => site.encode (part.get v)
    decode := fun backend words v => do
      return part.set (← site.decode backend words (part.get v)) v
    timerReset := fun v => site.timerReset (part.get v) }

/-- The backend of an access: the explicit one, else the leaf's default. -/
def backendFor (site : LeafSite V) (explicit : Option Backend) : Backend :=
  explicit.getD site.defaultBackend

def resolve (site : LeafSite V) (explicit : Option Backend) : Except UnsupportedBackend Backend :=
  let backend := site.backendFor explicit
  if backend ∈ site.supported then .ok backend
  else .error { container := site.name, coordinate := site.coordinate, backend }

theorem resolve_eq_ok_iff {site : LeafSite V} {explicit : Option Backend} {backend : Backend} :
    site.resolve explicit = .ok backend ↔
      site.backendFor explicit = backend ∧ backend ∈ site.supported := by
  unfold resolve
  dsimp only
  split
  · rw [Except.ok.injEq]
    constructor
    · rintro rfl
      exact ⟨rfl, by assumption⟩
    · exact fun h => h.1
  · simp only [reduceCtorEq, false_iff, not_and]
    rintro rfl
    assumption

end LeafSite

inductive Visit (V : Type) where
  | composite (name coordinate : String)
  | leaf (site : LeafSite V)

namespace Visit

variable {V W : Type}

def within (part : Part V W) : Visit W → Visit V
  | composite name coordinate => composite name coordinate
  | leaf site => leaf (site.within part)

def site? : Visit V → Option (LeafSite V)
  | composite _ _ => none
  | leaf site => some site

def text : Visit V → String
  | composite name coordinate => s!"composite {name} {coordinate}"
  | leaf site => s!"leaf {site.name} {site.coordinate}"

end Visit

/-- A value that can be written to, or read from, a coordinate: a leaf or a composite. -/
structure Node (C V : Type) where
  name : String
  /-- The value that a read starts from. -/
  blank : V
  visits : C → List (Visit V)

variable {C D V W : Type}

def Leaf.at [Coordinate C] (leaf : Leaf C V) (coord : C) : LeafSite V where
  name := leaf.name
  coordinate := Coordinate.describe coord
  supported := leaf.supported
  defaultBackend := leaf.defaultBackend
  writeWords := leaf.writeWords
  readWords := leaf.readWords
  restriction := leaf.restriction
  writeAddresses := leaf.writeAddresses coord
  readAddresses := leaf.readAddresses coord
  encode := leaf.encode
  decode := leaf.decode
  timerReset v := leaf.timerReset v coord

def Leaf.node [Coordinate C] (leaf : Leaf C V) (blank : V) : Node C V where
  name := leaf.name
  blank := blank
  visits coord := [.leaf (leaf.at coord)]

namespace Node

def composite [Coordinate C] (name : String) (blank : V) (children : C → List (Visit V)) :
    Node C V where
  name := name
  blank := blank
  visits coord := .composite name (Coordinate.describe coord) :: children coord

def visitsWithin (node : Node D W) (coord : D) (part : Part V W) : List (Visit V) :=
  (node.visits coord).map (Visit.within part)

def leaves (node : Node C V) (coord : C) : List (LeafSite V) :=
  (node.visits coord).filterMap Visit.site?

end Node

/-! ### Operations on the leaves of a tree -/

namespace Leaves

/-- What the leaves give, in order, each through its own backend; a leaf whose backend is not
supported gives nothing. -/
def gather {α : Type} (explicit : Option Backend) (give : LeafSite V → Backend → List α)
    (leaves : List (LeafSite V)) : List α :=
  leaves.flatMap fun site =>
    match site.resolve explicit with
    | .ok backend => give site backend
    | .error _ => []

def unsupported? (explicit : Option Backend) (leaves : List (LeafSite V)) :
    Option UnsupportedBackend :=
  leaves.findSome? fun site =>
    match site.resolve explicit with
    | .ok _ => none
    | .error e => some e

def writeAddresses (explicit : Option Backend) : List (LeafSite V) → List Address :=
  gather explicit LeafSite.writeAddresses

def readAddresses (explicit : Option Backend) : List (LeafSite V) → List Address :=
  gather explicit LeafSite.readAddresses

def restrictions (explicit : Option Backend) : List (LeafSite V) → List ExecutorKind :=
  gather explicit fun site _ => site.restriction.toList

def words (explicit : Option Backend) (value : V) : List (LeafSite V) → List Word :=
  gather explicit fun site backend => site.encode value backend

def timerResets (explicit : Option Backend) (value : V) :
    List (LeafSite V) → List (TimerOnChip × TimerValue) :=
  gather explicit fun site _ => (site.timerReset value).toList

/-- The outcome of decoding: the value so far, the number of words handed out, and the failure that
ended it. -/
structure Decoded (V : Type) where
  value : V
  consumed : Nat
  error : Option DecodeError

/-- Hands every leaf its number of words, in order. The first failure ends it; the leaf that failed
and those after it keep their parts. Words handed to that leaf count as consumed. -/
def decode (explicit : Option Backend) : List (LeafSite V) → List Word → V → Decoded V
  | [], _, value => { value, consumed := 0, error := none }
  | site :: rest, words, value =>
    let n := site.readWords
    if words.length < n then
      { value, consumed := 0, error := some (.wordCount site.name n words.length) }
    else
      match site.decode (site.backendFor explicit) (words.take n) value with
      | .error e => { value, consumed := n, error := some e }
      | .ok next =>
        let outcome := decode explicit rest (words.drop n) next
        { outcome with consumed := n + outcome.consumed }

theorem unsupported?_eq_none_iff {explicit : Option Backend} {leaves : List (LeafSite V)} :
    unsupported? explicit leaves = none ↔
      ∀ site ∈ leaves, site.backendFor explicit ∈ site.supported := by
  simp only [unsupported?, List.findSome?_eq_none_iff]
  refine forall_congr' fun site => forall_congr' fun _ => ?_
  by_cases h : site.backendFor explicit ∈ site.supported <;> simp [LeafSite.resolve, h]

theorem consumed_decode_le (explicit : Option Backend) (leaves : List (LeafSite V))
    (words : List Word) (value : V) :
    (decode explicit leaves words value).consumed ≤ words.length := by
  induction leaves generalizing words value with
  | nil => simp [decode]
  | cons site rest ih =>
    simp only [decode]
    split
    · simp
    · split
      · dsimp only
        omega
      · rename_i next _
        have := ih (words.drop site.readWords) next
        simp only [List.length_drop] at this
        dsimp only
        omega

end Leaves

end Playback
