import Mathlib.Algebra.GroupWithZero.Nat
import Playback.Proofs.Container.InPlace
import Playback.Proofs.Container.Trees

/-! Trees decoded from any words.

A walk hands every leaf the words behind its cursor. A leaf that finds too few words, or that
refuses its words, ends the walk: the leaves after it are passed by. Whatever the words are, the
leaves before that one hold what their own words say, and it and all others are as they were
(`NodeKind.decode_prefix`).
-/

set_option autoImplicit false

namespace Playback

variable {V : Type}

namespace LeafPart

/-- Decodes one leaf in place, from the words behind the cursor, unless a leaf before it failed. -/
def visit (explicit : Option Backend) (words : List Word) (state : Leaves.Decoded V)
    (leaf : LeafPart V) : Leaves.Decoded V :=
  if state.error.isSome then state
  else
    let n := leaf.kind.leaf.readWords
    if words.length < state.consumed + n then
      let actual := words.length - state.consumed
      { state with error := some (.wordCount leaf.kind.leaf.name n actual) }
    else
      let own := (words.drop state.consumed).take n
      let (outcome, value) :=
        (leaf.kind.overwrite (leaf.backend explicit) own).on (leaf.part.get state.value)
      { value := leaf.part.set value state.value
        consumed := state.consumed + n
        error :=
          match outcome with
          | .ok () => none
          | .error e => some e }

def walk (explicit : Option Backend) (words : List Word) (initial : V) (parts : List (LeafPart V)) :
    Leaves.Decoded V :=
  parts.foldl (visit explicit words) { value := initial, consumed := 0, error := none }

section One

variable {explicit : Option Backend} {words : List Word} {consumed : Nat} {value : V}
  (leaf : LeafPart V) (rest : List (LeafPart V))

theorem decode_short (short : words.length < leaf.kind.leaf.readWords) :
    Leaves.decode explicit ((leaf :: rest).map site) words value =
      { value, consumed := 0,
        error := some
          (.wordCount leaf.kind.leaf.name leaf.kind.leaf.readWords words.length) } :=
  if_pos short

theorem decode_enough (enough : leaf.kind.leaf.readWords ≤ words.length) :
    Leaves.decode explicit ((leaf :: rest).map site) words value =
      match leaf.kind.leaf.decode (leaf.backend explicit)
        (words.take leaf.kind.leaf.readWords) (leaf.part.get value) with
      | .error e => { value, consumed := leaf.kind.leaf.readWords, error := some e }
      | .ok w =>
        let outcome := Leaves.decode explicit (rest.map site)
          (words.drop leaf.kind.leaf.readWords) (leaf.part.set w value)
        { outcome with consumed := leaf.kind.leaf.readWords + outcome.consumed } := by
  have size : (words.take leaf.kind.leaf.readWords).length = leaf.kind.leaf.readWords :=
    List.length_take_of_le enough
  have apart : Leaves.decode explicit _ _ value = _ :=
    decode_cons leaf rest (words.drop leaf.kind.leaf.readWords) size value
  rw [List.take_append_drop, size] at apart
  exact apart

theorem visit_short (short : words.length < consumed + leaf.kind.leaf.readWords) :
    visit explicit words { value, consumed, error := none } leaf =
      { value, consumed,
        error := some (.wordCount leaf.kind.leaf.name leaf.kind.leaf.readWords
          (words.length - consumed)) } :=
  if_pos short

theorem visit_enough (lawful : leaf.part.Lawful)
    (enough : consumed + leaf.kind.leaf.readWords ≤ words.length) :
    visit explicit words { value, consumed, error := none } leaf =
      match leaf.kind.leaf.decode (leaf.backend explicit)
        ((words.drop consumed).take leaf.kind.leaf.readWords) (leaf.part.get value) with
      | .error e => { value, consumed := consumed + leaf.kind.leaf.readWords, error := some e }
      | .ok w =>
        { value := leaf.part.set w value, consumed := consumed + leaf.kind.leaf.readWords,
          error := none } := by
  have settles := leaf.kind.settles_overwrite (leaf.backend explicit)
    ((words.drop consumed).take leaf.kind.leaf.readWords) (leaf.part.get value)
  have goesOn : ¬words.length < consumed + leaf.kind.leaf.readWords := by omega
  unfold visit
  simp only [Option.isSome_none, Bool.false_eq_true, if_false, if_neg goesOn, settles]
  cases leaf.kind.leaf.decode (leaf.backend explicit)
      ((words.drop consumed).take leaf.kind.leaf.readWords) (leaf.part.get value) with
  | error e => simp only [Overwrite.settle, lawful.set_get]
  | ok w => rfl

end One

variable {explicit : Option Backend} {words : List Word} {parts : List (LeafPart V)}

theorem foldl_visit_failed {state : Leaves.Decoded V} (failed : state.error.isSome) :
    parts.foldl (visit explicit words) state = state := by
  induction parts with
  | nil => rfl
  | cons leaf rest ih =>
    have passed : visit explicit words state leaf = state := if_pos failed
    rw [List.foldl_cons, passed, ih]

-- A walk with a cursor comes to the same as cutting the words off.
theorem foldl_visit (lawful : ∀ leaf ∈ parts, leaf.part.Lawful) {consumed : Nat}
    (within : consumed ≤ words.length) (value : V) :
    parts.foldl (visit explicit words) { value, consumed, error := none } =
      let outcome := Leaves.decode explicit (parts.map site) (words.drop consumed) value
      { outcome with consumed := consumed + outcome.consumed } := by
  induction parts generalizing consumed value with
  | nil => rfl
  | cons leaf rest ih =>
    obtain ⟨own, others⟩ := List.forall_mem_cons.1 lawful
    have left : (words.drop consumed).length = words.length - consumed := List.length_drop
    rw [List.foldl_cons]
    by_cases short : words.length < consumed + leaf.kind.leaf.readWords
    · rw [visit_short leaf short, foldl_visit_failed rfl, decode_short leaf rest (by omega), left]
      rfl
    · rw [visit_enough leaf own (by omega), decode_enough leaf rest (by omega)]
      cases leaf.kind.leaf.decode (leaf.backend explicit)
          ((words.drop consumed).take leaf.kind.leaf.readWords) (leaf.part.get value) with
      | error e => rw [foldl_visit_failed rfl]
      | ok w =>
        dsimp only
        rw [ih others (by omega), List.drop_drop]
        dsimp only
        rw [Nat.add_assoc]

def size (parts : List (LeafPart V)) : Nat :=
  (parts.map fun leaf => leaf.site.readWords).sum

/-- Leaves hold what each of them decodes from its own words, slice behind slice. -/
def Filled (explicit : Option Backend) (initial final : V) : List Word → List (LeafPart V) → Prop
  | _, [] => True
  | words, leaf :: rest =>
    leaf.kind.leaf.decode (leaf.backend explicit) (words.take leaf.kind.leaf.readWords)
        (leaf.part.get initial) = .ok (leaf.part.get final) ∧
      Filled explicit initial final (words.drop leaf.kind.leaf.readWords) rest

/-- A leaf finds too few words, or it refuses those it is handed: the error, and their number. -/
inductive Fails (explicit : Option Backend) (words : List Word) (initial : V) (leaf : LeafPart V) :
    DecodeError → Nat → Prop where
  | short (few : words.length < leaf.kind.leaf.readWords) :
    Fails explicit words initial leaf
      (.wordCount leaf.kind.leaf.name leaf.kind.leaf.readWords words.length) 0
  | refused {e : DecodeError} (enough : leaf.kind.leaf.readWords ≤ words.length)
      (refuses : leaf.kind.leaf.decode (leaf.backend explicit)
        (words.take leaf.kind.leaf.readWords) (leaf.part.get initial) = .error e) :
    Fails explicit words initial leaf e leaf.kind.leaf.readWords

/-- A walk ends at a leaf: those before it are filled, it and those after it are as they were. -/
structure EndsAt (explicit : Option Backend) (words : List Word) (initial : V)
    (outcome : Leaves.Decoded V) (e : DecodeError) (before : List (LeafPart V))
    (failing : LeafPart V) (after : List (LeafPart V)) : Prop where
  filled : Filled explicit initial outcome.value words before
  fails : ∃ handed, Fails explicit (words.drop (size before)) initial failing e handed ∧
    outcome.consumed = size before + handed
  kept : ∀ leaf ∈ failing :: after, leaf.part.get outcome.value = leaf.part.get initial

theorem Filled.congr {initial other final : V} (filled : Filled explicit initial final words parts)
    (same : ∀ leaf ∈ parts, leaf.part.get other = leaf.part.get initial) :
    Filled explicit other final words parts := by
  induction parts generalizing words with
  | nil => trivial
  | cons leaf rest ih =>
    obtain ⟨own, others⟩ := List.forall_mem_cons.1 same
    exact ⟨own ▸ filled.1, ih filled.2 others⟩

theorem Fails.congr {initial other : V} {leaf : LeafPart V} {e : DecodeError} {handed : Nat}
    (fails : Fails explicit words initial leaf e handed)
    (same : leaf.part.get other = leaf.part.get initial) :
    Fails explicit words other leaf e handed := by
  cases fails with
  | short few => exact .short few
  | refused enough refuses => exact .refused enough (same ▸ refuses)

theorem size_cons (leaf : LeafPart V) (rest : List (LeafPart V)) :
    size (leaf :: rest) = leaf.kind.leaf.readWords + size rest :=
  List.sum_cons

-- A leaf in front takes its words, and the walk ends where it did.
theorem EndsAt.behind {start initial : V} {outcome : Leaves.Decoded V} {e : DecodeError}
    {before after : List (LeafPart V)} {failing leaf : LeafPart V}
    (ended : EndsAt explicit (words.drop leaf.kind.leaf.readWords) start outcome e before failing
      after)
    (takes : leaf.kind.leaf.decode (leaf.backend explicit) (words.take leaf.kind.leaf.readWords)
      (leaf.part.get initial) = .ok (leaf.part.get outcome.value))
    (kept : ∀ next ∈ before ++ failing :: after, next.part.get initial = next.part.get start) :
    EndsAt explicit words initial
      { outcome with consumed := leaf.kind.leaf.readWords + outcome.consumed } e (leaf :: before)
      failing after where
  filled := ⟨takes, ended.filled.congr fun next member => kept next (List.mem_append_left _ member)⟩
  fails := by
    obtain ⟨handed, fails, consumed⟩ := ended.fails
    refine ⟨handed, ?_, ?_⟩
    · rw [size_cons, ← List.drop_drop]
      exact fails.congr (kept failing (by simp))
    · rw [size_cons, consumed, Nat.add_assoc]
  kept next member := by
    rw [ended.kept next member, kept next (List.mem_append_right _ member)]

theorem decode_ends (explicit : Option Backend) (lawful : ∀ leaf ∈ parts, leaf.part.Lawful)
    (separate : parts.Pairwise Separate) (words : List Word) (initial : V) :
    let outcome := Leaves.decode explicit (parts.map site) words initial
    (outcome.error = none →
      outcome.consumed = size parts ∧ Filled explicit initial outcome.value words parts) ∧
    ∀ e, outcome.error = some e → ∃ before failing after, parts = before ++ failing :: after ∧
      EndsAt explicit words initial outcome e before failing after := by
  induction parts generalizing words initial with
  | nil => exact ⟨fun _ => ⟨rfl, trivial⟩, nofun⟩
  | cons leaf rest ih =>
    obtain ⟨lawfulOwn, lawfulRest⟩ := List.forall_mem_cons.1 lawful
    obtain ⟨separateOwn, separateRest⟩ := List.pairwise_cons.1 separate
    intro outcome
    by_cases short : words.length < leaf.kind.leaf.readWords
    · have ends : outcome = _ := decode_short leaf rest short
      rw [ends]
      refine ⟨nofun, ?_⟩
      rintro _ ⟨⟩
      exact ⟨[], leaf, rest, rfl, trivial, ⟨0, .short short, rfl⟩, fun _ _ => rfl⟩
    have enough : leaf.kind.leaf.readWords ≤ words.length := Nat.le_of_not_lt short
    have ends : outcome = _ := decode_enough leaf rest enough
    cases reads : leaf.kind.leaf.decode (leaf.backend explicit)
        (words.take leaf.kind.leaf.readWords) (leaf.part.get initial) with
    | error e =>
      rw [ends, reads]
      refine ⟨nofun, ?_⟩
      rintro _ ⟨⟩
      refine ⟨[], leaf, rest, rfl, trivial, ⟨_, .refused enough reads, ?_⟩, fun _ _ => rfl⟩
      exact (Nat.zero_add _).symm
    | ok w =>
      obtain ⟨clean, stopped⟩ :=
        ih lawfulRest separateRest (words.drop leaf.kind.leaf.readWords) (leaf.part.set w initial)
      have holds : leaf.part.get (Leaves.decode explicit (rest.map site)
          (words.drop leaf.kind.leaf.readWords) (leaf.part.set w initial)).value = w := by
        rw [get_decode fun next member => (separateOwn next member).1, lawfulOwn.get_set]
      have takes := reads.trans (congrArg Except.ok holds.symm)
      have kept : ∀ next ∈ rest,
          next.part.get initial = next.part.get (leaf.part.set w initial) :=
        fun next member => ((separateOwn next member).2 w initial).symm
      rw [ends, reads]
      dsimp only
      constructor
      · intro none
        obtain ⟨consumed, filled⟩ := clean none
        exact ⟨by rw [size_cons, consumed], takes, filled.congr kept⟩
      · intro e failed
        obtain ⟨before, failing, after, rfl, ended⟩ := stopped e failed
        exact ⟨leaf :: before, failing, after, rfl, ended.behind takes kept⟩

end LeafPart

namespace LeafKind

variable (kind : LeafKind) (backend : Backend) (words : List Word)

theorem decode_eq_of_takes (takes : 0 < kind.leaf.readWords) (a b : kind.Value) :
    kind.leaf.decode backend words a = kind.leaf.decode backend words b := by
  cases kind with
  | systimeSync | resetChip | spikePack1 | spikePack2 | spikePack3 =>
    exact absurd takes (Nat.lt_irrefl 0)
  | _ => rfl

theorem decode_of_takes_nothing (nothing : kind.leaf.readWords = 0) (value : kind.Value) :
    kind.leaf.decode backend words value = keepValue kind.leaf.name backend words value := by
  cases kind with
  | systimeSync | resetChip | spikePack1 | spikePack2 | spikePack3 => rfl
  | _ => cases nothing

-- Whether a leaf refuses its words, and why, does not depend on the value before.
theorem decode_same_error (a b : kind.Value) :
    (kind.leaf.decode backend words a).map (fun _ => ()) =
      (kind.leaf.decode backend words b).map fun _ => () := by
  rcases Nat.eq_zero_or_pos kind.leaf.readWords with nothing | takes
  · rw [decode_of_takes_nothing kind backend words nothing,
      decode_of_takes_nothing kind backend words nothing]
    unfold keepValue
    cases rawWords kind.leaf.name 0 backend words <;> rfl
  · rw [decode_eq_of_takes kind backend words takes a b]

end LeafKind

namespace LeafPart

variable {explicit : Option Backend} {parts : List (LeafPart V)}

theorem decode_same_end (explicit : Option Backend) (parts : List (LeafPart V))
    (words : List Word) (a b : V) :
    let first := Leaves.decode explicit (parts.map site) words a
    let second := Leaves.decode explicit (parts.map site) words b
    first.error = second.error ∧ first.consumed = second.consumed := by
  induction parts generalizing words a b with
  | nil => exact ⟨rfl, rfl⟩
  | cons leaf rest ih =>
    by_cases short : words.length < leaf.kind.leaf.readWords
    · rw [decode_short leaf rest short, decode_short leaf rest short]
      exact ⟨rfl, rfl⟩
    · have enough : leaf.kind.leaf.readWords ≤ words.length := Nat.le_of_not_lt short
      have same := leaf.kind.decode_same_error (leaf.backend explicit)
        (words.take leaf.kind.leaf.readWords) (leaf.part.get a) (leaf.part.get b)
      rw [decode_enough leaf rest enough, decode_enough leaf rest enough]
      cases first : leaf.kind.leaf.decode (leaf.backend explicit)
          (words.take leaf.kind.leaf.readWords) (leaf.part.get a) <;>
        cases second : leaf.kind.leaf.decode (leaf.backend explicit)
          (words.take leaf.kind.leaf.readWords) (leaf.part.get b) <;>
        rw [first, second] at same
      case error.error =>
        cases same
        exact ⟨rfl, rfl⟩
      case error.ok => cases same
      case ok.error => cases same
      case ok.ok v w =>
        obtain ⟨errors, counts⟩ := ih (words.drop leaf.kind.leaf.readWords)
          (leaf.part.set v a) (leaf.part.set w b)
        exact ⟨errors, congrArg (leaf.kind.leaf.readWords + ·) counts⟩

theorem Filled.agree {words : List Word} {a b first second : V}
    (one : Filled explicit a first words parts) (other : Filled explicit b second words parts) :
    ∀ leaf ∈ parts, 0 < leaf.kind.leaf.readWords →
      leaf.part.get first = leaf.part.get second := by
  induction parts generalizing words with
  | nil => nofun
  | cons leaf rest ih =>
    refine List.forall_mem_cons.2 ⟨fun takes => ?_, ih one.2 other.2⟩
    have same := leaf.kind.decode_eq_of_takes (leaf.backend explicit)
      (words.take leaf.kind.leaf.readWords) takes (leaf.part.get a) (leaf.part.get b)
    exact Except.ok.inj (one.1.symm.trans (same.trans other.1))

end LeafPart

namespace NodeKind

theorem walk_eq_decode (kind : NodeKind) (coord : kind.Coord) (explicit : Option Backend)
    (words : List Word) (initial : kind.Value) :
    LeafPart.walk explicit words initial (kind.parts coord) =
      Leaves.decode explicit (kind.node.leaves coord) words initial := by
  rw [leaves_eq]
  refine (LeafPart.foldl_visit (kind.lawful_parts coord) (Nat.zero_le _) initial).trans ?_
  simp only [List.drop_zero, Nat.zero_add]

-- A node decodes a clean prefix of its leaves from whatever words there are. Decoding in place with
-- a cursor comes to the same. If no leaf fails, all words of all leaves were taken, and what was
-- before shows in no leaf that takes words; else a first leaf failed, and nothing but the leaves
-- before it has changed.
theorem decode_prefix (kind : NodeKind) (coord : kind.Coord) (explicit : Option Backend)
    (words : List Word) (initial : kind.Value) :
    let decode := Leaves.decode explicit (kind.node.leaves coord) words
    let outcome := decode initial
    LeafPart.walk explicit words initial (kind.parts coord) = outcome ∧
    outcome.consumed ≤ words.length ∧
    (outcome.error = none →
      outcome.consumed = ((kind.node.leaves coord).map LeafSite.readWords).sum ∧
      LeafPart.Filled explicit initial outcome.value words (kind.parts coord) ∧
      ∀ other, (decode other).error = none ∧
        ∀ leaf ∈ kind.parts coord, 0 < leaf.kind.leaf.readWords →
          leaf.part.get (decode other).value = leaf.part.get outcome.value) ∧
    ∀ e, outcome.error = some e →
      ∃ before failing after, kind.parts coord = before ++ failing :: after ∧
        LeafPart.EndsAt explicit words initial outcome e before failing after := by
  intro decode outcome
  have ends := LeafPart.decode_ends explicit (kind.lawful_parts coord) (kind.separate_parts coord)
    words
  have sameEnd := LeafPart.decode_same_end explicit (kind.parts coord) words
  rw [← leaves_eq] at ends sameEnd
  refine ⟨walk_eq_decode .., Leaves.consumed_decode_le .., fun clean => ?_, (ends initial).2⟩
  obtain ⟨consumed, filled⟩ := (ends initial).1 clean
  refine ⟨?_, filled, fun other => ?_⟩
  · rw [leaves_eq, List.map_map]
    exact consumed
  · have again : (decode other).error = none := (sameEnd other initial).1.trans clean
    exact ⟨again, ((ends other).1 again).2.agree filled⟩

end NodeKind

end Playback
