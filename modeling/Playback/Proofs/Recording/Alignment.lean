import Playback.Proofs.Recording.Writes
import Playback.Program.Slot
import Mathlib.Algebra.GroupWithZero.Nat
import Mathlib.Data.List.SplitLengths

/-! Which leaf the entries of a traversal belong to.

A write pairs the addresses of all leaves with the words of all leaves, and a slot hands its words
out to all leaves; both go by place and compare totals alone. Leaf by leaf the two sides agree
exactly if no leaf has more or fewer of one than of the other: from a leaf with a surplus to the leaf
that makes up for it, the two sides are shifted against each other.
-/

set_option autoImplicit false

namespace Playback

namespace Leaves

variable {V α β : Type}

/-! ### Writing -/

def given (explicit : Option Backend) (give : LeafSite V → Backend → List α) (site : LeafSite V) :
    List α :=
  match site.resolve explicit with
  | .ok backend => give site backend
  | .error _ => []

theorem given_of_supported {explicit : Option Backend} (give : LeafSite V → Backend → List α)
    {site : LeafSite V} (supported : site.backendFor explicit ∈ site.supported) :
    given explicit give site = give site (site.backendFor explicit) := by
  rw [given, LeafSite.resolve_eq_ok_iff.2 ⟨rfl, supported⟩]

/-- What the leaves give, each entry with the number of its leaf. The leaves are numbered in the
order of the traversal. -/
def traced (explicit : Option Backend) (give : LeafSite V → Backend → List α) :
    Nat → List (LeafSite V) → List (Nat × α)
  | _, [] => []
  | number, site :: rest =>
    (given explicit give site).map (number, ·) ++ traced explicit give (number + 1) rest

section Traced

variable {explicit : Option Backend} {give : LeafSite V → Backend → List α}

theorem map_snd_traced (number : Nat) (leaves : List (LeafSite V)) :
    (traced explicit give number leaves).map Prod.snd = gather explicit give leaves := by
  induction leaves generalizing number with
  | nil => rfl
  | cons site rest ih =>
    rw [traced, List.map_append, ih, gather_cons, List.map_map]
    exact congrArg (· ++ _) (List.map_id _)

theorem length_traced (number : Nat) (leaves : List (LeafSite V)) :
    (traced explicit give number leaves).length = (gather explicit give leaves).length := by
  rw [← map_snd_traced number, List.length_map]

theorem le_of_mem_traced {number : Nat} {leaves : List (LeafSite V)} {entry : Nat × α}
    (member : entry ∈ traced explicit give number leaves) : number ≤ entry.1 := by
  induction leaves generalizing number with
  | nil => cases member
  | cons site rest ih =>
    rcases List.mem_append.1 member with here | later
    · obtain ⟨a, -, rfl⟩ := List.mem_map.1 here
      exact Nat.le_refl number
    · exact Nat.le_of_succ_le (ih later)

theorem map_fst_traced_cons (number : Nat) (site : LeafSite V) (rest : List (LeafSite V)) :
    (traced explicit give number (site :: rest)).map Prod.fst =
      List.replicate (given explicit give site).length number ++
        (traced explicit give (number + 1) rest).map Prod.fst := by
  simp [traced, Function.comp_def, List.map_const']

theorem count_traced_cons (number : Nat) (site : LeafSite V) (rest : List (LeafSite V)) :
    ((traced explicit give number (site :: rest)).map Prod.fst).count number =
      (given explicit give site).length := by
  have later : number ∉ (traced explicit give (number + 1) rest).map Prod.fst := by
    intro member
    obtain ⟨entry, inside, same⟩ := List.mem_map.1 member
    have := le_of_mem_traced inside
    omega
  rw [map_fst_traced_cons, List.count_append, List.count_replicate_self,
    List.count_eq_zero.2 later, Nat.add_zero]

-- Two traversals belong to the same leaves place by place only if every leaf gives equally much.
theorem map_fst_traced_eq_iff {other : LeafSite V → Backend → List β} {number : Nat}
    {leaves : List (LeafSite V)} :
    (traced explicit give number leaves).map Prod.fst =
        (traced explicit other number leaves).map Prod.fst ↔
      ∀ site ∈ leaves, (given explicit give site).length = (given explicit other site).length := by
  induction leaves generalizing number with
  | nil => simp [traced]
  | cons site rest ih =>
    rw [List.forall_mem_cons, ← @ih (number + 1)]
    constructor
    · intro same
      have here : (given explicit give site).length = (given explicit other site).length := by
        rw [← count_traced_cons number site rest, same, count_traced_cons]
      rw [map_fst_traced_cons, map_fst_traced_cons, here] at same
      exact ⟨here, List.append_cancel_left same⟩
    · rintro ⟨here, later⟩
      rw [map_fst_traced_cons, map_fst_traced_cons, here, later]

end Traced

/-- What a write pairs: addresses and words by place, each with the number of its leaf. -/
def pairings (explicit : Option Backend) (value : V) (leaves : List (LeafSite V)) :
    List ((Nat × Address) × (Nat × Word)) :=
  (traced explicit LeafSite.writeAddresses 0 leaves).zip
    (traced explicit (fun site backend => site.encode value backend) 0 leaves)

theorem map_pairings (explicit : Option Backend) (value : V) (leaves : List (LeafSite V)) :
    (pairings explicit value leaves).map (fun (address, word) => (address.2, word.2)) =
      (writeAddresses explicit leaves).zip (words explicit value leaves) := by
  have apart : (fun (address, word) => (address.2, word.2) :
      (Nat × Address) × (Nat × Word) → Address × Word) = Prod.map Prod.snd Prod.snd := rfl
  rw [pairings, apart, ← List.zip_map, map_snd_traced, map_snd_traced]
  rfl

theorem pairings_own_iff {explicit : Option Backend} {value : V} {leaves : List (LeafSite V)}
    (total : (writeAddresses explicit leaves).length = (words explicit value leaves).length)
    (supported : unsupported? explicit leaves = none) :
    (∀ pair ∈ pairings explicit value leaves, pair.1.1 = pair.2.1) ↔
      ∀ site ∈ leaves, (site.writeAddresses (site.backendFor explicit)).length =
        (site.encode value (site.backendFor explicit)).length := by
  rw [unsupported?_eq_none_iff] at supported
  have lengths : (traced explicit LeafSite.writeAddresses 0 leaves).length =
      (traced explicit (fun site backend => site.encode value backend) 0 leaves).length := by
    rw [length_traced, length_traced]
    exact total
  calc
    _ ↔ (traced explicit LeafSite.writeAddresses 0 leaves).map Prod.fst =
        (traced explicit (fun site backend => site.encode value backend) 0 leaves).map Prod.fst := by
      rw [← List.forall₂_eq_eq_eq, List.forall₂_map_left_iff, List.forall₂_map_right_iff,
        List.forall₂_iff_zip]
      simp only [lengths, true_and, pairings, Prod.forall]
    _ ↔ _ := by
      rw [map_fst_traced_eq_iff]
      refine forall₂_congr fun site member => ?_
      rw [given_of_supported _ (supported site member),
        given_of_supported _ (supported site member)]

/-! ### Reading -/

def cut (leaves : List (LeafSite V)) (entries : List α) : List (List α) :=
  (leaves.map LeafSite.readWords).splitLengths entries

/-- Decoding leaf by leaf, each leaf from words of its own, from one value to another. -/
inductive Decodes (explicit : Option Backend) :
    List (LeafSite V) → List (List Word) → V → V → Prop where
  | done (value : V) : Decodes explicit [] [] value value
  | leaf {site : LeafSite V} {rest : List (LeafSite V)} {words : List Word}
      {later : List (List Word)} {value next final : V}
      (own : site.decode (site.backendFor explicit) words value = .ok next)
      (others : Decodes explicit rest later next final) :
      Decodes explicit (site :: rest) (words :: later) value final

theorem decode_eq_iff {explicit : Option Backend} {leaves : List (LeafSite V)} {words : List Word}
    {value final : V} :
    decode explicit leaves words value = { value := final, consumed := words.length, error := none } ↔
      words.length = (leaves.map LeafSite.readWords).sum ∧
        Decodes explicit leaves (cut leaves words) value final := by
  induction leaves generalizing words value with
  | nil =>
    constructor
    · intro same
      simp only [decode, Decoded.mk.injEq, and_true] at same
      obtain ⟨rfl, count⟩ := same
      exact ⟨count.symm, .done value⟩
    · rintro ⟨count, decodes⟩
      cases decodes
      rw [decode, count]
      rfl
  | cons site rest ih =>
    rw [cut, List.map_cons, List.splitLengths_cons, List.sum_cons]
    change _ ↔ _ ∧ Decodes explicit _ (words.take site.readWords ::
      cut rest (words.drop site.readWords)) _ _
    unfold decode
    dsimp only
    split
    · rename_i short
      constructor
      · intro same
        cases congrArg Decoded.error same
      · rintro ⟨count, -⟩
        omega
    · rename_i enough
      cases own : site.decode (site.backendFor explicit) (words.take site.readWords) value with
      | error e =>
        constructor
        · intro same
          cases congrArg Decoded.error same
        · rintro ⟨-, decodes⟩
          cases decodes with
          | leaf same others => cases own.symm.trans same
      | ok next =>
        have later := @ih (words.drop site.readWords) next
        rw [List.length_drop] at later
        dsimp only
        generalize decode explicit rest (words.drop site.readWords) next = outcome at later ⊢
        obtain ⟨reached, consumed, error⟩ := outcome
        simp only [Decoded.mk.injEq] at later ⊢
        constructor
        · rintro ⟨rfl, count, rfl⟩
          obtain ⟨left, others⟩ := later.1 ⟨rfl, by omega, rfl⟩
          exact ⟨by omega, .leaf own others⟩
        · rintro ⟨count, decodes⟩
          cases decodes with
          | leaf same others =>
            cases own.symm.trans same
            obtain ⟨reached, left, clean⟩ := later.2 ⟨by omega, others⟩
            exact ⟨reached, by omega, clean⟩

/-- The addresses that words answer, word by word, are for every leaf those it reads. -/
def OwnAnswers (explicit : Option Backend) (leaves : List (LeafSite V)) (asked : List Address) :
    Prop :=
  cut leaves asked = leaves.map fun site => site.readAddresses (site.backendFor explicit)

instance (explicit : Option Backend) (leaves : List (LeafSite V)) (asked : List Address) :
    Decidable (OwnAnswers explicit leaves asked) :=
  inferInstanceAs (Decidable (_ = _))

theorem ownAnswers_iff {explicit : Option Backend} {leaves : List (LeafSite V)}
    {asked : List Address} (total : asked.length = (leaves.map LeafSite.readWords).sum)
    (supported : unsupported? explicit leaves = none) :
    OwnAnswers explicit leaves asked ↔
      (∀ site ∈ leaves, (site.readAddresses (site.backendFor explicit)).length = site.readWords) ∧
        asked = readAddresses explicit leaves := by
  have own : readAddresses explicit leaves =
      (leaves.map fun site => site.readAddresses (site.backendFor explicit)).flatten := by
    rw [unsupported?_eq_none_iff] at supported
    rw [← List.flatMap_def]
    exact List.flatMap_congr fun site member => given_of_supported _ (supported site member)
  -- Lists in pieces are the same if they are the same in one piece and cut at the same places.
  rw [OwnAnswers, List.eq_iff_flatten_eq, ← own, cut, List.flatten_splitLengths _ _ total.le,
    List.map_splitLengths_length _ _ total.ge, List.map_map, List.map_inj_left, and_comm]
  exact and_congr_left fun _ => forall₂_congr fun site _ => eq_comm

end Leaves

namespace Node

variable {C V : Type}

theorem readWords_eq_ok_iff {node : Node C V} {coord : C} {explicit : Option Backend}
    {words : List Word} {value : V} :
    node.readWords coord explicit words = .ok value ↔
      words.length = ((node.leaves coord).map LeafSite.readWords).sum ∧
        Leaves.Decodes explicit (node.leaves coord) (Leaves.cut (node.leaves coord) words)
          node.blank value := by
  rw [← Leaves.decode_eq_iff, readWords]
  generalize Leaves.decode explicit (node.leaves coord) words node.blank = outcome
  obtain ⟨reached, consumed, error⟩ := outcome
  dsimp only
  cases error with
  | some e => simp
  | none =>
    dsimp only
    split <;> simp_all

end Node

namespace Builder

variable {C V : Type}

-- What a write adds are the pairings, and these keep to the leaves exactly if every leaf has as
-- many addresses as words.
theorem pairings_of_write {node : Node C V} {coord : C} {value : V} {explicit : Option Backend}
    {b next : Builder} (written : b.write node coord value explicit = .ok next) :
    let leaves := node.leaves coord
    ∃ accesses : List WriteAccess, next.instructions = b.instructions ++ accesses.map .write ∧
      accesses.map WriteAccess.assignment =
        (Leaves.pairings explicit value leaves).map
          (fun (address, word) => (address.2, word.2)) ∧
      ((∀ pair ∈ Leaves.pairings explicit value leaves, pair.1.1 = pair.2.1) ↔
        ∀ site ∈ leaves, (site.writeAddresses (site.backendFor explicit)).length =
          (site.encode value (site.backendFor explicit)).length) := by
  obtain ⟨supported, -, total, restriction, accesses, -, paired, rfl⟩ := write_eq_ok_iff.1 written
  refine ⟨accesses, rfl, ?_, Leaves.pairings_own_iff total supported⟩
  rw [pairs_eq_ok_iff.1 paired, Leaves.map_pairings]

end Builder

end Playback
