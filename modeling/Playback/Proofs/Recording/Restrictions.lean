import Playback.Container.Irregular
import Playback.Proofs.Recording.Contributions

/-! Which executors a recording is restricted to.

Every restricted leaf that a successful write or read visits asks for one kind of executor, however
deep it lies in its composite. They ask for the same kind, and the recording is restricted to it
(`Call.restriction_eq_some_iff`).
-/

set_option autoImplicit false

namespace Playback

variable {C V : Type}

namespace Leaves

def required (leaves : List (LeafSite V)) : List ExecutorKind :=
  leaves.filterMap LeafSite.restriction

theorem restrictions_eq {explicit : Option Backend} {leaves : List (LeafSite V)}
    (supported : unsupported? explicit leaves = none) :
    restrictions explicit leaves = required leaves := by
  rw [unsupported?_eq_none_iff] at supported
  induction leaves with
  | nil => rfl
  | cons site rest ih =>
    have resolved : site.resolve explicit = .ok (site.backendFor explicit) :=
      LeafSite.resolve_eq_ok_iff.2 ⟨rfl, supported site List.mem_cons_self⟩
    have later : gather explicit (fun site _ => site.restriction.toList) rest = required rest :=
      ih fun other member => supported other (List.mem_cons_of_mem _ member)
    rw [restrictions, gather_cons, resolved, later]
    unfold required
    rw [List.filterMap_cons]
    cases site.restriction <;> rfl

end Leaves

namespace Builder

def Restricted (b : Builder) (kinds : List ExecutorKind) : Prop :=
  ∀ kind, b.restriction = some kind ↔ kind ∈ kinds

theorem restrict_eq_some_iff {container : String} {existing result : Option ExecutorKind}
    {requested : List ExecutorKind}
    (restricted : restrict container existing requested = .ok result) (kind : ExecutorKind) :
    result = some kind ↔ existing = some kind ∨ kind ∈ requested := by
  induction requested generalizing existing with
  | nil =>
    cases restricted
    simp
  | cons first rest ih =>
    rw [restrict_cons] at restricted
    cases existing with
    | none => simp [ih restricted, eq_comm]
    | some own =>
      by_cases same : own = first
      · subst same
        simp only [if_true] at restricted
        simp [ih restricted, eq_comm]
      · simp [same] at restricted

theorem Restricted.joined {b other : Builder} {earlier later : List ExecutorKind}
    (fits : b.Fits other) (first : b.Restricted earlier) (second : other.Restricted later) :
    (b.joined other).Restricted (earlier ++ later) := by
  intro kind
  change b.restriction.or other.restriction = some kind ↔ _
  rw [List.mem_append, ← first kind, ← second kind]
  have agree := fits.agree
  cases mine : b.restriction with
  | none => simp
  | some own =>
    rw [Option.some_or]
    constructor
    · exact .inl
    · rintro (same | theirs)
      · exact same
      · rw [agree own kind mine theirs]

end Builder

namespace Call

open Builder

def required : Call → List ExecutorKind
  | write node coord _ _ => Leaves.required (node.leaves coord)
  | read node coord _ _ => Leaves.required (node.leaves coord)
  | _ => []

theorem restricted_alone {call : Call} {part : Builder} (single : ∀ calls, call ≠ merge calls)
    (performed : call.perform {} = .ok part) : part.Restricted (required call) := by
  intro kind
  cases call with
  | write node coord value explicit =>
    obtain ⟨supported, -, -, restriction, accesses, restricted, -, rfl⟩ :=
      write_eq_ok_iff.1 performed
    rw [Leaves.restrictions_eq supported] at restricted
    simpa [required] using restrict_eq_some_iff restricted kind
  | read node coord explicit ticket =>
    obtain ⟨supported, -, restriction, restricted, rfl⟩ := read_eq_ok_iff.1 performed
    rw [Leaves.restrictions_eq supported] at restricted
    simpa [required] using restrict_eq_some_iff restricted kind
  | wait timer value =>
    rw [perform, waitUntil_empty] at performed
    cases performed
    simp [waiting, required]
  | barrier kind =>
    cases performed
    simp [Builder.barrier, required]
  | merge calls => exact absurd rfl (single calls)

theorem follows_required : Follows required Builder.Restricted where
  empty := by simp [Restricted]
  joined := Restricted.joined
  alone := restricted_alone

/-- The kinds of executors that a recording's successful accesses ask for, those in merged builders
included. -/
def restrictions (calls : List Call) : List ExecutorKind :=
  (accepted calls {}).flatMap (contribution required)

theorem restriction_eq_some_iff (calls : List Call) (kind : ExecutorKind) :
    (record calls {}).restriction = some kind ↔ kind ∈ restrictions calls := by
  rw [restrictions, ← gathered_eq]
  exact gathered_record follows_required calls covered_empty follows_required.empty kind

theorem restrictions_agree {calls : List Call} {kind other : ExecutorKind}
    (first : kind ∈ restrictions calls) (second : other ∈ restrictions calls) : kind = other := by
  rw [← restriction_eq_some_iff] at first second
  exact Option.some.inj (first.symm.trans second)

-- Neither a composite with two kinds nor a merged builder with another kind is accepted.
example :
    restrictions
      [.write Mixed.node ⟨⟩ default none, .read (PlainRegister.simOnly.node default) ⟨⟩ none 0,
        .merge [.read PllClockOutput.node (.first Nat.zero_lt_two) none 1]] = [.simulation] := rfl

end Call

end Playback
