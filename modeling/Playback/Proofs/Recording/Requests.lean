import Playback.Proofs.Recording.Replay
import Playback.Program.Basic
import Mathlib.Data.List.SplitLengths

/-! Reads of a recording, and the words that answer them.

A builder keeps two lists, instructions and slots, that nothing but the order of the calls ties
together. They stay in step (`Builder.Keeps`): the read requests among the instructions are those of
the slots, one slot after the other. A response is then shared out by the lengths of the requests.
-/

set_option autoImplicit false

namespace Playback

/-- A read that did not fail. -/
structure Request : Type 1 where
  {C V : Type}
  node : Node C V
  coord : C
  explicit : Option Backend
  ticket : TicketId

namespace Request

def addresses (request : Request) : List Address :=
  Leaves.readAddresses request.explicit (request.node.leaves request.coord)

def slot (request : Request) : Slot :=
  .ofRead request.node request.coord request.explicit request.ticket

def Accepted (request : Request) : Prop :=
  ∃ b next : Builder,
    b.read request.node request.coord request.explicit request.ticket = .ok next

theorem Accepted.supported {request : Request} (accepted : request.Accepted) :
    Leaves.unsupported? request.explicit (request.node.leaves request.coord) = none := by
  obtain ⟨b, next, read⟩ := accepted
  exact (Builder.read_eq_ok_iff.1 read).1

theorem Accepted.asks {request : Request} (accepted : request.Accepted) :
    0 < request.addresses.length := by
  obtain ⟨b, next, read⟩ := accepted
  exact List.length_pos_iff.2 (Builder.read_eq_ok_iff.1 read).2.1

def shares (requests : List Request) (words : List ResponseWord) : List (List ResponseWord) :=
  (requests.map fun request => request.addresses.length).splitLengths words

theorem shares_cons (request : Request) (rest : List Request) (words : List ResponseWord) :
    shares (request :: rest) words =
      words.take request.addresses.length ::
        shares rest (words.drop request.addresses.length) := by
  simp [shares]

theorem length_shares (requests : List Request) (words : List ResponseWord) :
    (shares requests words).length = requests.length := by
  simp [shares]

theorem zip_shares (requests : List Request) (words : List ResponseWord)
    (enough : (requests.flatMap addresses).length = words.length) :
    (requests.flatMap addresses).zip words =
      (requests.zip (shares requests words)).flatMap fun (request, share) =>
        request.addresses.zip share := by
  induction requests generalizing words with
  | nil => simp [shares]
  | cons request rest ih =>
    simp only [List.flatMap_cons, List.length_append] at enough
    have front : request.addresses.length = (words.take request.addresses.length).length := by
      rw [List.length_take]
      omega
    have back : (rest.flatMap addresses).length =
        (words.drop request.addresses.length).length := by
      rw [List.length_drop]
      omega
    simp only [shares_cons, List.flatMap_cons, List.zip_cons_cons, ← ih _ back]
    rw [← List.zip_append front, List.take_append_drop]

end Request

namespace Instruction

def requested? : Instruction → Option Address
  | read address => some address
  | _ => none

def requested (instructions : List Instruction) : List Address :=
  instructions.filterMap requested?

theorem requested_append (first second : List Instruction) :
    requested (first ++ second) = requested first ++ requested second :=
  List.filterMap_append

@[simp] theorem requested_reads (addresses : List Address) :
    requested (addresses.map .read) = addresses := by
  simp [requested, List.filterMap_map, Function.comp_def, requested?]

@[simp] theorem requested_writes (accesses : List WriteAccess) :
    requested (accesses.map .write) = [] := by
  simp [requested, requested?]

theorem length_requested (instructions : List Instruction) :
    (requested instructions).length = instructions.countP isRead := by
  induction instructions with
  | nil => rfl
  | cons instruction rest ih =>
    unfold requested at ih ⊢
    cases instruction <;> simp [List.filterMap_cons, List.countP_cons, requested?, isRead, ih]

end Instruction

namespace Builder

/-- The slots are those of the requests, and the instructions request their words in that order. -/
structure Keeps (b : Builder) (requests : List Request) : Prop where
  slots : b.slots = requests.map Request.slot
  requested : Instruction.requested b.instructions = requests.flatMap Request.addresses

theorem keeps_empty : Keeps {} [] where
  slots := rfl
  requested := rfl

theorem Keeps.joined {b other : Builder} {earlier later : List Request} (first : b.Keeps earlier)
    (second : other.Keeps later) : (b.joined other).Keeps (earlier ++ later) where
  slots := by simp only [Builder.joined, first.slots, second.slots, List.map_append]
  requested := by
    simp only [Builder.joined, Instruction.requested_append, first.requested, second.requested,
      List.flatMap_append]

theorem added_of_wait {timer : TimerOnChip} {value : TimerValue} {b next : Builder}
    (waited : b.waitUntil timer value = .ok next) :
    next.instructions = b.instructions ++ [.wait timer value] ∧ next.slots = b.slots := by
  unfold waitUntil at waited
  cases mark : b.watermarks.get timer with
  | some previous =>
    simp only [mark] at waited
    split at waited
    · cases waited
    · cases waited
      exact ⟨rfl, rfl⟩
  | none =>
    simp only [mark] at waited
    split at waited <;> cases waited <;> exact ⟨rfl, rfl⟩

theorem Keeps.silent {b next : Builder} {requests : List Request} {added : List Instruction}
    (keeps : b.Keeps requests) (slots : next.slots = b.slots)
    (instructions : next.instructions = b.instructions ++ added)
    (none : Instruction.requested added = []) : next.Keeps requests where
  slots := slots.trans keeps.slots
  requested := by
    rw [instructions, Instruction.requested_append, none, List.append_nil, keeps.requested]

end Builder

namespace Call

open Builder

mutual

def requests : Call → List Request
  | read node coord explicit ticket => [{ node, coord, explicit, ticket }]
  | merge calls => issued calls {}
  | write .. => []
  | wait .. => []
  | barrier _ => []

/-- The reads of a recording, without those of failed calls. -/
def issued : List Call → Builder → List Request
  | [], _ => []
  | call :: rest, b =>
    match call.perform b with
    | .ok next => call.requests ++ issued rest next
    | .error _ => issued rest b

end

-- Along the tree of calls: a merge brings a builder that is in step, by the same argument.
mutual

theorem keeps_perform {b next : Builder} {earlier : List Request} :
    (call : Call) → b.Keeps earlier → call.perform b = .ok next →
      next.Keeps (earlier ++ call.requests)
  | write node coord value explicit => by
    intro keeps performed
    obtain ⟨accesses, instructions, slots, -⟩ := added_of_write performed
    simpa [requests] using keeps.silent slots instructions (Instruction.requested_writes accesses)
  | read node coord explicit ticket => by
    intro keeps performed
    obtain ⟨instructions, slots, -⟩ := added_of_read performed
    constructor
    · simp only [slots, keeps.slots, requests, List.map_append, List.map_cons, List.map_nil,
        Request.slot]
    · simp [instructions, Instruction.requested_append, keeps.requested, requests,
        Request.addresses]
  | wait timer value => by
    intro keeps performed
    obtain ⟨instructions, slots⟩ := added_of_wait performed
    simpa [requests] using keeps.silent slots instructions rfl
  | barrier kind => by
    intro keeps performed
    cases performed
    have kept : (b.barrier kind).Keeps earlier := keeps.silent rfl rfl rfl
    simpa [requests] using kept
  | merge calls => by
    intro keeps performed
    obtain ⟨-, rfl⟩ := mergeBack_eq_ok_iff.1 performed
    exact keeps.joined (keeps_record calls keeps_empty)

theorem keeps_record {b : Builder} {earlier : List Request} :
    (calls : List Call) → b.Keeps earlier → (record calls b).Keeps (earlier ++ issued calls b)
  | [] => by
    intro keeps
    simpa [record, issued] using keeps
  | call :: rest => by
    intro keeps
    unfold record issued
    cases performed : call.perform b with
    | error e => exact keeps_record rest keeps
    | ok next =>
      rw [← List.append_assoc]
      exact keeps_record rest (keeps_perform call keeps performed)

end

theorem accepted_of_issued :
    (calls : List Call) → (b : Builder) → ∀ request ∈ issued calls b, request.Accepted
  | [], _ => nofun
  | call :: rest, b => by
    intro request member
    unfold issued at member
    cases performed : call.perform b with
    | error e =>
      rw [performed] at member
      exact accepted_of_issued rest b request member
    | ok next =>
      rw [performed] at member
      rcases List.mem_append.1 member with own | later
      · cases call with
        | read node coord explicit ticket =>
          obtain rfl := List.mem_singleton.1 own
          exact ⟨b, next, performed⟩
        | merge calls => exact accepted_of_issued calls {} request own
        | write | wait | barrier => cases own
      · exact accepted_of_issued rest next request later

theorem asks_of_issued (calls : List Call) :
    ∀ request ∈ issued calls {}, 0 < request.addresses.length :=
  fun request member => (accepted_of_issued calls {} request member).asks

end Call

end Playback
