import Mathlib.Data.List.Chain
import Playback.Container.Irregular
import Playback.Program.Basic
import Playback.Proofs.Recording.Alignment

/-! Waits on a timer never go backwards.

A stream marks a timer wherever it waits on the timer or writes the timer's register. Of two
neighbouring marks the later one, if it is a wait, must not be the smaller. This is a condition on
neighbours, so two streams in a row satisfy it if each does and the last mark of the first gets
along with the first mark of the second. A builder keeps no more than that: the last mark of every
timer, and the first one if it is a wait (`Builder.Marked`).

A builder knows of the writes that restart a timer by the timer's own leaf. So all this is about
streams where no other register's word lands in a timer's (`Leaves.OnlyTimersWrite`). It may do so
in a composite that has as many words as addresses in total and not at each leaf.
-/

set_option autoImplicit false

namespace Playback

/-- A wait on a timer, or a write to its register, which restarts it. -/
structure TimerMark where
  value : TimerValue
  waits : Bool

def TimerMark.Forward (earlier later : TimerMark) : Prop :=
  later.waits → earlier.value ≤ later.value

namespace Instruction

def mark? (timer : TimerOnChip) : Instruction → Option TimerMark
  | wait other value => if other = timer then some { value, waits := true } else none
  | write access =>
    if access.address ∈ Timer.addresses timer then
      some { value := UInt32.ofNat access.word.raw, waits := false }
    else none
  | read _ | barrier _ => none

def marks (timer : TimerOnChip) (instructions : List Instruction) : List TimerMark :=
  instructions.filterMap (mark? timer)

/-- Every wait on a timer is for no less than the closest mark of the timer before it. -/
def WaitsForward (timer : TimerOnChip) (instructions : List Instruction) : Prop :=
  (marks timer instructions).IsChain TimerMark.Forward

theorem marks_append (timer : TimerOnChip) (first second : List Instruction) :
    marks timer (first ++ second) = marks timer first ++ marks timer second :=
  List.filterMap_append

theorem marks_reads (timer : TimerOnChip) (addresses : List Address) :
    marks timer (addresses.map .read) = [] := by
  simp [marks, mark?]

end Instruction

open Instruction

/-! ### What a builder keeps of the marks -/

namespace Builder

/-- The watermark of a timer is its last mark, a leading wait is a first mark that is a wait. -/
structure Marked (b : Builder) : Prop where
  last : ∀ timer,
    b.watermarks.get timer = (marks timer b.instructions).getLast?.map TimerMark.value
  first : ∀ timer, b.leadingWaits.get timer =
    ((marks timer b.instructions).head?.filter TimerMark.waits).map TimerMark.value
  forward : ∀ timer, WaitsForward timer b.instructions

theorem Marked.covered {b : Builder} (marked : b.Marked) : b.Covered := by
  intro timer
  rw [marked.first, marked.last]
  cases marks timer b.instructions with
  | nil => simp
  | cons mark rest => simp [List.getLast?_cons]

theorem marked_empty : Marked {} where
  last timer := by simp [marks]
  first timer := by simp [marks]
  forward timer := .nil

-- A builder fits behind another exactly if the streams in a row still wait forward.
theorem Marked.forward_append_iff {b other : Builder} (first : b.Marked) (second : other.Marked)
    (timer : TimerOnChip) :
    WaitsForward timer (b.instructions ++ other.instructions) ↔
      Forward (b.watermarks.get timer) (other.leadingWaits.get timer) := by
  have here : (marks timer b.instructions).IsChain TimerMark.Forward := first.forward timer
  have there : (marks timer other.instructions).IsChain TimerMark.Forward := second.forward timer
  rw [WaitsForward, marks_append, List.isChain_append, first.last, second.first]
  simp only [here, there, true_and, TimerMark.Forward, Forward]
  cases (marks timer b.instructions).getLast? with
  | none => simp
  | some last =>
    cases (marks timer other.instructions).head? with
    | none => simp
    | some mark => cases waits : mark.waits <;> simp [waits]

theorem Marked.joined {b other : Builder} (first : b.Marked) (second : other.Marked)
    (fits : b.Fits other) : (b.joined other).Marked where
  last timer := by
    simp only [Builder.joined, TimerTable.get_overlay, marks_append, first.last, second.last,
      List.getLast?_append]
    cases (marks timer other.instructions).getLast? <;> rfl
  first timer := by
    simp only [Builder.joined, get_mergedLeadingWaits, marks_append, first.first, second.first,
      first.last]
    cases marks timer b.instructions with
    | nil => simp
    | cons mark rest => simp [List.getLast?_cons]
  forward timer := (first.forward_append_iff second timer).2 (fits.forward timer)

theorem marked_waiting (timer : TimerOnChip) (value : TimerValue) :
    (waiting timer value).Marked := by
  have single (other : TimerOnChip) : marks other (waiting timer value).instructions =
      if timer = other then [{ value, waits := true }] else [] := by
    by_cases same : timer = other <;> simp [waiting, marks, mark?, same]
  constructor
  · intro other
    rw [single, waiting, TimerTable.get_set]
    by_cases same : timer = other <;> simp [same, Ne.symm]
  · intro other
    rw [single, waiting, TimerTable.get_set]
    by_cases same : timer = other
    · subst same
      simp [Option.filter]
    · simp [same, Ne.symm]
  · intro other
    rw [WaitsForward, single]
    by_cases same : timer = other <;> simp [same]

theorem marked_of_no_wait {b : Builder} (leading : b.leadingWaits = .replicate 2 none)
    (last : ∀ timer,
      b.watermarks.get timer = (marks timer b.instructions).getLast?.map TimerMark.value)
    (none : ∀ timer, ∀ mark ∈ marks timer b.instructions, mark.waits = false) : b.Marked where
  last := last
  first timer := by
    rw [leading, TimerTable.get_empty]
    cases found : (marks timer b.instructions).head? with
    | none => rfl
    | some mark => simp [Option.filter, none timer mark (List.mem_of_head? found)]
  forward timer := by
    refine (List.Pairwise.isChain ?_)
    refine List.pairwise_of_forall_mem_list ?_
    intro earlier _ later member waits
    simp [none timer later member] at waits

end Builder

/-! ### Containers that leave timers to their own leaf -/

/-- The leaf of a timer, or one that neither writes a timer's register nor restarts a timer. -/
inductive LeafSite.SparesTimers {V : Type} : LeafSite V → Prop where
  | own (timer : TimerOnChip) (part : Part V Timer) :
    SparesTimers ((Timer.leaf.at timer).within part)
  | apart {site : LeafSite V} (restartless : ∀ value, site.timerReset value = none)
    (elsewhere : ∀ backend ∈ site.supported, ∀ address ∈ site.writeAddresses backend,
      ∀ timer, address ∉ Timer.addresses timer) :
    SparesTimers site

/-- Timers alone write timers' registers: no other leaf has such a register or restarts a timer, and
no word of another leaf lands in one. -/
structure Leaves.OnlyTimersWrite {V : Type} (explicit : Option Backend) (value : V)
    (leaves : List (LeafSite V)) : Prop where
  sites : ∀ site ∈ leaves, site.SparesTimers
  own : ∀ pair ∈ pairings explicit value leaves, ∀ timer,
    pair.1.2 ∈ Timer.addresses timer → pair.2.1 = pair.1.1

namespace Timer

def written? (timer : TimerOnChip) : Address × Word → Option TimerMark
  | (address, word) =>
    if address ∈ addresses timer then
      some { value := UInt32.ofNat word.raw, waits := false }
    else none

def restarted? (timer : TimerOnChip) : TimerOnChip × TimerValue → Option TimerMark
  | (other, value) => if other = timer then some { value, waits := false } else none

theorem mem_addresses_iff {timer other : TimerOnChip} {address : Address}
    (member : address ∈ addresses other) : address ∈ addresses timer ↔ other = timer := by
  constructor
  · intro also
    have same := (owner_of_mem timer also).symm.trans (owner_of_mem other member)
    exact (Site.index_inj.1 (Prod.mk.inj same).2).symm
  · rintro rfl
    exact member

theorem marks_writes (timer : TimerOnChip) (accesses : List WriteAccess) :
    marks timer (accesses.map .write) =
      (accesses.map WriteAccess.assignment).filterMap (written? timer) := by
  simp only [marks, List.filterMap_map]
  rfl

end Timer

open Timer

section Words

variable {V : Type} {explicit : Option Backend} {value : V}

-- What a leaf does to timers: nothing at all, or it restarts one by the word in its register.
theorem LeafSite.SparesTimers.given_cases {site : LeafSite V} (spares : site.SparesTimers)
    (explicit : Option Backend) (value : V) :
    (Leaves.given explicit (fun site _ => (site.timerReset value).toList) site = [] ∧
      ∀ address ∈ Leaves.given explicit LeafSite.writeAddresses site, ∀ timer,
        address ∉ Timer.addresses timer) ∨
    ∃ address word, (∃ timer, address ∈ Timer.addresses timer) ∧
      Leaves.given explicit LeafSite.writeAddresses site = [address] ∧
      Leaves.given explicit (fun site backend => site.encode value backend) site = [word] ∧
      ∀ timer, [(address, word)].filterMap (written? timer) =
        (Leaves.given explicit (fun site _ => (site.timerReset value).toList) site).filterMap
          (restarted? timer) := by
  unfold Leaves.given
  cases resolved : site.resolve explicit with
  | error e => exact .inl ⟨rfl, nofun⟩
  | ok backend =>
    have supported := (LeafSite.resolve_eq_ok_iff.1 resolved).2
    cases spares with
    | apart restartless elsewhere =>
      exact .inl ⟨congrArg Option.toList (restartless value), elsewhere backend supported⟩
    | own other part =>
      obtain rfl : backend = .omnibus := List.mem_singleton.1 supported
      let address : Address := .ofNat .omnibus (0x00020000 + other.index)
      let word : Word := .ofNat .omnibus (part.get value).value.toNat
      have member : address ∈ addresses other := List.mem_singleton.2 rfl
      have raw : UInt32.ofNat word.raw = (part.get value).value := by
        rw [Word.raw_ofNat_of_lt (part.get value).value.toNat_lt, UInt32.ofNat_toNat]
      refine .inr ⟨address, word, ⟨other, member⟩, rfl, rfl, fun timer => ?_⟩
      change _ = [(other, (part.get value).value)].filterMap (restarted? timer)
      simp only [List.filterMap_cons, List.filterMap_nil, written?, restarted?,
        mem_addresses_iff member, raw]

namespace Leaves

-- A word of the same leaf stands across from an address only if equally much stands before both.
theorem length_eq_of_own {number : Nat} {addresses later : List (Nat × Address)}
    {words behind : List (Nat × Word)} {address : Address} {word : Word}
    (before : ∀ entry ∈ words, entry.1 < number) (after : ∀ entry ∈ behind, number < entry.1)
    (total : (addresses ++ (number, address) :: later).length =
      (words ++ (number, word) :: behind).length)
    (own : ∀ pair ∈ (addresses ++ (number, address) :: later).zip
      (words ++ (number, word) :: behind), pair.1 = (number, address) → pair.2.1 = number) :
    addresses.length = words.length := by
  have inside : addresses.length < (words ++ (number, word) :: behind).length := by
    rw [← total, List.length_append, List.length_cons]
    omega
  obtain ⟨entry, found⟩ : ∃ entry, (words ++ (number, word) :: behind)[addresses.length]? =
      some entry := ⟨_, List.getElem?_eq_getElem inside⟩
  have same : entry.1 = number := by
    refine own ((number, address), entry) (List.mem_of_getElem? (i := addresses.length) ?_) rfl
    exact List.getElem?_zip_eq_some.2 ⟨by simp, found⟩
  rcases Nat.lt_trichotomy addresses.length words.length with short | equal | long
  · rw [List.getElem?_append_left short] at found
    exact absurd same (before entry (List.mem_of_getElem? found)).ne
  · exact equal
  · obtain ⟨gap, distance⟩ := Nat.exists_eq_add_of_lt long
    rw [List.getElem?_append_right long.le, distance,
      show words.length + gap + 1 - words.length = gap + 1 by omega,
      List.getElem?_cons_succ] at found
    exact absurd same (after entry (List.mem_of_getElem? found)).ne'

/-- The addresses and the words from one leaf on, behind those that earlier leaves left over. -/
def sidesFrom (explicit : Option Backend) (value : V) (number : Nat) (leaves : List (LeafSite V))
    (addresses : List (Nat × Address)) (words : List (Nat × Word)) :
    List (Nat × Address) × List (Nat × Word) :=
  (addresses ++ traced explicit LeafSite.writeAddresses number leaves,
    words ++ traced explicit (fun site backend => site.encode value backend) number leaves)

theorem written_zip_eq_nil {addresses : List (Nat × Address)}
    (elsewhere : ∀ entry ∈ addresses, ∀ timer, entry.2 ∉ Timer.addresses timer)
    (words : List (Nat × Word)) (timer : TimerOnChip) :
    (addresses.zip words).filterMap
      (fun pair => written? timer (pair.1.2, pair.2.2)) = [] := by
  refine List.filterMap_eq_nil_iff.2 ?_
  rintro ⟨address, word⟩ member
  exact if_neg (elsewhere address (List.of_mem_zip member).1 timer)

-- By induction on the leaves. In front of a timer nothing is left over, since its word lands in its
-- register.
theorem written_sidesFrom {number : Nat} {leaves : List (LeafSite V)}
    {addresses : List (Nat × Address)} {words : List (Nat × Word)}
    {sides : List (Nat × Address) × List (Nat × Word)}
    (both : sides = sidesFrom explicit value number leaves addresses words)
    (spares : ∀ site ∈ leaves, site.SparesTimers)
    (elsewhere : ∀ entry ∈ addresses, ∀ timer, entry.2 ∉ Timer.addresses timer)
    (before : ∀ entry ∈ words, entry.1 < number)
    (total : sides.1.length = sides.2.length)
    (own : ∀ pair ∈ sides.1.zip sides.2, ∀ timer,
      pair.1.2 ∈ Timer.addresses timer → pair.2.1 = pair.1.1) (timer : TimerOnChip) :
    (sides.1.zip sides.2).filterMap (fun pair => written? timer (pair.1.2, pair.2.2)) =
      (timerResets explicit value leaves).filterMap (restarted? timer) := by
  induction leaves generalizing number addresses words sides with
  | nil =>
    rw [both]
    exact written_zip_eq_nil (by simpa [sidesFrom, traced] using elsewhere) _ timer
  | cons site rest ih =>
    obtain ⟨here, later⟩ := List.forall_mem_cons.1 spares
    have resets : timerResets explicit value (site :: rest) =
        given explicit (fun site _ => (site.timerReset value).toList) site ++
          timerResets explicit value rest := gather_cons ..
    rw [resets, List.filterMap_append]
    rcases here.given_cases explicit value with
      ⟨restartless, quiet⟩ | ⟨address, word, ⟨other, register⟩, one, single, restarts⟩
    · have moved : sides = sidesFrom explicit value (number + 1) rest
          (addresses ++ (given explicit LeafSite.writeAddresses site).map (number, ·))
          (words ++ (given explicit (fun site backend => site.encode value backend) site).map
            (number, ·)) := by
        simp only [both, sidesFrom, traced, List.append_assoc]
      rw [restartless, List.filterMap_nil, List.nil_append]
      refine ih moved later (List.forall_mem_append.2 ⟨elsewhere, List.forall_mem_map.2 quiet⟩)
        (List.forall_mem_append.2 ⟨fun entry pending => Nat.lt_succ_of_lt (before entry pending),
          List.forall_mem_map.2 fun _ _ => Nat.lt_succ_self number⟩) total own
    · have split : sides = (addresses ++ (number, address) ::
            traced explicit LeafSite.writeAddresses (number + 1) rest,
          words ++ (number, word) ::
            traced explicit (fun site backend => site.encode value backend) (number + 1) rest) := by
        simp only [both, sidesFrom, traced, one, single, List.map_cons, List.map_nil,
          List.cons_append, List.nil_append]
      subst split
      have level : addresses.length = words.length := by
        refine length_eq_of_own before (fun entry member => le_of_mem_traced member) total ?_
        rintro ⟨_, entry⟩ member rfl
        exact own _ member other register
      dsimp only at total own ⊢
      rw [List.zip_append level, List.zip_cons_cons] at own ⊢
      have onward := ih (show _ = sidesFrom explicit value (number + 1) rest [] [] from rfl) later
        (List.forall_mem_nil _) (List.forall_mem_nil _)
        (by simpa [sidesFrom, level] using total)
        (fun pair member => own pair (List.mem_append_right _ (List.mem_cons_of_mem _ member)))
      rw [List.filterMap_append, written_zip_eq_nil elsewhere, List.nil_append, ← restarts timer,
        ← List.singleton_append, List.filterMap_append]
      exact congrArg (_ ++ ·) onward

-- Without timers among them, leaves may have as many addresses and words as they like.
theorem onlyTimersWrite_of_apart {leaves : List (LeafSite V)}
    (restartless : ∀ site ∈ leaves, ∀ value, site.timerReset value = none)
    (elsewhere : ∀ site ∈ leaves, ∀ backend ∈ site.supported,
      ∀ address ∈ site.writeAddresses backend, ∀ timer, address ∉ Timer.addresses timer) :
    OnlyTimersWrite explicit value leaves where
  sites site member := .apart (restartless site member) (elsewhere site member)
  own := by
    rintro ⟨⟨number, address⟩, word⟩ member timer register
    have given : address ∈ writeAddresses explicit leaves := by
      rw [writeAddresses, ← map_snd_traced 0]
      exact List.mem_map_of_mem (List.of_mem_zip member).1
    obtain ⟨site, among, inside⟩ := List.mem_flatMap.1 given
    cases resolved : site.resolve explicit with
    | error e => simp [resolved] at inside
    | ok backend =>
      rw [resolved] at inside
      have supported := (LeafSite.resolve_eq_ok_iff.1 resolved).2
      exact absurd register (elsewhere site among backend supported address inside timer)

theorem OnlyTimersWrite.written {leaves : List (LeafSite V)}
    (only : OnlyTimersWrite explicit value leaves)
    (total : (writeAddresses explicit leaves).length = (words explicit value leaves).length)
    (timer : TimerOnChip) :
    (pairings explicit value leaves).filterMap
        (fun pair => written? timer (pair.1.2, pair.2.2)) =
      (timerResets explicit value leaves).filterMap (restarted? timer) := by
  refine written_sidesFrom (show _ = sidesFrom explicit value 0 leaves [] [] from rfl) only.sites
    (List.forall_mem_nil _) (List.forall_mem_nil _) ?_ only.own timer
  simp only [sidesFrom, List.nil_append, length_traced]
  exact total

end Leaves

end Words

theorem TimerTable.get_setAll (resets : List (TimerOnChip × TimerValue)) (table : TimerTable)
    (timer : TimerOnChip) :
    (resets.foldl (fun table (timer, value) => table.set timer value) table).get timer =
      ((resets.filterMap (restarted? timer)).getLast?.map TimerMark.value).or
        (table.get timer) := by
  induction resets generalizing table with
  | nil => simp
  | cons reset rest ih =>
    obtain ⟨other, value⟩ := reset
    rw [List.foldl_cons, ih, get_set, List.filterMap_cons]
    by_cases same : other = timer
    · subst same
      have here : restarted? other (other, value) = some { value, waits := false } := if_pos rfl
      simp only [here, List.getLast?_cons, if_true]
      cases (rest.filterMap (restarted? other)).getLast? <;> rfl
    · simp [restarted?, same, Ne.symm same]

namespace Builder

variable {C V : Type}

theorem marked_write {node : Node C V} {coord : C} {value : V} {explicit : Option Backend}
    {part : Builder} (only : Leaves.OnlyTimersWrite explicit value (node.leaves coord))
    (written : write node coord value explicit {} = .ok part) : part.Marked := by
  obtain ⟨-, -, total, _, accesses, -, paired, rfl⟩ := write_eq_ok_iff.1 written
  have same (timer : TimerOnChip) : marks timer (accesses.map .write) =
      (Leaves.timerResets explicit value (node.leaves coord)).filterMap (restarted? timer) := by
    rw [marks_writes, pairs_eq_ok_iff.1 paired, ← Leaves.map_pairings, List.filterMap_map]
    exact only.written total timer
  refine marked_of_no_wait rfl (fun timer => ?_) fun timer mark member => ?_
  · simp only [List.nil_append, TimerTable.get_setAll, same, TimerTable.get_empty, Option.or_none]
  · simp only [List.nil_append, same] at member
    obtain ⟨⟨other, value⟩, -, marked⟩ := List.mem_filterMap.1 member
    simp only [restarted?] at marked
    split at marked <;> cases marked
    rfl

theorem marked_read {node : Node C V} {coord : C} {explicit : Option Backend} {ticket : TicketId}
    {part : Builder} (read : read node coord explicit ticket {} = .ok part) : part.Marked := by
  obtain ⟨-, -, _, -, rfl⟩ := read_eq_ok_iff.1 read
  refine marked_of_no_wait rfl (fun timer => ?_) fun timer mark member => ?_
  · simp [marks_reads]
  · simp [marks_reads] at member

end Builder

namespace Call

open Builder

/-- A call none of whose writes, if it is accepted, puts anything but timers' own words into timers'
registers. -/
inductive OnlyTimersWrite : Call → Prop where
  | write {C V : Type} {node : Node C V} {coord : C} {value : V} {explicit : Option Backend}
    (only : (Builder.write node coord value explicit {}).isOk →
      Leaves.OnlyTimersWrite explicit value (node.leaves coord)) :
    OnlyTimersWrite (.write node coord value explicit)
  | read {C V : Type} (node : Node C V) (coord : C) (explicit : Option Backend)
    (ticket : TicketId) : OnlyTimersWrite (.read node coord explicit ticket)
  | wait (timer : TimerOnChip) (value : TimerValue) : OnlyTimersWrite (.wait timer value)
  | barrier (kind : Barrier) : OnlyTimersWrite (.barrier kind)
  | merge {calls : List Call} (each : ∀ call ∈ calls, OnlyTimersWrite call) :
    OnlyTimersWrite (.merge calls)

-- Along the tree of calls, as every call merges the part that it adds to an empty builder.
mutual

theorem marked_part {part : Builder} :
    (call : Call) → call.OnlyTimersWrite → call.perform {} = .ok part → part.Marked
  | write node coord value explicit => by
    intro only performed
    cases only with
    | write only =>
      rw [perform] at performed
      exact marked_write (only (by rw [performed]; rfl)) performed
  | read node coord explicit ticket => by
    intro _ performed
    exact marked_read performed
  | wait timer value => by
    intro _ performed
    rw [perform, waitUntil_empty] at performed
    cases performed
    exact marked_waiting timer value
  | barrier kind => by
    intro _ performed
    cases performed
    exact marked_of_no_wait rfl (fun timer => by simp [Builder.barrier, marks, mark?])
      (fun timer mark member => by simp [Builder.barrier, marks, mark?] at member)
  | merge calls => by
    intro only performed
    rw [perform, empty_mergeBack] at performed
    cases performed
    cases only with
    | merge each => exact marked_record calls each marked_empty

theorem marked_record {b : Builder} :
    (calls : List Call) → (∀ call ∈ calls, call.OnlyTimersWrite) → b.Marked → (record calls b).Marked
  | [] => fun _ marked => marked
  | call :: rest => by
    intro each marked
    obtain ⟨here, later⟩ := List.forall_mem_cons.1 each
    unfold record
    cases performed : call.perform b with
    | error e => exact marked_record rest later marked
    | ok next =>
      obtain ⟨part, alone, merged⟩ := (perform_iff_part call marked.covered).1 performed
      obtain ⟨fits, rfl⟩ := mergeBack_eq_ok_iff.1 merged
      exact marked_record rest later (marked.joined (marked_part call here alone) fits)

end

end Call

namespace NodeKind

theorem sparesTimers {kind : NodeKind} {coord : kind.Coord} :
    ∀ site ∈ kind.node.leaves coord, site.SparesTimers := by
  intro site member
  rw [leaves_eq] at member
  obtain ⟨⟨kind, coord, part⟩, -, rfl⟩ := List.mem_map.1 member
  by_cases timer : kind = .timer
  · subst timer
    exact .own coord part
  · refine .apart (fun value => ?_) fun backend _ address member => ?_
    · exact LeafKind.timerReset_eq_none timer (part.get value) coord
    · exact LeafKind.not_mem_timer timer coord member

theorem onlyTimersWrite (kind : NodeKind) (coord : kind.Coord) (value : kind.Value)
    (explicit : Option Backend) : (Call.write kind.node coord value explicit).OnlyTimersWrite := by
  refine .write fun accepted => ⟨sparesTimers, fun pair member _ _ => ?_⟩
  cases written : Builder.write kind.node coord value explicit {} with
  | error e => simp [written, Except.isOk, Except.toBool] at accepted
  | ok part =>
    obtain ⟨supported, -, total, -⟩ := Builder.write_eq_ok_iff.1 written
    refine ((Leaves.pairings_own_iff total supported).2 (fun site among => ?_) pair member).symm
    exact kind.aligned coord explicit value total site among _ (LeafSite.resolve_eq_ok_iff.2
      ⟨rfl, Leaves.unsupported?_eq_none_iff.1 supported site among⟩)

end NodeKind

namespace Builder

theorem waitUntil_eq_error_iff {timer : TimerOnChip} {value : TimerValue} {b : Builder}
    {e : BuildError} :
    b.waitUntil timer value = .error e ↔
      ∃ previous, b.watermarks.get timer = some previous ∧ value < previous ∧
        e = .nonMonotonicWait timer previous value := by
  unfold waitUntil
  cases mark : b.watermarks.get timer with
  | none => by_cases leading : (b.leadingWaits.get timer).isSome <;> simp [leading]
  | some previous => by_cases backward : value < previous <;> simp [backward, eq_comm]

theorem restrict_error {container : String} {existing : Option ExecutorKind}
    {requested : List ExecutorKind} {e : BuildError}
    (failed : restrict container existing requested = .error e) :
    ∃ kind other, e = .conflictingRestriction container kind other := by
  induction requested generalizing existing with
  | nil => cases failed
  | cons kind rest ih =>
    rw [restrict_cons] at failed
    split at failed
    · exact ih failed
    · split at failed
      · exact ih failed
      · cases failed
        exact ⟨_, _, rfl⟩

theorem backwardWait?_eq_some {watermarks leadingWaits : TimerTable} {e : BuildError}
    (found : backwardWait? watermarks leadingWaits = some e) :
    ∃ timer previous requested, e = .nonMonotonicWait timer previous requested ∧
      ¬Forward (watermarks.get timer) (leadingWaits.get timer) := by
  obtain ⟨timer, -, backward⟩ := List.exists_of_findSome?_eq_some found
  cases leading : leadingWaits.get timer with
  | none => simp [leading] at backward
  | some requested =>
    cases mark : watermarks.get timer with
    | none => simp [leading, mark] at backward
    | some previous =>
      simp only [leading, mark, Option.bind_eq_bind, Option.bind_some] at backward
      split at backward
      · cases backward
        refine ⟨timer, previous, requested, rfl, ?_⟩
        rename_i less
        simpa [mark, leading, Forward, UInt32.not_le] using less
      · cases backward

theorem mergeBack_nonMonotonic {b other : Builder} {timer : TimerOnChip}
    {previous requested : TimerValue}
    (failed : b.mergeBack other = .error (.nonMonotonicWait timer previous requested)) :
    ¬Forward (b.watermarks.get timer) (other.leadingWaits.get timer) := by
  unfold mergeBack at failed
  cases backward : backwardWait? b.watermarks other.leadingWaits with
  | some e =>
    rw [backward] at failed
    cases failed
    obtain ⟨_, _, _, same, astray⟩ := backwardWait?_eq_some backward
    cases same
    exact astray
  | none =>
    rw [backward] at failed
    dsimp only at failed
    cases restricted : restrict "PlaybackProgramBuilder" b.restriction other.restriction.toList with
    | ok restriction => simp [restricted, bind, Except.bind, pure, Except.pure] at failed
    | error e =>
      obtain ⟨_, _, rfl⟩ := restrict_error restricted
      simp [restricted, bind, Except.bind] at failed

theorem forward_of_mergeBack {b other : Builder}
    (passed : ∀ timer previous requested,
      b.mergeBack other ≠ .error (.nonMonotonicWait timer previous requested))
    (timer : TimerOnChip) : Forward (b.watermarks.get timer) (other.leadingWaits.get timer) := by
  cases backward : backwardWait? b.watermarks other.leadingWaits with
  | none => exact backwardWait?_eq_none_iff.1 backward timer
  | some e =>
    obtain ⟨late, previous, requested, rfl, -⟩ := backwardWait?_eq_some backward
    refine absurd ?_ (passed late previous requested)
    unfold mergeBack
    rw [backward]

end Builder

namespace Call

open Builder

-- The watermarks are the last marks of the stream, so the checks at a wait and at a merge refuse
-- what would wait backwards and nothing else.
theorem waits_forward (calls : List Call) (only : ∀ call ∈ calls, call.OnlyTimersWrite) :
    (∀ timer, (record calls {}).watermarks.get timer =
      (marks timer (record calls {}).instructions).getLast?.map TimerMark.value) ∧
    (∀ timer, (record calls {}).watermarks.get timer = none ↔
      ∀ instruction ∈ (record calls {}).instructions, mark? timer instruction = none) ∧
    (∀ id timer, WaitsForward timer (Program.ofBuilder id (record calls {})).instructions) ∧
    (∀ timer value e, (record calls {}).waitUntil timer value = .error e ↔
      ¬WaitsForward timer ((record calls {}).instructions ++ [.wait timer value]) ∧
        ∃ previous, (record calls {}).watermarks.get timer = some previous ∧
          e = .nonMonotonicWait timer previous value) ∧
    ∀ others : List Call, (∀ call ∈ others, call.OnlyTimersWrite) →
      (∀ timer previous requested,
        (record calls {}).mergeBack (record others {}) =
            .error (.nonMonotonicWait timer previous requested) →
          ¬WaitsForward timer ((record calls {}).instructions ++ (record others {}).instructions)) ∧
      ((∀ timer previous requested,
        (record calls {}).mergeBack (record others {}) ≠
            .error (.nonMonotonicWait timer previous requested)) →
          ∀ timer, WaitsForward timer
            ((record calls {}).instructions ++ (record others {}).instructions)) := by
  have marked := marked_record calls only marked_empty
  refine ⟨marked.last, fun timer => ?_, fun id => marked.forward, fun timer value e => ?_,
    fun others also => ⟨fun timer previous requested failed => ?_, fun passed timer => ?_⟩⟩
  · rw [marked.last]
    simp [marks]
  · rw [waitUntil_eq_error_iff, show [Instruction.wait timer value] =
      (waiting timer value).instructions from rfl,
      marked.forward_append_iff (marked_waiting timer value)]
    cases (record calls {}).watermarks.get timer with
    | none => simp
    | some previous => simp [waiting, TimerTable.get_set, Forward, UInt32.not_le]
  · rw [marked.forward_append_iff (marked_record others also marked_empty)]
    exact mergeBack_nonMonotonic failed
  · rw [marked.forward_append_iff (marked_record others also marked_empty)]
    exact forward_of_mergeBack passed timer

def firstTimer : TimerOnChip :=
  .first Nat.zero_lt_two

def doubled : Leaf Unique PlainRegister :=
  { PlainRegister.leaf "Doubled" [0x0fff0070] with
    writeWords := 2
    encode := fun register backend => wordsOf backend [register.value.toNat, 0] }

def lopsided : Node Unique (PlainRegister × PlainRegister) :=
  .composite "Lopsided" default fun _ =>
    (PlainRegister.badCount.node default).visitsWithin ⟨⟩
        ⟨Prod.fst, fun first both => (first, both.2)⟩
      ++ (doubled.node default).visitsWithin ⟨⟩ ⟨Prod.snd, fun second both => (both.1, second)⟩

def restartedTwice : List Call :=
  [.write lopsided ⟨⟩ (⟨1⟩, ⟨2⟩) none, .write TimerTwice.node ⟨⟩ ⟨⟨7⟩, ⟨9⟩⟩ none,
    .wait firstTimer 9, .merge [.wait firstTimer 12]]

theorem lopsided_onlyTimersWrite (value : PlainRegister × PlainRegister) :
    (Call.write lopsided ⟨⟩ value none).OnlyTimersWrite := by
  have elsewhere : ∀ site ∈ lopsided.leaves ⟨⟩, ∀ backend, ∀ address ∈ site.writeAddresses backend,
      address.owner.1 ≠ .timer := by
    refine List.forall_mem_cons.2 ⟨?_, List.forall_mem_singleton.2 ?_⟩ <;>
      intro backend <;> cases backend <;> decide
  refine .write fun _ => Leaves.onlyTimersWrite_of_apart ?_ fun site member backend _ address => ?_
  · exact List.forall_mem_cons.2 ⟨fun _ => rfl, List.forall_mem_singleton.2 fun _ => rfl⟩
  · intro register timer also
    exact elsewhere site member backend address register
      (congrArg Prod.fst (owner_of_mem timer also))

theorem restartedTwice_only : ∀ call ∈ restartedTwice, call.OnlyTimersWrite := by
  have merged : ∀ call ∈ [Call.wait firstTimer 12], call.OnlyTimersWrite :=
    List.forall_mem_singleton.2 (.wait firstTimer 12)
  simp only [restartedTwice, List.forall_mem_cons]
  exact ⟨lopsided_onlyTimersWrite _, NodeKind.timerTwice.onlyTimersWrite ⟨⟩ _ _,
    .wait firstTimer 9, .merge merged, nofun⟩

theorem restartedTwice_waits :
    (record restartedTwice {}).instructions.length = 7 ∧
    (record restartedTwice {}).watermarks.get firstTimer = some 12 ∧
    (record restartedTwice {}).watermarks.get ⟨⟨1, Nat.one_lt_two⟩⟩ = none ∧
    ¬WaitsForward firstTimer
      ((record restartedTwice {}).instructions ++ [.wait firstTimer 11]) := by
  obtain ⟨last, absent, -, waits, -⟩ := waits_forward restartedTwice restartedTwice_only
  have mark : (record restartedTwice {}).watermarks.get firstTimer = some 12 := by
    rw [last]
    rfl
  have refused := waitUntil_eq_error_iff.2 ⟨12, mark, (by decide : (11 : TimerValue) < 12), rfl⟩
  exact ⟨rfl, mark, (absent _).2 (by decide), ((waits firstTimer 11 _).1 refused).1⟩

/-- A timer where `lopsided` is shifted. -/
def shifted : Node Unique (PlainRegister × Timer × PlainRegister) :=
  .composite "Shifted" default fun _ =>
    (PlainRegister.badCount.node default).visitsWithin ⟨⟩
        ⟨Prod.fst, fun first all => (first, all.2)⟩
      ++ Timer.node.visitsWithin firstTimer
        ⟨fun all => all.2.1, fun timer all => (all.1, timer, all.2.2)⟩
      ++ (doubled.node default).visitsWithin ⟨⟩
        ⟨fun all => all.2.2, fun second all => (all.1, all.2.1, second)⟩

-- Where another register's word does land in a timer's, the builder goes by the timer's own word,
-- and accepts a wait that goes backwards.
theorem shifted_waits_backward :
    marks firstTimer
        (record [.write shifted ⟨⟩ (⟨1⟩, ⟨7⟩, ⟨100⟩) none, .wait firstTimer 50] {}).instructions =
      [{ value := 100, waits := false }, { value := 50, waits := true }] := rfl

end Call

end Playback
