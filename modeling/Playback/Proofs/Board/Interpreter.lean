import Mathlib.Data.List.Basic
import Playback.Proofs.Board.Packs
import Playback.Proofs.Board.Playing
import Playback.Proofs.Wire.Responses

/-! The board as an interpreter of registers and clocks.

The interpreter answers every instruction at once: a read with a word, the last label of a pack with
its spikes, each with the time of the instruction. A board sends records instead, in which times
stand apart from what they belong to and only where they change. Taken apart, these records say the
same (`ofRecordsFrom_steps`).
-/

set_option autoImplicit false

namespace Playback

namespace Instruction

def withPast (instructions : List Instruction) : List (List Instruction × Instruction) :=
  instructions.inits.zip instructions

theorem withPast_cons (instruction : Instruction) (rest : List Instruction) :
    withPast (instruction :: rest) =
      ([], instruction) :: (withPast rest).map fun (earlier, next) =>
        (instruction :: earlier, next) := by
  simp only [withPast, List.inits, List.zip_cons_cons, List.zip_map_left]
  rfl

theorem map_snd_withPast (instructions : List Instruction) :
    (withPast instructions).map Prod.snd = instructions := by
  induction instructions with
  | nil => rfl
  | cons instruction rest ih =>
    rw [withPast_cons, List.map_cons, List.map_map]
    exact congrArg (instruction :: ·) ih

def written? (address : Address) : Instruction → Option Word
  | write access => if access.address = address then some access.word else none
  | _ => none

def latest? (address : Address) (instructions : List Instruction) : Option Word :=
  instructions.reverse.findSome? (written? address)

theorem latest?_cons (address : Address) (instruction : Instruction) (rest : List Instruction) :
    latest? address (instruction :: rest) =
      (latest? address rest).or (instruction.written? address) := by
  simp [latest?, List.findSome?_append]

end Instruction

namespace Board

open Instruction Response

/-! ### Registers, clocks and timers -/

namespace Machine

def obey (machine : Machine) : Instruction → Machine
  | .write access => (machine.tick.write access).restartTimer access
  | .read _ => machine.tick
  | .wait timer value => machine.tick.waitFor timer value
  | .barrier _ => machine.tick

def after (machine : Machine) (instructions : List Instruction) : Machine :=
  instructions.foldl obey machine

def timeAfter (machine : Machine) (earlier : List Instruction) : Nat :=
  (machine.after earlier).clock + 1

/-- What is in a register behind instructions: the latest word they write to it, else what is in
memory, else zero. -/
def contentAfter (machine : Machine) (earlier : List Instruction) (address : Address) : Word :=
  ((latest? address earlier).or (machine.registers.get? address)).getD (.ofNat address.backend 0)

theorem registers_restartTimer (machine : Machine) (access : WriteAccess) :
    (machine.restartTimer access).registers = machine.registers := by
  unfold restartTimer
  split <;> rfl

theorem get?_obey (machine : Machine) (instruction : Instruction) (address : Address) :
    (machine.obey instruction).registers.get? address =
      (instruction.written? address).or (machine.registers.get? address) := by
  cases instruction with
  | write access =>
    have same : (machine.obey (.write access)).registers =
        machine.registers.insert access.address access.word := registers_restartTimer _ access
    rw [same, Table.get?_insert, written?]
    by_cases here : access.address = address
    · simp [here]
    · simp [here, Ne.symm here]
  | read other => rfl
  | wait timer value => rfl
  | barrier kind => rfl

theorem read_after (machine : Machine) (earlier : List Instruction) (address : Address) :
    (machine.after earlier).read address = machine.contentAfter earlier address := by
  suffices found : (machine.after earlier).registers.get? address =
      (latest? address earlier).or (machine.registers.get? address) by
    rw [read, found, contentAfter]
  induction earlier generalizing machine with
  | nil => rfl
  | cons instruction rest ih =>
    rw [latest?_cons, Option.or_assoc, ← get?_obey]
    exact ih (machine.obey instruction)

theorem clock_obey (machine : Machine) (instruction : Instruction) :
    machine.clock + 1 ≤ (machine.obey instruction).clock := by
  cases instruction with
  | write access =>
    change _ ≤ ((machine.tick.write access).restartTimer access).clock
    unfold restartTimer
    split
    · exact Nat.le_max_left _ _
    · exact Nat.le_refl _
  | read address => exact Nat.le_refl _
  | wait timer value => exact Nat.le_max_left _ _
  | barrier kind => exact Nat.le_refl _

theorem clock_after (machine : Machine) (instructions : List Instruction) :
    machine.clock + instructions.length ≤ (machine.after instructions).clock := by
  induction instructions generalizing machine with
  | nil => exact Nat.le_refl _
  | cons instruction rest ih =>
    have first := machine.clock_obey instruction
    have others : _ ≤ (machine.after (instruction :: rest)).clock := ih (machine.obey instruction)
    rw [List.length_cons]
    omega

end Machine

namespace Labels

def obey (labels : Labels) (instruction : Instruction) : Option (List SpikeLabel) × Labels :=
  match instruction.use? with
  | some use => labels.use use
  | none => (none, labels)

def after (labels : Labels) (instructions : List Instruction) : Labels :=
  instructions.foldl (fun labels instruction => (labels.obey instruction).2) labels

/-- The labels of the pack that an instruction behind others completes. -/
def packAfter (earlier : List Instruction) (instruction : Instruction) : List SpikeLabel :=
  ((empty.after earlier).obey instruction).1.getD []

end Labels

/-! ### Answers -/

def shown (annotate : Bool) (time : Nat) : Option FpgaTime :=
  if annotate then some (UInt64.ofNat time) else none

def spikeAt (annotate : Bool) (time : Nat) (label : SpikeLabel) : Spike where
  label := label
  fpgaTime := (shown annotate time).getD 0
  chipTime := UInt64.ofNat time % 0x10000

def arrival (annotate : Bool) (time : Nat) : Option (List SpikeLabel) → Response
  | some pack =>
    { events :=
        { spikes := pack.map (spikeAt annotate time)
          spikePacks := oneMore pack.length (.replicate 3 0) } }
  | none => {}

def reply (annotate : Bool) (machine : Machine) (labels : Labels) : Instruction → Response
  | .read address =>
    { words := [{ word := machine.read address, fpgaTime := shown annotate (machine.clock + 1) }] }
  | instruction => arrival annotate (machine.clock + 1) (labels.obey instruction).1

def replies (annotate : Bool) : Machine → Labels → List Instruction → Response
  | _, _, [] => {}
  | machine, labels, instruction :: rest =>
    (reply annotate machine labels instruction).followedBy
      (replies annotate (machine.obey instruction) (labels.obey instruction).2 rest)

theorem zipWith_zeros {n : Nat} (counts : Vector Nat n) :
    Vector.zipWith (· + ·) (.replicate n 0) counts = counts := by
  ext i small
  simp

theorem get_zipWith {n : Nat} (first second : Vector Nat n) (i : Fin n) :
    (Vector.zipWith (· + ·) first second).get i = first.get i + second.get i :=
  Vector.getElem_zipWith i.isLt

theorem get_oneMore {n : Nat} (size : Nat) (counts : Vector Nat n) (i : Fin n) :
    (oneMore size counts).get i = counts.get i + if size = i + 1 then 1 else 0 :=
  Vector.getElem_ofFn i.isLt

theorem get_zeros {n : Nat} (i : Fin n) : (Vector.replicate n 0).get i = 0 :=
  Vector.getElem_replicate i.isLt

theorem ofRecordsFrom_word (now : Option FpgaTime) (word : Word) (later : List Record) :
    ofRecordsFrom now (.word word :: later) =
      followedBy { words := [{ word, fpgaTime := now }] } (ofRecordsFrom now later) := by
  simp [ofRecordsFrom, followedBy, zipWith_zeros]

theorem ofRecordsFrom_spikes {annotate : Bool} {time : Nat} {pack : Pack SpikeEntry 3}
    {labels : List SpikeLabel}
    (entries : pack.entries = labels.map fun label => .ofSpike label (UInt64.ofNat time))
    (later : List Record) :
    ofRecordsFrom (shown annotate time) (.spikes pack :: later) =
      (arrival annotate time (some labels)).followedBy
        (ofRecordsFrom (shown annotate time) later) := by
  have size : pack.entries.length = labels.length := by rw [entries, List.length_map]
  have counts := zipWith_oneMore pack (.replicate 3 0)
  rw [size] at counts
  have chip : (UInt16.ofNat time).toUInt64 = UInt64.ofNat time % 0x10000 := by
    simpa using (UInt64.ofNat time).toUInt64_toUInt16
  simp [ofRecordsFrom, Events.consSpikes, arrival, followedBy, counts, zipWith_zeros, entries,
    SpikeEntry.ofSpike, spikeAt, chip]

namespace Play

def now (play : Play) : Option FpgaTime :=
  play.stamped.map UInt64.ofNat

def Silent (annotate : Bool) (play : Play) : Prop :=
  annotate = false → play.stamped = none

section Send

variable {annotate : Bool} (play : Play) (silent : play.Silent annotate) (record : Record)

include silent

theorem silent_send : (play.send annotate record).2.Silent annotate := by
  intro off
  unfold send stamp
  simp [off, silent off]

theorem now_send : (play.send annotate record).2.now = shown annotate play.machine.clock := by
  unfold send stamp
  cases annotate with
  | false => simp [now, shown, silent rfl]
  | true =>
    by_cases same : play.stamped = some play.machine.clock
    · simp [same, now, shown]
    · simp [same, now, shown]

theorem ofRecordsFrom_send (later : List Record) :
    ofRecordsFrom play.now ((play.send annotate record).1 ++ later) =
      ofRecordsFrom (shown annotate play.machine.clock) (record :: later) := by
  unfold send stamp
  cases annotate with
  | false => simp [now, shown, silent rfl]
  | true =>
    by_cases same : play.stamped = some play.machine.clock
    · simp [same, now, shown]
    · simp only [same, ne_eq, not_false_eq_true, and_self, if_true]
      rfl

end Send

theorem pending_send (annotate : Bool) (record : Record) (play : Play) :
    (play.send annotate record).2.pending = play.pending := by
  unfold send stamp
  dsimp only
  split <;> rfl

theorem offer_puts (annotate : Bool) (place : PackPlace) (label : SpikeLabel) (play : Play) :
    (play.offer annotate place label).2.pending = (Labels.put play.pending place label).2 := by
  unfold offer Labels.put
  dsimp only
  by_cases complete : (play.offered place label).length = place.size + 1
  · rw [dif_pos complete, if_pos (by exact complete)]
    exact pending_send _ _ _
  · rw [dif_neg complete, if_neg (by exact complete)]
    rfl

theorem step_obeys (annotate : Bool) (instruction : Instruction) (play : Play) :
    (play.step annotate instruction).2.machine = play.machine.obey instruction ∧
      (play.step annotate instruction).2.pending = (Labels.obey play.pending instruction).2 := by
  cases instruction with
  | write access =>
    unfold step Labels.obey Labels.use
    dsimp only [use?]
    cases packPlace? access.address with
    | none => exact ⟨rfl, rfl⟩
    | some place =>
      exact ⟨congrArg (Machine.restartTimer · access) (machine_offer _ _ _ _),
        offer_puts _ _ _ _⟩
  | read address => exact ⟨machine_send _ _ _, pending_send _ _ _⟩
  | wait timer value => exact ⟨rfl, rfl⟩
  | barrier kind => exact ⟨rfl, rfl⟩

section Replies

variable {annotate : Bool} (play : Play) (silent : play.Silent annotate)

include silent

theorem silent_offer (place : PackPlace) (label : SpikeLabel) :
    (play.offer annotate place label).2.Silent annotate := by
  unfold offer
  dsimp only
  split
  · exact silent_send { play with pending := play.pending.set place.size [] } silent _
  · exact silent

theorem silent_step (instruction : Instruction) :
    (play.step annotate instruction).2.Silent annotate := by
  cases instruction with
  | write access =>
    unfold step
    dsimp only
    cases packPlace? access.address with
    | none => exact silent
    | some place =>
      exact silent_offer { play with machine := play.machine.tick.write access }
        silent _ _
  | read address => exact silent_send { play with machine := play.machine.tick } silent _
  | wait timer value => exact silent
  | barrier kind => exact silent

theorem ofRecordsFrom_offer (place : PackPlace) (label : SpikeLabel) (later : List Record) :
    ofRecordsFrom play.now ((play.offer annotate place label).1 ++ later) =
      (arrival annotate play.machine.clock (Labels.put play.pending place label).1).followedBy
        (ofRecordsFrom (play.offer annotate place label).2.now later) := by
  unfold offer Labels.put
  dsimp only
  by_cases complete : (play.offered place label).length = place.size + 1
  · rw [dif_pos complete, if_pos (by exact complete)]
    dsimp only
    let cleared : Play := { play with pending := play.pending.set place.size [] }
    have sent := ofRecordsFrom_send cleared silent
    have heard := now_send cleared silent
    rw [heard]
    refine (sent _ later).trans ?_
    exact ofRecordsFrom_spikes rfl later
  · rw [dif_neg complete, if_neg (by exact complete)]
    exact (nothing_followedBy _).symm

theorem ofRecordsFrom_step (instruction : Instruction) (later : List Record) :
    ofRecordsFrom play.now ((play.step annotate instruction).1 ++ later) =
      (reply annotate play.machine play.pending instruction).followedBy
        (ofRecordsFrom (play.step annotate instruction).2.now later) := by
  cases instruction with
  | write access =>
    unfold step reply Labels.obey Labels.use
    dsimp only [use?]
    cases packPlace? access.address with
    | none => exact (nothing_followedBy _).symm
    | some place =>
      exact ofRecordsFrom_offer { play with machine := play.machine.tick.write access }
        silent place _ later
  | read address =>
    have sent := ofRecordsFrom_send { play with machine := play.machine.tick } silent
      (.word (play.machine.tick.read address)) later
    have heard := now_send { play with machine := play.machine.tick } silent
      (.word (play.machine.tick.read address))
    refine sent.trans ?_
    change _ = followedBy _ (ofRecordsFrom (Play.now (Play.send annotate _ _).2) later)
    rw [heard]
    exact ofRecordsFrom_word _ _ later
  | wait timer value => exact (nothing_followedBy _).symm
  | barrier kind => exact (nothing_followedBy _).symm

end Replies

theorem steps_cons (annotate : Bool) (instruction : Instruction) (rest : List Instruction)
    (play : Play) :
    steps annotate (instruction :: rest) play =
      let (records, next) := play.step annotate instruction
      (records ++ (steps annotate rest next).1, (steps annotate rest next).2) :=
  rfl

-- The state between records is the same for the board and for the interpreter, and the time that
-- holds is the one that was sent last.
theorem ofRecordsFrom_steps {annotate : Bool} (instructions : List Instruction) (play : Play)
    (silent : play.Silent annotate) :
    ofRecordsFrom play.now ((steps annotate instructions play).1 ++ [.halt]) =
      replies annotate play.machine play.pending instructions := by
  induction instructions generalizing play with
  | nil => rfl
  | cons instruction rest ih =>
    obtain ⟨machine, labels⟩ := play.step_obeys annotate instruction
    rw [replies, ← machine, ← labels, ← ih _ (silent_step play silent instruction),
      steps_cons, List.append_assoc, ofRecordsFrom_step play silent]

theorem machine_steps (annotate : Bool) (instructions : List Instruction) (play : Play) :
    (steps annotate instructions play).2.machine = play.machine.after instructions := by
  induction instructions generalizing play with
  | nil => rfl
  | cons instruction rest ih =>
    rw [steps_cons, ih, (play.step_obeys annotate instruction).1]
    rfl

end Play

theorem ofRecords_play (annotate : Bool) (instructions : List Instruction) (machine : Machine) :
    ofRecords (machine.play annotate instructions).1 =
      replies annotate machine .empty instructions :=
  Play.ofRecordsFrom_steps instructions { machine } fun _ => rfl

section Places

variable (annotate : Bool) (machine : Machine)

/-- The word that an instruction behind others is answered, if it is a read. -/
def Machine.answer? (earlier : List Instruction) : Instruction → Option ResponseWord
  | .read address =>
    some
      { word := machine.contentAfter earlier address
        fpgaTime := shown annotate (machine.timeAfter earlier) }
  | _ => none

def Machine.spikesAfter (earlier : List Instruction) (instruction : Instruction) : List Spike :=
  (Labels.packAfter earlier instruction).map (spikeAt annotate (machine.timeAfter earlier))

theorem Machine.answer?_cons (first : Instruction) (earlier : List Instruction)
    (instruction : Instruction) :
    machine.answer? annotate (first :: earlier) instruction =
      (machine.obey first).answer? annotate earlier instruction := by
  cases instruction with
  | read address =>
    dsimp only [answer?]
    rw [← machine.read_after, ← (machine.obey first).read_after]
    rfl
  | _ => rfl

theorem words_reply (labels : Labels) (instruction : Instruction) :
    (reply annotate machine labels instruction).words =
      (machine.answer? annotate [] instruction).toList := by
  cases instruction with
  | read address => rfl
  | write access =>
    unfold reply
    dsimp only
    cases (labels.obey (.write access)).1 <;> rfl
  | wait timer value => rfl
  | barrier kind => rfl

theorem words_replies (labels : Labels) (instructions : List Instruction) :
    (replies annotate machine labels instructions).words =
      (withPast instructions).filterMap fun (earlier, instruction) =>
        machine.answer? annotate earlier instruction := by
  induction instructions generalizing machine labels with
  | nil => rfl
  | cons instruction rest ih =>
    rw [replies, withPast_cons, List.filterMap_cons, List.filterMap_map]
    change (reply annotate machine labels instruction).words ++ _ = _
    rw [ih, words_reply]
    cases found : machine.answer? annotate [] instruction <;>
      simp [found, Machine.answer?_cons]

theorem events_reply (labels : Labels) (instruction : Instruction) :
    (reply annotate machine labels instruction).events =
      (arrival annotate (machine.clock + 1) (labels.obey instruction).1).events := by
  cases instruction <;> rfl

theorem spikes_arrival (time : Nat) (pack : Option (List SpikeLabel)) :
    (arrival annotate time pack).events.spikes = (pack.getD []).map (spikeAt annotate time) := by
  cases pack <;> rfl

theorem spikes_replies (labels : Labels) (instructions : List Instruction) :
    (replies annotate machine labels instructions).events.spikes =
      (withPast instructions).flatMap fun (earlier, instruction) =>
        (((labels.after earlier).obey instruction).1.getD []).map
          (spikeAt annotate (machine.timeAfter earlier)) := by
  induction instructions generalizing machine labels with
  | nil => rfl
  | cons instruction rest ih =>
    rw [replies, withPast_cons, List.flatMap_cons, List.flatMap_map]
    change (reply annotate machine labels instruction).events.spikes ++ _ = _
    rw [ih, events_reply, spikes_arrival]
    rfl

theorem samples_replies (labels : Labels) (instructions : List Instruction) :
    (replies annotate machine labels instructions).events.samples = [] := by
  induction instructions generalizing machine labels with
  | nil => rfl
  | cons instruction rest ih =>
    change (reply annotate machine labels instruction).events.samples ++ _ = _
    rw [ih, events_reply]
    cases (labels.obey instruction).1 <;> rfl

theorem count_arrival (time : Nat) (pack : Option (List SpikeLabel)) (size : Fin 3) :
    (arrival annotate time pack).events.spikePacks.get size =
      pack.toList.countP fun pack => pack.length = size.val + 1 := by
  cases pack with
  | none => exact get_zeros size
  | some pack =>
    change (oneMore pack.length (.replicate 3 0)).get size = _
    rw [get_oneMore, get_zeros]
    by_cases same : pack.length = size.val + 1 <;> simp [same]

-- Packs arrive as they are completed, each of them once.
theorem packs_replies (labels : Labels) (instructions : List Instruction) :
    let packs := labels.packs (uses instructions)
    let events := (replies annotate machine labels instructions).events
    events.spikes.map Spike.label = packs.flatten ∧
      ∀ size, events.spikePacks.get size = packs.countP fun pack => pack.length = size.val + 1 := by
  induction instructions generalizing machine labels with
  | nil => exact ⟨rfl, fun size => get_zeros size⟩
  | cons instruction rest ih =>
    obtain ⟨spikes, counts⟩ := ih (machine.obey instruction) (labels.obey instruction).2
    have split : labels.packs (uses (instruction :: rest)) =
        (labels.obey instruction).1.toList ++ (labels.obey instruction).2.packs (uses rest) := by
      cases instruction <;> rfl
    dsimp only at spikes counts ⊢
    rw [split]
    constructor
    · change List.map _ ((reply annotate machine labels instruction).events.spikes ++ _) = _
      rw [List.map_append, spikes, events_reply, spikes_arrival, List.flatten_append]
      congr 1
      cases (labels.obey instruction).1 with
      | none => rfl
      | some pack => simp [spikeAt, Function.comp_def]
    · intro size
      change (Vector.zipWith _ (reply annotate machine labels instruction).events.spikePacks
        _).get size = _
      rw [get_zipWith, counts, events_reply, count_arrival, List.countP_append]

end Places

/-! ### Times -/

theorem Machine.timeAfter_lt (machine : Machine) (instruction : Instruction)
    (earlier : List Instruction) :
    machine.timeAfter [] < machine.timeAfter (instruction :: earlier) := by
  have first := machine.clock_obey instruction
  have others := (machine.obey instruction).clock_after earlier
  change machine.clock + 1 < ((machine.obey instruction).after earlier).clock + 1
  omega

theorem Machine.pairwise_timeAfter (machine : Machine) (instructions : List Instruction) :
    (withPast instructions).Pairwise fun first second =>
      machine.timeAfter first.1 < machine.timeAfter second.1 := by
  induction instructions generalizing machine with
  | nil => exact .nil
  | cons instruction rest ih =>
    rw [withPast_cons, List.pairwise_cons, List.pairwise_map]
    refine ⟨fun later member => ?_, ih (machine.obey instruction)⟩
    obtain ⟨⟨earlier, next⟩, -, rfl⟩ := List.mem_map.1 member
    exact machine.timeAfter_lt instruction earlier

theorem Machine.timeAfter_le (machine : Machine) {instructions : List Instruction}
    {past : List Instruction × Instruction} (member : past ∈ withPast instructions) :
    machine.timeAfter past.1 ≤ (machine.after instructions).clock := by
  induction instructions generalizing machine past with
  | nil => cases member
  | cons instruction rest ih =>
    rw [withPast_cons] at member
    rcases List.mem_cons.1 member with rfl | later
    · have first := machine.clock_obey instruction
      have others := (machine.obey instruction).clock_after rest
      change machine.clock + 1 ≤ ((machine.obey instruction).after rest).clock
      omega
    · obtain ⟨⟨earlier, next⟩, inside, rfl⟩ := List.mem_map.1 later
      exact ih (machine.obey instruction) inside

theorem Machine.clock_lt_timeAfter (machine : Machine) (earlier : List Instruction) :
    machine.clock < machine.timeAfter earlier := by
  have passed := machine.clock_after earlier
  unfold timeAfter
  omega

theorem ofNat_lt {early late : Nat} (earlier : early < late) (small : late < 0x10000000000000000) :
    UInt64.ofNat early < UInt64.ofNat late := by
  rw [UInt64.lt_iff_toNat_lt, UInt64.toNat_ofNat_of_lt' (earlier.trans small),
    UInt64.toNat_ofNat_of_lt' small]
  exact earlier

section Answers

variable {annotate : Bool} {machine : Machine}

theorem fpgaTime_of_answer? {earlier : List Instruction} {instruction : Instruction}
    {word : ResponseWord} (answers : machine.answer? annotate earlier instruction = some word) :
    word.fpgaTime = shown annotate (machine.timeAfter earlier) := by
  cases instruction <;> cases answers
  rfl

theorem fpgaTime_of_mem_spikesAfter {earlier : List Instruction} {instruction : Instruction}
    {spike : Spike} (member : spike ∈ machine.spikesAfter annotate earlier instruction) :
    spike.fpgaTime = (shown annotate (machine.timeAfter earlier)).getD 0 := by
  obtain ⟨label, -, rfl⟩ := List.mem_map.1 member
  rfl

theorem length_answers (instructions : List Instruction) :
    ((withPast instructions).filterMap fun (earlier, instruction) =>
      machine.answer? annotate earlier instruction).length = instructions.countP isRead := by
  have reads (past : List Instruction × Instruction) :
      (machine.answer? annotate past.1 past.2).isSome = past.2.isRead := by
    obtain ⟨earlier, instruction⟩ := past
    cases instruction <;> rfl
  rw [List.length_filterMap_eq_countP]
  conv_rhs => rw [← map_snd_withPast instructions, List.countP_map]
  exact List.countP_congr fun past _ => by rw [reads]; rfl

variable {instructions : List Instruction}

theorem pairwise_answers (small : (machine.after instructions).clock < 0x10000000000000000) :
    ((withPast instructions).filterMap fun (earlier, instruction) =>
      machine.answer? true earlier instruction).Pairwise fun first second =>
        ∃ early late, first.fpgaTime = some early ∧ second.fpgaTime = some late ∧ early < late := by
  rw [List.pairwise_filterMap]
  refine (machine.pairwise_timeAfter instructions).imp_of_mem fun _ inside before => ?_
  intro first answers second answersLater
  have later := machine.timeAfter_le inside
  exact ⟨_, _, fpgaTime_of_answer? answers, fpgaTime_of_answer? answersLater,
    ofNat_lt before (by omega)⟩

theorem pairwise_spikesAfter (small : (machine.after instructions).clock < 0x10000000000000000) :
    ((withPast instructions).flatMap fun (earlier, instruction) =>
      machine.spikesAfter true earlier instruction).Pairwise fun first second =>
        first.fpgaTime ≤ second.fpgaTime := by
  rw [List.pairwise_flatMap]
  constructor
  · intro past _
    -- The spikes of one pack arrive together.
    refine List.pairwise_of_forall_mem_list fun first here second there => ?_
    rw [fpgaTime_of_mem_spikesAfter here, fpgaTime_of_mem_spikesAfter there]
    exact UInt64.le_refl _
  · refine (machine.pairwise_timeAfter instructions).imp_of_mem fun _ inside before => ?_
    intro first here second there
    have later := machine.timeAfter_le inside
    rw [fpgaTime_of_mem_spikesAfter here, fpgaTime_of_mem_spikesAfter there]
    exact UInt64.le_of_lt (ofNat_lt before (by omega))

end Answers

end Board

open Board Instruction

theorem words_prefix_of_demultiplex {annotate : Bool} {instructions : List Instruction}
    {machine : Board.Machine} {size : Nat} {response : Response}
    (reads : Response.demultiplex
      ((Response.encode (machine.play annotate instructions).1).take size) = .ok response) :
    response.words <+: (withPast instructions).filterMap fun (earlier, instruction) =>
      machine.answer? annotate earlier instruction := by
  obtain ⟨read, cut, rfl⟩ := records_of_demultiplex reads
  have words := Response.words_of_prefix cut none
  change (Response.ofRecords read).words <+:
    (Response.ofRecords (machine.play annotate instructions).1).words at words
  rwa [ofRecords_play, words_replies] at words

-- If a response has a word for every read, it has all answers, however much of it was reported.
theorem answers_of_demultiplex {annotate : Bool} {instructions : List Instruction}
    {machine : Board.Machine} {size : Nat} {response : Response}
    (reads : Response.demultiplex
      ((Response.encode (machine.play annotate instructions).1).take size) = .ok response)
    (enough : response.words.length = instructions.countP isRead) :
    response.words = (withPast instructions).filterMap fun (earlier, instruction) =>
      machine.answer? annotate earlier instruction := by
  apply (words_prefix_of_demultiplex reads).eq_of_length
  rw [length_answers, enough]

-- What a board sends, taken apart, is what the interpreter answers: a word for every read, the
-- latest that was written to its address before or else what was in memory, and the spikes of every
-- pack at its last label. With annotation their times are those of the clock, so the times of words
-- rise and those of events never fall, as long as the clock fits its 64 bits.
theorem Board.play_refines (annotate : Bool) (instructions : List Instruction)
    (machine : Machine) :
    ∃ response : Response,
      Response.demultiplex (Response.encode (machine.play annotate instructions).1) =
        .ok response ∧
      (machine.play annotate instructions).2 = machine.after instructions ∧
      response.words = ((withPast instructions).filterMap fun (earlier, instruction) =>
        machine.answer? annotate earlier instruction) ∧
      response.words.length = instructions.countP isRead ∧
      response.events.spikes = ((withPast instructions).flatMap fun (earlier, instruction) =>
        machine.spikesAfter annotate earlier instruction) ∧
      response.events.samples = [] ∧
      (annotate = false →
        (∀ word ∈ response.words, word.fpgaTime = none) ∧
        ∀ spike ∈ response.events.spikes, spike.fpgaTime = 0) ∧
      (annotate = true → (machine.after instructions).clock < 0x10000000000000000 →
        (∀ past ∈ withPast instructions,
          (UInt64.ofNat (machine.timeAfter past.1)).toNat = machine.timeAfter past.1) ∧
        (response.words.Pairwise fun first second => ∃ early late,
          first.fpgaTime = some early ∧ second.fpgaTime = some late ∧ early < late) ∧
        response.events.spikes.Pairwise fun first second =>
          first.fpgaTime ≤ second.fpgaTime) := by
  have words := words_replies annotate machine .empty instructions
  have spikes := spikes_replies annotate machine .empty instructions
  refine ⟨_, ?_, Play.machine_steps _ _ _, words, ?_, spikes, samples_replies _ _ _ _, ?_, ?_⟩
  · rw [demultiplex_play, ofRecords_play]
  · rw [words, length_answers]
  · rintro rfl
    constructor
    · intro word member
      rw [words] at member
      obtain ⟨past, -, answered⟩ := List.mem_filterMap.1 member
      exact fpgaTime_of_answer? answered
    · intro spike member
      rw [spikes] at member
      obtain ⟨past, -, inside⟩ := List.mem_flatMap.1 member
      exact fpgaTime_of_mem_spikesAfter inside
  · rintro rfl small
    refine ⟨fun past member => ?_, ?_, ?_⟩
    · have early := machine.timeAfter_le member
      exact UInt64.toNat_ofNat_of_lt' (Nat.lt_of_le_of_lt early small)
    · rw [words]
      exact pairwise_answers small
    · rw [spikes]
      exact pairwise_spikesAfter small

end Playback
