import Playback.Program.BringUp
import Playback.Proofs.Board.Timers
import Playback.Proofs.Recording.Supported

/-! Bring-up behind any recording.

The sequence is made for every choice of its parameters, and its stream can be written down. It
restarts the timer of its waits before each of them, so it asks nothing of the watermarks of a
recording that it is merged behind, and on a board each wait lasts as many ticks as it says,
whatever the timers read before.
-/

set_option autoImplicit false

namespace Playback

namespace BringUp

open Builder

/-! ### The stream -/

def resetting (reset : Bool) : Instruction :=
  .write (.omnibus 0x00020200 (UInt32.ofNat reset.toNat))

def pausing (timer : TimerOnChip) (ticks : TimerValue) : List Instruction :=
  [.write (.omnibus (UInt32.ofNat (0x00020000 + timer.index)) 0), .wait timer ticks]

def clocking : Option PllClockOutput → List Instruction
  | none => []
  | some output =>
    (Site.all.map fun adpll : AdpllOnChip =>
      .write (.jtag (UInt16.ofNat (0x20 + adpll.index)) (UInt64.ofNat output.pack)))
      ++ [.barrier .jtag]

def basing (base : SystimeSyncBase) : List Instruction :=
  [.write (.omnibus 0x00020110 (UInt32.ofNat (bits base.value.value 0 32))),
    .write (.omnibus 0x00020111 (UInt32.ofNat (bits base.value.value 32 11)))]

def synchronising : Instruction :=
  .write (.omnibus 0x00020100 1)

def tuning (config : CommonSynramConfig) (backend : Backend) : List Instruction :=
  Site.all.flatMap fun synram =>
    (Call.write CommonSynramConfig.node synram config (some backend)).lowered

def filling : Option Chip → List Instruction
  | none => []
  | some chip => (Call.write Chip.node ⟨⟩ chip none).lowered

section Stream

variable (bringUp : BringUp)

def untilRelease : List Instruction :=
  resetting true :: pausing bringUp.timer bringUp.resetHold

def untilClocks : List Instruction :=
  bringUp.untilRelease ++ resetting false :: pausing bringUp.timer bringUp.resetSettle

def untilSync : List Instruction :=
  bringUp.untilClocks ++ clocking bringUp.pll ++ basing bringUp.systimeBase

def untilTuning : List Instruction :=
  bringUp.untilSync ++
    synchronising :: .barrier .systime :: pausing bringUp.timer bringUp.systimeSettle

def stream : List Instruction :=
  bringUp.untilTuning ++ tuning bringUp.synram bringUp.synramBackend ++ filling bringUp.chip ++
    [.barrier .all]

end Stream

theorem exists_clocking (pll : Option PllClockOutput) (base : SystimeSyncBase) :
    ∃ (access : WriteAccess) (rest : List Instruction),
      clocking pll ++ basing base = .write access :: rest ∧
      ((∃ adpll, access.address ∈ PllClockOutput.addresses adpll) ∨
        access.address ∈ SystimeSyncBase.addresses .omnibus) := by
  cases pll with
  | none => exact ⟨_, _, rfl, .inr (List.mem_cons.2 (.inl rfl))⟩
  | some output =>
    exact ⟨_, _, rfl, .inl ⟨.first Nat.zero_lt_two, List.mem_singleton.2 rfl⟩⟩

theorem exists_tuning (config : CommonSynramConfig) (backend : Backend) :
    ∃ (access : WriteAccess) (rest : List Instruction),
      tuning config backend = .write access :: rest ∧
      ∃ synram, access.address ∈ CommonSynramConfig.addresses synram backend := by
  cases backend with
  | omnibus => exact ⟨_, _, rfl, .first Nat.zero_lt_two, List.mem_cons.2 (.inl rfl)⟩
  | jtag => exact ⟨_, _, rfl, .first Nat.zero_lt_two, List.mem_cons.2 (.inl rfl)⟩

/-! ### The recording -/

/-- A recording that waits for no timer which it has not restarted. -/
structure Made (b : Builder) (stream : List Instruction) (restriction : Option ExecutorKind) :
    Prop where
  instructions : b.instructions = stream
  restriction : b.restriction = restriction
  unled : b.leadingWaits = .replicate 2 none

section Made

variable {b : Builder} {stream : List Instruction} {restriction next : Option ExecutorKind}
  (made : Made b stream restriction)

include made

theorem Made.write (kind : NodeKind) (regular : kind.isRegular = true) (coord : kind.Coord)
    (value : kind.Value) (explicit : Option Backend)
    (supported : Leaves.unsupported? explicit (kind.node.leaves coord) = none)
    (agrees : restrict kind.node.name restriction (Leaves.required (kind.node.leaves coord)) =
      .ok next) :
    ∃ written, b.write kind.node coord value explicit = .ok written ∧
      Made written (stream ++ (Call.write kind.node coord value explicit).lowered) next := by
  rw [← made.restriction] at agrees
  obtain ⟨written, accepted, instructions, restricted, leading⟩ :=
    write_of_supported regular coord value supported agrees
  refine ⟨written, accepted, ?_, restricted, leading.trans made.unled⟩
  rw [instructions, made.instructions]

theorem Made.barrier (kind : Barrier) :
    Made (b.barrier kind) (stream ++ [.barrier kind]) restriction where
  instructions := congrArg (· ++ _) made.instructions
  restriction := made.restriction
  unled := made.unled

theorem Made.settle (timer : TimerOnChip) (ticks : TimerValue) :
    ∃ settled, BringUp.settle timer ticks b = .ok settled ∧
      Made settled (stream ++ pausing timer ticks) restriction := by
  let restarted : Builder :=
    { b with
      instructions := b.instructions ++
        [.write (.omnibus (UInt32.ofNat (0x00020000 + timer.index)) 0)]
      watermarks := b.watermarks.set timer 0 }
  have restarts : b.write Timer.node timer default none = .ok restarted := rfl
  have mark : restarted.watermarks.get timer = some 0 := by
    rw [TimerTable.get_set, if_pos rfl]
  have waits : restarted.waitUntil timer ticks =
      .ok { restarted with
        instructions := restarted.instructions ++ [.wait timer ticks]
        watermarks := restarted.watermarks.set timer ticks } := by
    unfold waitUntil
    rw [mark]
    exact if_neg (UInt32.not_lt.2 (UInt32.zero_le))
  refine ⟨_, bind_eq_ok_iff.2 ⟨restarted, restarts, waits⟩, ?_, made.restriction, made.unled⟩
  simp [restarted, made.instructions, pausing]

theorem Made.writes (kind : NodeKind) (regular : kind.isRegular = true) (sites : List kind.Coord)
    (value : kind.Value) (explicit : Option Backend)
    (supported : ∀ site, Leaves.unsupported? explicit (kind.node.leaves site) = none)
    (agrees : ∀ site, restrict kind.node.name restriction
      (Leaves.required (kind.node.leaves site)) = .ok restriction) :
    ∃ written,
      sites.foldlM (fun b site => b.write kind.node site value explicit) b = .ok written ∧
      Made written (stream ++ sites.flatMap fun site =>
        (Call.write kind.node site value explicit).lowered) restriction := by
  induction sites generalizing b stream with
  | nil => exact ⟨b, rfl, by simpa using made⟩
  | cons site rest ih =>
    obtain ⟨first, accepted, made⟩ := made.write kind regular site value explicit
      (supported site) (agrees site)
    obtain ⟨written, others, made⟩ := ih made
    refine ⟨written, ?_, by simpa using made⟩
    rw [List.foldlM_cons]
    exact bind_eq_ok_iff.2 ⟨first, accepted, others⟩

end Made

theorem made_empty : Made {} [] none where
  instructions := rfl
  restriction := rfl
  unled := rfl

def kind? (bringUp : BringUp) : Option ExecutorKind :=
  if bringUp.pll.isSome then some .hardware else none

theorem Made.clocks {b : Builder} {stream : List Instruction} (made : Made b stream none)
    (bringUp : BringUp) :
    ∃ clocked, configureClocks bringUp.pll b = .ok clocked ∧
      Made clocked (stream ++ clocking bringUp.pll) bringUp.kind? := by
  unfold kind?
  cases bringUp.pll with
  | none => exact ⟨b, rfl, by simpa [clocking] using made⟩
  | some output =>
    -- The first write restricts the recording, the others agree.
    obtain ⟨first, rest, sites⟩ := List.exists_cons_of_ne_nil
      (show (Site.all : List AdpllOnChip) ≠ [] by decide)
    obtain ⟨started, accepted, made⟩ :=
      made.write (.leaf .pllClockOutput) rfl first output none rfl rfl
    obtain ⟨written, others, made⟩ :=
      made.writes (.leaf .pllClockOutput) rfl rest output none (fun _ => rfl) fun _ => rfl
    have all : (Site.all : List AdpllOnChip).foldlM
        (fun b adpll => b.write PllClockOutput.node adpll output none) b = .ok written := by
      rw [sites, List.foldlM_cons]
      exact bind_eq_ok_iff.2 ⟨started, accepted, others⟩
    refine ⟨_, bind_eq_ok_iff.2 ⟨written, all, rfl⟩, ?_⟩
    have lowered : clocking (some output) = (first :: rest).flatMap (fun adpll =>
        (Call.write PllClockOutput.node adpll output none).lowered) ++ [.barrier .jtag] := by
      rw [← sites, clocking, List.map_eq_flatMap]
      rfl
    have made := made.barrier .jtag
    rw [lowered, List.flatMap_cons, ← List.append_assoc, ← List.append_assoc]
    exact made

theorem Made.chip {b : Builder} {stream : List Instruction} {restriction : Option ExecutorKind}
    (made : Made b stream restriction) (chip : Option Chip) :
    ∃ filled, writeChip chip b = .ok filled ∧ Made filled (stream ++ filling chip) restriction := by
  cases chip with
  | none => exact ⟨b, rfl, by simpa [filling] using made⟩
  | some chip => exact made.write .chip rfl ⟨⟩ chip none rfl rfl

theorem exists_made (bringUp : BringUp) :
    ∃ b, bringUp.build = .ok b ∧ Made b bringUp.stream bringUp.kind? := by
  obtain ⟨asserted, asserts, made⟩ :=
    made_empty.write (.leaf .resetChip) rfl ⟨⟩ ⟨true⟩ none rfl rfl
  obtain ⟨held, holds, made⟩ := made.settle bringUp.timer bringUp.resetHold
  obtain ⟨released, releases, made⟩ :=
    made.write (.leaf .resetChip) rfl ⟨⟩ ⟨false⟩ none rfl rfl
  obtain ⟨settled, settles, made⟩ := made.settle bringUp.timer bringUp.resetSettle
  obtain ⟨clocked, clocks, made⟩ := made.clocks bringUp
  obtain ⟨based, bases, made⟩ :=
    made.write (.leaf .systimeSyncBase) rfl ⟨⟩ bringUp.systimeBase none rfl rfl
  obtain ⟨synced, syncs, made⟩ :=
    made.write (.leaf .systimeSync) rfl ⟨⟩ ⟨true⟩ none rfl rfl
  obtain ⟨waited, waits, made⟩ :=
    (made.barrier .systime).settle bringUp.timer bringUp.systimeSettle
  obtain ⟨tuned, tunes, made⟩ :=
    made.writes (.leaf .commonSynramConfig) rfl Site.all bringUp.synram
      (some bringUp.synramBackend) (fun _ => by cases bringUp.synramBackend <;> rfl) fun _ => rfl
  obtain ⟨filled, fills, made⟩ := made.chip bringUp.chip
  refine ⟨filled.barrier .all, ?_, ?_⟩
  · unfold build
    simp only [bind_eq_ok_iff]
    exact ⟨asserted, asserts, held, holds, released, releases, settled, settles, clocked, clocks,
      based, bases, synced, syncs, waited, waits, tuned, tunes, filled, fills, rfl⟩
  · have made : Made (filled.barrier .all)
        ([] ++ [resetting true] ++ pausing bringUp.timer bringUp.resetHold ++ [resetting false] ++
          pausing bringUp.timer bringUp.resetSettle ++ clocking bringUp.pll ++
          basing bringUp.systimeBase ++ [synchronising] ++ [.barrier .systime] ++
          pausing bringUp.timer bringUp.systimeSettle ++
          tuning bringUp.synram bringUp.synramBackend ++ filling bringUp.chip ++ [.barrier .all])
        bringUp.kind? := made.barrier .all
    simpa only [stream, untilTuning, untilSync, untilClocks, untilRelease, List.append_assoc,
      List.cons_append, List.nil_append] using made

theorem Made.mergeBack_eq {sequence : Builder} {stream : List Instruction}
    {restriction : Option ExecutorKind} (made : Made sequence stream restriction) (b : Builder) :
    b.mergeBack sequence =
      (restrict "PlaybackProgramBuilder" b.restriction restriction.toList).map fun _ =>
        b.joined sequence := by
  have forward : backwardWait? b.watermarks sequence.leadingWaits = none := by
    rw [backwardWait?_eq_none_iff, made.unled]
    intro timer
    simp [Forward]
  obtain rfl := made.restriction
  unfold mergeBack
  rw [forward]
  cases restricted : restrict "PlaybackProgramBuilder" b.restriction
      sequence.restriction.toList with
  | error e => rfl
  | ok both =>
    obtain ⟨-, rfl⟩ := restrict_toList.1 restricted
    rfl

theorem restrict_kind?_eq_error_iff {bringUp : BringUp} {container : String}
    {existing : Option ExecutorKind} {e : BuildError} :
    restrict container existing bringUp.kind?.toList = .error e ↔
      existing = some .simulation ∧ bringUp.pll.isSome = true ∧
        e = .conflictingRestriction container .simulation .hardware := by
  unfold kind?
  cases bringUp.pll with
  | none => simp [restrict, pure, Except.pure]
  | some output =>
    rcases existing with _ | (_ | _) <;>
      simp [restrict, pure, Except.pure, bind, Except.bind, eq_comm]

end BringUp

/-! ### On a board -/

namespace Board.Machine

open BringUp

theorem clock_pausing (machine : Machine) (timer : TimerOnChip) (ticks : TimerValue) :
    machine.clock + ticks.toNat < (machine.after (pausing timer ticks)).clock := by
  let restart : Instruction := .write (.omnibus (UInt32.ofNat (0x00020000 + timer.index)) 0)
  have sets : restart.sets? timer = some 0 := if_pos (List.mem_singleton.2 rfl)
  have zero := machine.timerReading_of_sets sets
  have moved := machine.clock_obey restart
  change _ < ((machine.obey restart).obey (.wait timer ticks)).clock
  rw [clock_wait]
  rw [timerReading] at zero
  omega

-- Whatever stands between an instruction and a pause, the next instruction behind the pause comes
-- later by what the pause lasts.
theorem timeAfter_pausing (machine : Machine) (before between : List Instruction)
    (timer : TimerOnChip) (ticks : TimerValue) :
    machine.timeAfter before + ticks.toNat ≤
      machine.timeAfter (before ++ between ++ pausing timer ticks) := by
  have passed := (machine.after before).clock_after between
  have paused := ((machine.after before).after between).clock_pausing timer ticks
  unfold timeAfter after at *
  rw [List.foldl_append, List.foldl_append]
  omega

end Board.Machine

namespace BringUp

/-- The phases of the sequence in a stream, each with the write that begins it and the first write
that has to wait for it, and the times at which these are played. -/
structure Settles (bringUp : BringUp) (before stream : List Instruction)
    (time : List Instruction → Nat) : Prop where
  asserted : before ++ [resetting true] <+: stream
  released : before ++ bringUp.untilRelease ++ [resetting false] <+: stream
  held : time before + bringUp.resetHold.toNat ≤ time (before ++ bringUp.untilRelease)
  clocked : ∃ access : WriteAccess,
    before ++ bringUp.untilClocks ++ [.write access] <+: stream ∧
      ((∃ adpll, access.address ∈ PllClockOutput.addresses adpll) ∨
        access.address ∈ SystimeSyncBase.addresses .omnibus)
  settled : time (before ++ bringUp.untilRelease) + bringUp.resetSettle.toNat ≤
    time (before ++ bringUp.untilClocks)
  synchronised : before ++ bringUp.untilSync ++ [synchronising] <+: stream
  tuned : ∃ access : WriteAccess,
    before ++ bringUp.untilTuning ++ [.write access] <+: stream ∧
      ∃ synram, access.address ∈ CommonSynramConfig.addresses synram bringUp.synramBackend
  ready : time (before ++ bringUp.untilSync) + bringUp.systimeSettle.toNat ≤
    time (before ++ bringUp.untilTuning)

-- The phases follow each other wherever the sequence stands, and no timer matters but the one that
-- they restart.
theorem settles_behind (bringUp : BringUp) (before : List Instruction) (machine : Board.Machine) :
    bringUp.Settles before (before ++ bringUp.stream) machine.timeAfter where
  asserted := by simp [stream, untilTuning, untilSync, untilClocks, untilRelease]
  released := by simp [stream, untilTuning, untilSync, untilClocks]
  held := by
    have paused := machine.timeAfter_pausing before [resetting true] bringUp.timer
      bringUp.resetHold
    simpa [untilRelease] using paused
  clocked := by
    obtain ⟨access, rest, starts, place⟩ := exists_clocking bringUp.pll bringUp.systimeBase
    refine ⟨access, ?_, place⟩
    simp [stream, untilTuning, untilSync, starts]
  settled := by
    have paused := machine.timeAfter_pausing (before ++ bringUp.untilRelease) [resetting false]
      bringUp.timer bringUp.resetSettle
    simpa [untilClocks] using paused
  synchronised := by simp [stream, untilTuning]
  tuned := by
    obtain ⟨access, rest, starts, place⟩ := exists_tuning bringUp.synram bringUp.synramBackend
    refine ⟨access, ?_, place⟩
    simp [stream, starts]
  ready := by
    have paused := machine.timeAfter_pausing (before ++ bringUp.untilSync)
      [synchronising, .barrier .systime] bringUp.timer bringUp.systimeSettle
    simpa [untilTuning] using paused

end BringUp

-- The sequence is made whatever its parameters, and restricted to hardware exactly if it configures
-- clocks. Behind any recording it is refused for that restriction alone. On a board in any state,
-- reset is held and settles, and the system time settles, for at least as long as the parameters
-- say.
theorem BringUp.settles_anywhere (bringUp : BringUp) :
    ∃ sequence, bringUp.build = .ok sequence ∧
      sequence.restriction = (if bringUp.pll.isSome then some .hardware else none) ∧
      (∀ calls e, (Call.record calls {}).mergeBack sequence = .error e ↔
        (Call.record calls {}).restriction = some .simulation ∧ bringUp.pll.isSome = true ∧
          e = .conflictingRestriction "PlaybackProgramBuilder" .simulation .hardware) ∧
      ∀ calls merged, (Call.record calls {}).mergeBack sequence = .ok merged →
        ∀ (id : ProgramId) (annotate : Bool) (machine : Board.Machine),
          let before := (Call.record calls {}).instructions
          let program := Program.ofBuilder id merged
          program.instructions = before ++ bringUp.stream ∧
            bringUp.Settles before program.instructions fun earlier =>
              (Board.Play.steps annotate earlier { machine }).2.machine.clock + 1 := by
  obtain ⟨sequence, built, made⟩ := exists_made bringUp
  refine ⟨sequence, built, made.restriction, fun calls e => ?_, ?_⟩
  · rw [made.mergeBack_eq, ← restrict_kind?_eq_error_iff]
    cases Builder.restrict _ _ bringUp.kind?.toList <;> simp [Except.map]
  · intro calls merged accepted id annotate machine before program
    have whole : program.instructions = before ++ bringUp.stream := by
      obtain ⟨-, rfl⟩ := Builder.mergeBack_eq_ok_iff.1 accepted
      exact congrArg (before ++ ·) made.instructions
    have times (earlier : List Instruction) :
        (Board.Play.steps annotate earlier { machine }).2.machine.clock + 1 =
          machine.timeAfter earlier :=
      congrArg (Board.Machine.clock · + 1) (Board.Play.machine_steps annotate earlier { machine })
    rw [whole, funext times]
    exact ⟨rfl, bringUp.settles_behind before machine⟩

end Playback
