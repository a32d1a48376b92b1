import Playback.Proofs.Recording.Merging

/-! A call is the merge of what it adds to an empty builder.

That part depends on the call alone. Since merging is associative, merging a recorded builder is
the same as replaying its accepted calls.
-/

set_option autoImplicit false

namespace Playback

namespace Builder

variable {C V : Type}

theorem write_eq_ok_iff {node : Node C V} {coord : C} {value : V} {explicit : Option Backend}
    {b next : Builder} :
    b.write node coord value explicit = .ok next ↔
      Leaves.unsupported? explicit (node.leaves coord) = none ∧
      Leaves.writeAddresses explicit (node.leaves coord) ≠ [] ∧
      (Leaves.writeAddresses explicit (node.leaves coord)).length =
        (Leaves.words explicit value (node.leaves coord)).length ∧
      ∃ restriction accesses,
        restrict node.name b.restriction (Leaves.restrictions explicit (node.leaves coord)) =
          .ok restriction ∧
        pairs ((Leaves.writeAddresses explicit (node.leaves coord)).zip
          (Leaves.words explicit value (node.leaves coord))) = .ok accesses ∧
        next =
          { b with
            instructions := b.instructions ++ accesses.map .write
            restriction
            watermarks := (Leaves.timerResets explicit value (node.leaves coord)).foldl
              (fun table (timer, value) => table.set timer value) b.watermarks } := by
  unfold write
  dsimp only
  cases Leaves.unsupported? explicit (node.leaves coord) with
  | some e => simp
  | none =>
    dsimp only
    split
    · rename_i empty
      simp [List.isEmpty_iff.1 empty]
    · rename_i some
      rw [List.isEmpty_iff] at some
      split
      · rename_i other
        simp [other]
      · rename_i same
        simp only [bind_eq_ok_iff, pure, Except.pure, Except.ok.injEq, some,
          Decidable.not_not.1 same, ne_eq, not_false_eq_true, true_and]
        constructor
        · rintro ⟨restriction, restricted, accesses, paired, rfl⟩
          exact ⟨restriction, accesses, restricted, paired, rfl⟩
        · rintro ⟨restriction, accesses, restricted, paired, rfl⟩
          exact ⟨restriction, restricted, accesses, paired, rfl⟩

theorem read_eq_ok_iff {node : Node C V} {coord : C} {explicit : Option Backend}
    {ticket : TicketId} {b next : Builder} :
    b.read node coord explicit ticket = .ok next ↔
      Leaves.unsupported? explicit (node.leaves coord) = none ∧
      Leaves.readAddresses explicit (node.leaves coord) ≠ [] ∧
      ∃ restriction,
        restrict node.name b.restriction (Leaves.restrictions explicit (node.leaves coord)) =
          .ok restriction ∧
        next =
          { b with
            instructions :=
              b.instructions ++ (Leaves.readAddresses explicit (node.leaves coord)).map .read
            slots := b.slots ++ [.ofRead node coord explicit ticket]
            restriction } := by
  unfold Builder.read
  dsimp only
  cases Leaves.unsupported? explicit (node.leaves coord) with
  | some e => simp
  | none =>
    dsimp only
    split
    · rename_i empty
      simp [List.isEmpty_iff.1 empty]
    · rename_i some
      rw [List.isEmpty_iff] at some
      simp only [bind_eq_ok_iff, pure, Except.pure, Except.ok.injEq, some, ne_eq, not_false_eq_true,
        true_and]
      constructor
      · rintro ⟨restriction, restricted, rfl⟩
        exact ⟨restriction, restricted, rfl⟩
      · rintro ⟨restriction, restricted, rfl⟩
        exact ⟨restriction, restricted, rfl⟩

theorem write_iff_part {node : Node C V} {coord : C} {value : V} {explicit : Option Backend}
    {b next : Builder} :
    b.write node coord value explicit = .ok next ↔
      ∃ part, write node coord value explicit {} = .ok part ∧ b.mergeBack part = .ok next := by
  simp only [write_eq_ok_iff, mergeBack_eq_ok_iff]
  constructor
  · rintro ⟨supported, some, same, restriction, accesses, requests, paired, rfl⟩
    obtain ⟨own, requested, agree, rfl⟩ := restrict_eq_ok_iff.1 requests
    refine ⟨_, ⟨supported, some, same, own, accesses, requested, paired, rfl⟩,
      ⟨by simp [Forward], agree⟩, ?_⟩
    simp [joined, mergedLeadingWaits_of_none, ← TimerTable.setAll_eq_overlay]
  · rintro ⟨_, ⟨supported, some, same, own, accesses, requested, paired, rfl⟩, fits, rfl⟩
    have requests := restrict_eq_ok_iff.2 ⟨own, requested, fits.agree, rfl⟩
    refine ⟨supported, some, same, _, accesses, requests, paired, ?_⟩
    simp [joined, mergedLeadingWaits_of_none, ← TimerTable.setAll_eq_overlay]

theorem read_iff_part {node : Node C V} {coord : C} {explicit : Option Backend}
    {ticket : TicketId} {b next : Builder} :
    b.read node coord explicit ticket = .ok next ↔
      ∃ part, read node coord explicit ticket {} = .ok part ∧ b.mergeBack part = .ok next := by
  simp only [read_eq_ok_iff, mergeBack_eq_ok_iff]
  constructor
  · rintro ⟨supported, some, restriction, requests, rfl⟩
    obtain ⟨own, requested, agree, rfl⟩ := restrict_eq_ok_iff.1 requests
    refine ⟨_, ⟨supported, some, own, requested, rfl⟩, ⟨by simp [Forward], agree⟩, ?_⟩
    simp [joined, mergedLeadingWaits_of_none, TimerTable.overlay_empty]
  · rintro ⟨_, ⟨supported, some, own, requested, rfl⟩, fits, rfl⟩
    have requests := restrict_eq_ok_iff.2 ⟨own, requested, fits.agree, rfl⟩
    refine ⟨supported, some, _, requests, ?_⟩
    simp [joined, mergedLeadingWaits_of_none, TimerTable.overlay_empty]

theorem added_of_write {node : Node C V} {coord : C} {value : V} {explicit : Option Backend}
    {b next : Builder} (written : b.write node coord value explicit = .ok next) :
    ∃ accesses : List WriteAccess, next.instructions = b.instructions ++ accesses.map .write ∧
      next.slots = b.slots ∧ next.leadingWaits = b.leadingWaits := by
  obtain ⟨-, -, -, restriction, accesses, -, -, rfl⟩ := write_eq_ok_iff.1 written
  exact ⟨accesses, rfl, rfl, rfl⟩

theorem added_of_read {node : Node C V} {coord : C} {explicit : Option Backend}
    {ticket : TicketId} {b next : Builder}
    (read : b.read node coord explicit ticket = .ok next) :
    next.instructions =
        b.instructions ++ (Leaves.readAddresses explicit (node.leaves coord)).map .read ∧
      next.slots = b.slots ++ [.ofRead node coord explicit ticket] ∧
      next.leadingWaits = b.leadingWaits := by
  obtain ⟨-, -, restriction, -, rfl⟩ := read_eq_ok_iff.1 read
  exact ⟨rfl, rfl, rfl⟩

def waiting (timer : TimerOnChip) (value : TimerValue) : Builder where
  instructions := [.wait timer value]
  watermarks := TimerTable.set (.replicate 2 none) timer value
  leadingWaits := TimerTable.set (.replicate 2 none) timer value

theorem waitUntil_empty (timer : TimerOnChip) (value : TimerValue) :
    waitUntil timer value {} = .ok (waiting timer value) := by
  simp [waitUntil, waiting]

theorem fits_waiting_iff {timer : TimerOnChip} {value : TimerValue} {b : Builder} :
    b.Fits (waiting timer value) ↔ Forward (b.watermarks.get timer) (some value) := by
  have lead (other : TimerOnChip) : (waiting timer value).leadingWaits.get other =
      if other = timer then some value else none := by
    simp [waiting, TimerTable.get_set]
  constructor
  · intro fits
    simpa [lead] using fits.forward timer
  · intro forward
    refine ⟨fun other => ?_, by simp [Agree, waiting]⟩
    rw [lead]
    by_cases same : other = timer
    · simpa [same] using forward
    · simp [same, Forward]

theorem get_mergedLeadingWaits_waiting {timer other : TimerOnChip} {value : TimerValue}
    {b : Builder} :
    (mergedLeadingWaits b (waiting timer value)).get other =
      (b.leadingWaits.get other).or
        (if other = timer ∧ b.watermarks.get timer = none then some value else none) := by
  rw [get_mergedLeadingWaits]
  simp only [waiting, TimerTable.get_set, TimerTable.get_empty]
  by_cases same : other = timer
  · subst same
    cases b.watermarks.get other <;> simp
  · simp [same]

theorem waitUntil_iff_part {timer : TimerOnChip} {value : TimerValue} {b next : Builder}
    (covered : b.Covered) :
    b.waitUntil timer value = .ok next ↔ b.mergeBack (waiting timer value) = .ok next := by
  rw [mergeBack_eq_ok_iff, fits_waiting_iff]
  have marks : b.watermarks.overlay (waiting timer value).watermarks =
      b.watermarks.set timer value := (TimerTable.set_eq_overlay _ _ _).symm
  have together (leading : TimerTable) :
      leading = mergedLeadingWaits b (waiting timer value) →
      b.joined (waiting timer value) =
        { b with
          instructions := b.instructions ++ [.wait timer value]
          watermarks := b.watermarks.set timer value
          leadingWaits := leading } := by
    rintro rfl
    simp only [joined, marks]
    simp [waiting]
  unfold waitUntil
  cases mark : b.watermarks.get timer with
  | some previous =>
    -- The watermark covers the wait.
    have leading : b.leadingWaits = mergedLeadingWaits b (waiting timer value) := by
      apply TimerTable.ext
      intro other
      simp [get_mergedLeadingWaits_waiting, mark]
    rw [together _ leading]
    by_cases backward : value < previous
    · simp [backward, Forward, UInt32.not_le.2 backward]
    · simp [backward, Forward, UInt32.not_lt.1 backward, eq_comm]
  | none =>
    have first : b.leadingWaits.get timer = none := by simpa [mark] using covered timer
    have leading : b.leadingWaits.set timer value =
        mergedLeadingWaits b (waiting timer value) := by
      apply TimerTable.ext
      intro other
      rw [get_mergedLeadingWaits_waiting, TimerTable.get_set]
      by_cases same : other = timer
      · simp [same, first, mark]
      · simp [same]
    rw [together _ leading]
    simp [first, Forward, eq_comm]

theorem mergeBack_barrier (b : Builder) (kind : Barrier) :
    b.mergeBack (barrier kind {}) = .ok (b.barrier kind) := by
  have fits : b.Fits (barrier kind {}) := ⟨by simp [Forward, barrier], by simp [Agree, barrier]⟩
  have together : b.joined (barrier kind {}) = b.barrier kind := by
    simp [joined, barrier, mergedLeadingWaits_of_none, TimerTable.overlay_empty]
  exact mergeBack_eq_ok_iff.2 ⟨fits, together.symm⟩

theorem empty_mergeBack (b : Builder) : mergeBack {} b = .ok b :=
  mergeBack_eq_ok_iff.2 ⟨empty_fits b, (empty_joined b).symm⟩

theorem mergeBack_empty (b : Builder) : b.mergeBack {} = .ok b :=
  mergeBack_eq_ok_iff.2 ⟨fits_empty b, (joined_empty b).symm⟩

end Builder

namespace Call

open Builder

-- The call on any builder is the merge of what it adds to an empty one.
theorem perform_iff_part {b next : Builder} (call : Call) (covered : b.Covered) :
    call.perform b = .ok next ↔
      ∃ part, call.perform {} = .ok part ∧ b.mergeBack part = .ok next := by
  cases call with
  | write node coord value explicit =>
    simp only [perform]
    exact write_iff_part
  | read node coord explicit ticket =>
    simp only [perform]
    exact read_iff_part
  | wait timer value =>
    simp only [perform, waitUntil_empty, Except.ok.injEq, exists_eq_left']
    exact waitUntil_iff_part covered
  | barrier kind => simp only [perform, mergeBack_barrier, Except.ok.injEq, exists_eq_left']
  | merge calls => simp only [perform, empty_mergeBack, Except.ok.injEq, exists_eq_left']

mutual

theorem covered_part {part : Builder} :
    (call : Call) → call.perform {} = .ok part → part.Covered
  | write node coord value explicit => by
    intro performed
    obtain ⟨-, -, -, leading⟩ := added_of_write performed
    exact covered_of_none leading
  | read node coord explicit ticket => by
    intro performed
    obtain ⟨-, -, leading⟩ := added_of_read performed
    exact covered_of_none leading
  | wait timer value => by
    intro performed
    simp only [perform, waitUntil_empty, Except.ok.injEq] at performed
    subst performed
    intro other
    simp [waiting]
  | barrier kind => by
    intro performed
    simp only [perform, Except.ok.injEq] at performed
    subst performed
    exact covered_of_none rfl
  | merge calls => by
    intro performed
    simp only [perform, empty_mergeBack, Except.ok.injEq] at performed
    subst performed
    exact covered_record calls covered_empty

theorem covered_record {b : Builder} :
    (calls : List Call) → b.Covered → (record calls b).Covered
  | [] => fun covered => covered
  | call :: rest => by
    intro covered
    unfold record
    cases performed : call.perform b with
    | error e => exact covered_record rest covered
    | ok next =>
      obtain ⟨part, alone, merged⟩ := (perform_iff_part call covered).1 performed
      obtain ⟨-, rfl⟩ := mergeBack_eq_ok_iff.1 merged
      exact covered_record rest (covered.joined (covered_part call alone))

end

-- Merging behind `a` what calls add to `b` is merging `b` behind `a`, then replaying the accepted
-- calls.
theorem mergeBack_record_iff {a merged : Builder} (calls : List Call) (behind : a.Covered)
    {b : Builder} (covered : b.Covered) :
    a.mergeBack (record calls b) = .ok merged ↔
      ∃ ab, a.mergeBack b = .ok ab ∧ replay (accepted calls b) ab = .ok merged := by
  -- A failed call changes neither side; one that succeeds moves its part across the merge.
  induction calls generalizing b with
  | nil => simp [record, accepted, replay, pure, Except.pure]
  | cons call rest ih =>
    unfold record accepted
    cases performed : call.perform b with
    | error e => exact ih covered
    | ok next =>
      obtain ⟨part, alone, added⟩ := (perform_iff_part call covered).1 performed
      have later : next.Covered := by simpa [record, performed] using covered_record [call] covered
      -- The call adds the same part to `b` and to what `b` becomes behind `a`.
      have onward {ab : Builder} (first : a.mergeBack b = .ok ab) (abn : Builder) :
          call.perform ab = .ok abn ↔ ab.mergeBack part = .ok abn := by
        obtain ⟨-, rfl⟩ := mergeBack_eq_ok_iff.1 first
        rw [perform_iff_part call (behind.joined covered), alone]
        simp
      have regroup (abn : Builder) : a.mergeBack next = .ok abn ↔
          ∃ ab, a.mergeBack b = .ok ab ∧ ab.mergeBack part = .ok abn := by
        rw [mergeBack_assoc covered, added]
        simp
      simp only [ih later, regroup]
      simp only [replay, List.foldlM_cons, bind_eq_ok_iff]
      constructor
      · rintro ⟨abn, ⟨ab, first, second⟩, replayed⟩
        exact ⟨ab, first, abn, (onward first abn).2 second, replayed⟩
      · rintro ⟨ab, first, abn, second, replayed⟩
        exact ⟨abn, ⟨ab, first, (onward first abn).1 second⟩, replayed⟩

end Call

end Playback
