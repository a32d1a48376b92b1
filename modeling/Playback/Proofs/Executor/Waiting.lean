import Playback.Proofs.Executor.Pauses
import Playback.Proofs.Executor.Residency
import Playback.Proofs.Executor.Taps
import Playback.Proofs.Program.Answers

/-! How often an execute looks at the board.

Looks at the reset line are counted by attempts; looks at a running program by the pauses between
them, of which there is one less. Each look uses up what the board had in store for it, so both
loops are solved by how much that is.
-/

set_option autoImplicit false

namespace Playback

namespace Board

variable {board : Board}

def checked (looks : Nat) (board : Board) : Board :=
  { board with resetChecks := board.resetChecks - looks }

def polled (looks : Nat) (board : Board) : Board :=
  { board with
    polls := board.polls + looks
    busyLeft := if board.stuck then board.busyLeft else board.busyLeft - looks }

/-- The end of the run is seen before the pauses are used up. -/
def EndsWithin (pauses : Nat) (board : Board) : Prop :=
  board.stuck = false ∧ board.busyLeft ≤ pauses

instance (pauses : Nat) (board : Board) : Decidable (board.EndsWithin pauses) :=
  inferInstanceAs (Decidable (_ ∧ _))

/-- The looks that find this out. -/
def looks (pauses : Nat) (board : Board) : Nat :=
  if board.stuck then pauses + 1 else min board.busyLeft pauses + 1

def triggered (packet : Packet) (board : Board) : Board :=
  { board with
    machine := (board.machine.play packet.flags.annotates packet.instructions).2
    result := Response.encode (board.machine.play packet.flags.annotates packet.instructions).1
    busyLeft := board.busyPolls
    triggers := board.triggers + 1 }

theorem trigger_of_resident {packet : Packet} (resident : board.program = some packet) :
    board.trigger = (.ok (), board.triggered packet) := by
  simp only [trigger, triggered, resident]

theorem checked_checked (first second : Nat) :
    (board.checked first).checked second = board.checked (first + second) := by
  simp only [checked, Nat.sub_sub]

theorem polled_polled (first second : Nat) :
    (board.polled first).polled second = board.polled (first + second) := by
  unfold polled
  dsimp only
  split <;> simp only [Nat.add_assoc, Nat.sub_sub]

theorem chipInReset_eq :
    board.chipInReset = (.ok (decide (board.resetChecks ≠ 0)), board.checked 1) := by
  unfold chipInReset
  by_cases out : board.resetChecks = 0
  · have none : board.resetChecks - 1 = board.resetChecks := by omega
    have same : board.checked 1 = board := by rw [checked, none]
    rw [if_pos out, decide_eq_false (not_not.2 out), same]
  · rw [if_neg out, decide_eq_true out]
    rfl

theorem pollStatus_eq :
    board.pollStatus = (.ok (decide ¬ board.EndsWithin 0), board.polled 1) := by
  unfold pollStatus polled EndsWithin
  dsimp only
  by_cases stuck : board.stuck = true
  · simp [stuck]
  · by_cases ended : board.busyLeft = 0
    · simp [stuck, ended]
    · simp [stuck, ended]

theorem endsWithin_polled {pauses : Nat} (running : ¬ board.EndsWithin 0) :
    (board.polled 1).EndsWithin pauses ↔ board.EndsWithin (pauses + 1) := by
  unfold EndsWithin polled at *
  dsimp only
  cases stuck : board.stuck with
  | true => simp
  | false =>
    simp only [stuck, true_and, Bool.false_eq_true, if_false] at running ⊢
    omega

theorem looks_polled {pauses : Nat} (running : ¬ board.EndsWithin 0) :
    1 + (board.polled 1).looks pauses = board.looks (pauses + 1) := by
  unfold EndsWithin looks polled at *
  dsimp only
  cases stuck : board.stuck with
  | true =>
    simp only [if_true]
    omega
  | false =>
    simp only [stuck, true_and, Bool.false_eq_true, if_false] at running ⊢
    omega

theorem looks_of_endsWithin {pauses : Nat} (ended : board.EndsWithin 0) : board.looks pauses = 1 := by
  obtain ⟨moving, none⟩ := ended
  simp [looks, moving, Nat.le_zero.1 none]

theorem looks_zero : board.looks 0 = 1 := by
  unfold looks
  split <;> simp

end Board

namespace Executor

theorem called_replicate {change : Nat → Board → Board}
    (adds : ∀ board first second, change second (change first board) = change (first + second) board)
    (call : LinkCall) (more : Nat) (e : Executor (Tap Board)) :
    (e.called [call] (change 1)).called (.replicate more call) (change more) =
      e.called (.replicate (1 + more) call) (change (1 + more)) := by
  rw [called_called, Nat.add_comm 1 more, List.replicate_succ, List.singleton_append,
    Nat.add_comm more 1]
  simp only [adds]

section Looks

variable {e : Executor (Tap Board)}

theorem chipInReset_called :
    Transport.chipInReset e.transport =
      (.ok (decide (e.transport.link.resetChecks ≠ 0)),
        (e.called [.chipInReset] (Board.checked 1)).transport) :=
  through_called Board.chipInReset_eq

theorem pollStatus_called :
    Transport.pollStatus e.transport =
      (.ok (decide ¬ e.transport.link.EndsWithin 0),
        (e.called [.pollStatus] (Board.polled 1)).transport) :=
  through_called Board.pollStatus_eq

theorem pollStatus_of_ended (ended : e.transport.link.EndsWithin 0) :
    Transport.pollStatus e.transport =
      (.ok false, (e.called [.pollStatus] (Board.polled 1)).transport) := by
  rw [pollStatus_called, decide_eq_false (not_not.2 ended)]

theorem pollStatus_of_running (running : ¬ e.transport.link.EndsWithin 0) :
    Transport.pollStatus e.transport =
      (.ok true, (e.called [.pollStatus] (Board.polled 1)).transport) := by
  rw [pollStatus_called, decide_eq_true running]

theorem start_of_resident {packet : Packet} (options : ExecuteOptions)
    (resident : e.transport.link.program = some packet) :
    e.start options =
      poll (.start options.limits)
        { e.called [.trigger] (Board.triggered packet) with state := .polling } := by
  have triggered : Transport.trigger e.transport =
      (.ok (), (e.called [.trigger] (Board.triggered packet)).transport) :=
    through_called (Board.trigger_of_resident resident)
  unfold start
  rw [triggered]
  rfl

end Looks

theorem awaitReset_eq (attempts left : Nat) (e : Executor (Tap Board)) :
    let checks := e.transport.link.resetChecks
    let looks := min left (checks + 1)
    awaitReset attempts left e =
      (if left ≤ checks then .error (.chipInReset attempts) else .ok (),
        e.called (.replicate looks .chipInReset) (Board.checked looks)) := by
  intro checks looks
  induction left generalizing e with
  | zero => simp [awaitReset, called, Board.checked, looks, checks]
  | succ left ih =>
    unfold awaitReset
    by_cases out : checks = 0
    · have last : looks = 1 := by omega
      rw [chipInReset_called, decide_eq_false (not_not.2 out), if_neg (by omega), last]
      rfl
    · rw [chipInReset_called, decide_eq_true out]
      change awaitReset attempts left (e.called [.chipInReset] (Board.checked 1)) = _
      have fewer : (e.called [.chipInReset] (Board.checked 1)).transport.link.resetChecks =
          checks - 1 := rfl
      have count : 1 + min left (checks - 1 + 1) = looks := by omega
      have same : left ≤ checks - 1 ↔ left + 1 ≤ checks := by omega
      rw [ih, fewer, called_replicate (fun _ => Board.checked_checked), count]
      simp only [same]

theorem poll_eq (backoff : Backoff) (e : Executor (Tap Board)) :
    let board := e.transport.link
    let looks := board.looks backoff.pauses.length
    let seen := e.called (.replicate looks .pollStatus) (Board.polled looks)
    poll backoff e =
      if board.EndsWithin backoff.pauses.length then (.ok (), seen)
      else
        (.error (.timeout backoff.limits.budget (some board.exception)),
          { seen.asked [.readExceptionFlags] with lastException := some board.exception }) := by
  fun_induction Backoff.pauses backoff generalizing e with
  | case1 backoff spent =>
    dsimp only [List.length_nil]
    rw [Board.looks_zero]
    by_cases ended : e.transport.link.EndsWithin 0
    · rw [if_pos ended, poll_of_done (pollStatus_of_ended ended)]
      rfl
    · rw [if_neg ended,
        poll_of_spent (pollStatus_of_running ended) (Backoff.next?_of_spent spent),
        Backoff.waited_of_spent spent]
      rfl
  | case2 backoff left ih =>
    dsimp only [List.length_cons] at ih ⊢
    by_cases ended : e.transport.link.EndsWithin 0
    · have early : e.transport.link.EndsWithin (backoff.advance.pauses.length + 1) :=
        ⟨ended.1, ended.2.trans (Nat.zero_le _)⟩
      rw [if_pos early, Board.looks_of_endsWithin ended, poll_of_done (pollStatus_of_ended ended)]
      rfl
    · rw [poll_of_left (pollStatus_of_running ended) (Backoff.next?_of_left left)]
      change poll backoff.advance (e.called [.pollStatus] (Board.polled 1)) = _
      have next : (e.called [.pollStatus] (Board.polled 1)).transport.link =
          e.transport.link.polled 1 := rfl
      rw [ih, called_replicate (fun _ => Board.polled_polled), next, Board.looks_polled ended]
      simp only [Board.endsWithin_polled ended]
      rfl

def started (packet : Packet) (e : Executor (Tap Board)) : Executor (Tap Board) :=
  let checks := e.transport.link.resetChecks + 1
  let ready := e.called (.replicate checks .chipInReset) (Board.checked checks)
  { ready.called [.trigger] (Board.triggered packet) with state := .polling }

def waited (packet : Packet) (pauses : Nat) (e : Executor (Tap Board)) : Executor (Tap Board) :=
  let looks := (e.started packet).transport.link.looks pauses
  (e.started packet).called (.replicate looks .pollStatus) (Board.polled looks)

theorem calls_waited (packet : Packet) (pauses : Nat) (e : Executor (Tap Board)) :
    let board := e.transport.link
    let looks := if board.stuck then pauses + 1 else min board.busyPolls pauses + 1
    (e.waited packet pauses).transport.calls =
      e.transport.calls ++ (.replicate (board.resetChecks + 1) .chipInReset ++
        .trigger :: .replicate looks .pollStatus) := by
  unfold waited started called
  simp only [List.append_assoc, List.singleton_append]
  rfl

section Execute

variable {e : Executor (Tap Board)} {id : ProgramId} (loaded : e.transferred = some id)
  (options : ExecuteOptions) (shelf : Shelf)

include loaded

theorem execute_of_held (held : e.resetAttempts ≤ e.transport.link.resetChecks) :
    e.execute options shelf =
      (.error (.chipInReset e.resetAttempts),
        { e.called (.replicate e.resetAttempts .chipInReset) (Board.checked e.resetAttempts) with
          state := .failed },
        shelf) := by
  have looks : min e.resetAttempts (e.transport.link.resetChecks + 1) = e.resetAttempts := by omega
  unfold execute
  rw [loaded, awaitReset_eq, if_pos held, looks]
  rfl

section Out

variable {packet : Packet} (resident : e.transport.link.program = some packet)
  (out : e.transport.link.resetChecks < e.resetAttempts)

include resident out

theorem execute_of_out :
    let ended := poll (.start options.limits) (e.started packet)
    e.execute options shelf =
      (ended.1, settled ended.1 ended.2, shelf.modify id Program.beginRun) := by
  intro ended
  let checks := e.transport.link.resetChecks + 1
  let ready := e.called (.replicate checks .chipInReset) (Board.checked checks)
  have looks : min e.resetAttempts (e.transport.link.resetChecks + 1) = checks := by omega
  have starts : ready.start options = ended := start_of_resident options resident
  unfold execute
  rw [loaded, awaitReset_eq, if_neg (Nat.not_le.2 out), looks, ← starts]

theorem execute_of_ended
    (ended : (e.started packet).transport.link.EndsWithin options.limits.pauses.length) :
    e.execute options shelf =
      (.ok (), e.waited packet options.limits.pauses.length,
        shelf.modify id Program.beginRun) := by
  have polled : poll (.start options.limits) (e.started packet) = _ :=
    (poll_eq (.start options.limits) (e.started packet)).trans (if_pos ended)
  rw [execute_of_out loaded options shelf resident out, polled]
  rfl

theorem execute_of_late
    (late : ¬ (e.started packet).transport.link.EndsWithin options.limits.pauses.length) :
    e.execute options shelf =
      (.error (.timeout options.limits.budget (some e.transport.link.exception)),
        { (e.waited packet options.limits.pauses.length).asked [.readExceptionFlags] with
          state := .failed
          lastException := some e.transport.link.exception },
        shelf.modify id Program.beginRun) := by
  have polled : poll (.start options.limits) (e.started packet) = _ :=
    (poll_eq (.start options.limits) (e.started packet)).trans (if_neg late)
  rw [execute_of_out loaded options shelf resident out, polled]
  rfl

end Out

end Execute

end Executor

namespace Shelf

/-- A shelf on which the results of a program were cleared. Its runs still count. -/
structure Cleared (id : ProgramId) (shelf after : Shelf) : Prop where
  slots : ∀ slot ∈ (after.get id).slots, slot.state = .empty
  events : (after.get id).events = {}
  runs : (after.get id).runs = (shelf.get id).runs
  tickets (distinct : (shelf.slots.map Slot.ticket).Nodup) {C V : Type} [Coordinate C]
    (ticket : Ticket C V) (own : ticket.id ∈ (shelf.get id).slots.map Slot.ticket) :
    ticket.isValid after = false

theorem cleared_beginRun (id : ProgramId) (shelf : Shelf) :
    Cleared id shelf (shelf.modify id Program.beginRun) := by
  have begun : (shelf.modify id Program.beginRun).get id = (shelf.get id).beginRun := by
    rw [get_modify, if_pos rfl]
  refine ⟨fun slot member => ?_, by rw [begun]; rfl, by rw [begun]; rfl,
    fun distinct C V coordinate ticket own => ?_⟩
  · rw [begun] at member
    exact Program.empty_beginRun _ slot member
  · have kept : (shelf.modify id Program.beginRun).slots.map Slot.ticket =
        shelf.slots.map Slot.ticket :=
      tickets_put (shelf.get id).beginRun_reset
    obtain ⟨slot, member, named⟩ := List.mem_map.1 own
    have there : slot.reset ∈ ((shelf.modify id Program.beginRun).get id).slots := by
      rw [begun]
      exact List.mem_map_of_mem member
    exact Ticket.isValid_of_slot? (named ▸ slot?_of_get (kept ▸ distinct) there)

end Shelf

namespace Session

-- Every executor that holds a program has it on its board. If the chip is in reset for as many looks
-- as there are attempts, nothing else is touched. Otherwise the program is cleared and triggered, and
-- its end is seen exactly if it comes with the look behind the last pause at the latest.
theorem execute_outcome :
    (∀ (builders : List Builder) (board : Board) (settings : Settings) (commands : List Command)
      (id : ProgramId),
      let start := initial builders board settings
      let reached := (start.current (start.log commands)).executor
      reached.transferred = some id → ∃ packet, reached.transport.program = some packet) ∧
    ∀ (e : Executor Board) (id : ProgramId) (packet : Packet) (options : ExecuteOptions)
      (shelf : Shelf), e.transferred = some id → e.transport.program = some packet →
      let board := e.transport
      let attempts := max 1 e.settings.resetAttempts.toNat
      let checks := board.resetChecks
      let pauses := options.limits.pauses.length
      let (outcome, ran, after) := e.tapped.execute options shelf
      let calls := ran.transport.calls
      let link := ran.transport.link
      e.execute options shelf = (outcome, ran.seenAs Tap.link, after) ∧
      (attempts ≤ checks →
        outcome = .error (.chipInReset attempts) ∧ calls = .replicate attempts .chipInReset ∧
        link = { board with resetChecks := checks - attempts } ∧
        ran.lastException = e.lastException ∧ after = shelf) ∧
      (checks < attempts →
        let looks := if board.stuck then pauses + 1 else min board.busyPolls pauses + 1
        let begun := List.replicate (checks + 1) .chipInReset ++
          .trigger :: List.replicate looks .pollStatus
        (outcome = .ok () ↔ board.stuck = false ∧ board.busyPolls ≤ pauses) ∧
        (outcome = .ok () → calls = begun ∧ ran.lastException = e.lastException) ∧
        (outcome ≠ .ok () →
          outcome = .error (.timeout options.limits.budget (some board.exception)) ∧
          calls = begun ++ [.readExceptionFlags] ∧ ran.lastException = some board.exception) ∧
        link.triggers = board.triggers + 1 ∧ link.polls = board.polls + looks ∧
        after = shelf.modify id Program.beginRun ∧ shelf.Cleared id after) := by
  refine ⟨fun builders board settings commands id loaded => ?_,
    fun e id packet options shelf loaded resident => ?_⟩
  · have grounded := grounded_of_chain (Shelf.named_ofBuilders builders) rfl
      (chain_log (initial builders board settings) commands)
    exact ⟨_, (grounded.resident id loaded).2⟩
  intro board attempts checks pauses
  have plain : e.execute options shelf = _ := Tap.mirrors_link.execute options shelf e.tapped
  rcases Nat.lt_or_ge checks attempts with out | held
  · have early : ¬ attempts ≤ checks := Nat.not_le.2 out
    have calls : (e.tapped.waited packet pauses).transport.calls = _ :=
      (e.tapped.calls_waited packet pauses).trans (List.nil_append _)
    by_cases ended : board.stuck = false ∧ board.busyPolls ≤ pauses
    · have executes : e.tapped.execute options shelf = _ :=
        Executor.execute_of_ended loaded options shelf resident out ended
      rw [executes] at plain ⊢
      exact ⟨plain, fun held => absurd held early, fun _ => ⟨iff_of_true rfl ended,
        fun _ => ⟨calls, rfl⟩, fun fails => absurd rfl fails, rfl, rfl, rfl,
        shelf.cleared_beginRun id⟩⟩
    · have executes : e.tapped.execute options shelf = _ :=
        Executor.execute_of_late loaded options shelf resident out ended
      have more := congrArg (· ++ [LinkCall.readExceptionFlags]) calls
      rw [executes] at plain ⊢
      exact ⟨plain, fun held => absurd held early, fun _ => ⟨iff_of_false (by simp) ended,
        fun done => by simp at done, fun _ => ⟨rfl, more, rfl⟩, rfl, rfl, rfl,
        shelf.cleared_beginRun id⟩⟩
  · have executes : e.tapped.execute options shelf = _ :=
      Executor.execute_of_held loaded options shelf held
    rw [executes] at plain ⊢
    refine ⟨plain, fun _ => ⟨rfl, List.nil_append _, rfl, rfl, rfl⟩, fun out => ?_⟩
    exact absurd held (Nat.not_le.2 out)

def briefly : ExecuteOptions where
  limits := ⟨Duration.ofMicroseconds 5, Duration.ofMicroseconds 20, Duration.ofMicroseconds 20⟩

-- Both loops end with the last look that they have.
theorem restarting_just_ends :
    let start := initial [restarting] { resetChecks := 2, busyPolls := 3 } {}
    let e := start.executor.loaded (start.shelf.get 1)
    let (outcome, ran, after) := e.tapped.execute briefly start.shelf
    outcome = .ok () ∧ start.shelf.Cleared 1 after ∧
      ran.transport.calls = [.chipInReset, .chipInReset, .chipInReset, .trigger, .pollStatus,
        .pollStatus, .pollStatus, .pollStatus] := by
  intro start e
  have pauses : briefly.limits.pauses.length = 3 := by cbv
  have ends := execute_outcome.2 e 1 _ briefly start.shelf rfl rfl
  generalize e.tapped.execute briefly start.shelf = result at ends ⊢
  obtain ⟨outcome, ran, after⟩ := result
  obtain ⟨-, -, out⟩ := ends
  obtain ⟨ok, calls, -, -, -, -, cleared⟩ := out (by decide)
  rw [pauses] at ok calls
  have done := ok.2 ⟨rfl, by decide⟩
  exact ⟨done, cleared, (calls done).1⟩

end Session

end Playback
