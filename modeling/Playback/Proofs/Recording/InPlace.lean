import Playback.Proofs.Recording.Requests

/-! Builders that are changed in place.

A call goes through its checks and changes one after another, and an error leaves the builder as the
steps before it left it. No check comes behind a change. So a call that fails has changed nothing,
and carrying calls out in place comes to the same as recording them (`Call.on_edit`). Merging a
recorded builder in place thus replays its calls or leaves the builder as it is.
-/

set_option autoImplicit false

namespace Playback

/-- Steps on a builder that is changed in place. -/
abbrev Edit (α : Type) := ExceptT BuildError (StateM Builder) α

namespace TimerTable

def setNew (table : TimerTable) (timer : TimerOnChip) (value : TimerValue) : TimerTable :=
  if (table.get timer).isSome then table else table.set timer value

theorem get_setNew (table : TimerTable) (timer other : TimerOnChip) (value : TimerValue) :
    (table.setNew timer value).get other =
      (table.get other).or (if other = timer then some value else none) := by
  unfold setNew
  split
  · rename_i given
    by_cases same : other = timer
    · subst same
      obtain ⟨old, found⟩ := Option.isSome_iff_exists.1 given
      simp [found]
    · simp [same]
  · rename_i fresh
    rw [get_set]
    by_cases same : other = timer
    · subst same
      simp [Option.not_isSome_iff_eq_none.1 fresh]
    · simp [same]

end TimerTable

namespace Edit

variable {α β C V : Type}

def on (edit : Edit α) (b : Builder) : Except BuildError α × Builder :=
  edit.run.run b

@[simp] theorem on_get (b : Builder) : on get b = (.ok b, b) := rfl

@[simp] theorem on_modify (change : Builder → Builder) (b : Builder) :
    on (modify change) b = (.ok (), change b) := rfl

@[simp] theorem on_ofExcept (checked : Except BuildError α) (b : Builder) :
    on (MonadExcept.ofExcept checked) b = (checked, b) := by
  cases checked <;> rfl

theorem on_bind (edit : Edit α) (next : α → Edit β) (b : Builder) :
    on (edit >>= next) b =
      match on edit b with
      | (.ok a, b) => on (next a) b
      | (.error e, b) => (.error e, b) := by
  change (ExceptT.bindCont next (on edit b).1).run (on edit b).2 = _
  obtain ⟨outcome, after⟩ := on edit b
  cases outcome <;> rfl

theorem on_modify_bind (change : Builder → Builder) (next : PUnit → Edit β) (b : Builder) :
    on (modify change >>= next) b = on (next ⟨⟩) (change b) := by
  rw [on_bind, on_modify]

def write (node : Node C V) (coord : C) (value : V) (explicit : Option Backend) : Edit Unit := do
  let leaves := node.leaves coord
  let addresses := Leaves.writeAddresses explicit leaves
  if let some e := Leaves.unsupported? explicit leaves then
    throw (.unsupportedBackend e)
  if addresses.isEmpty then
    throw (.notWritable node.name)
  let words := Leaves.words explicit value leaves
  -- The walk that collects words looks at the backends again.
  if let some e := Leaves.unsupported? explicit leaves then
    throw (.unsupportedBackend e)
  if addresses.length ≠ words.length then
    throw (.wordCountMismatch node.name addresses.length words.length)
  let restriction ← MonadExcept.ofExcept
    (Builder.restrict node.name (← get).restriction (Leaves.restrictions explicit leaves))
  let accesses ← MonadExcept.ofExcept (Builder.pairs (addresses.zip words))
  modify fun b => { b with restriction }
  modify fun b => { b with instructions := b.instructions ++ accesses.map .write }
  forM (Leaves.timerResets explicit value leaves) fun (timer, value) =>
    modify fun b => { b with watermarks := b.watermarks.set timer value }

def read (node : Node C V) (coord : C) (explicit : Option Backend) (ticket : TicketId) :
    Edit Unit := do
  let leaves := node.leaves coord
  let addresses := Leaves.readAddresses explicit leaves
  if let some e := Leaves.unsupported? explicit leaves then
    throw (.unsupportedBackend e)
  if addresses.isEmpty then
    throw (.notReadable node.name)
  let restriction ← MonadExcept.ofExcept
    (Builder.restrict node.name (← get).restriction (Leaves.restrictions explicit leaves))
  modify fun b => { b with restriction }
  modify fun b => { b with slots := b.slots ++ [.ofRead node coord explicit ticket] }
  modify fun b => { b with instructions := b.instructions ++ addresses.map .read }

def waitUntil (timer : TimerOnChip) (value : TimerValue) : Edit Unit := do
  if let some previous := (← get).watermarks.get timer then
    if value < previous then
      throw (.nonMonotonicWait timer previous value)
  else
    modify fun b => { b with leadingWaits := b.leadingWaits.setNew timer value }
  modify fun b => { b with watermarks := b.watermarks.set timer value }
  modify fun b => { b with instructions := b.instructions ++ [.wait timer value] }

def barrier (kind : Barrier) : Edit Unit :=
  modify fun b => { b with instructions := b.instructions ++ [.barrier kind] }

def checkLeading (other : Builder) (timer : TimerOnChip) : Edit Unit := do
  if let some requested := other.leadingWaits.get timer then
    if let some previous := (← get).watermarks.get timer then
      if requested < previous then
        throw (.nonMonotonicWait timer previous requested)

def takeLeading (other : Builder) (timer : TimerOnChip) : Edit Unit := do
  if let some value := other.leadingWaits.get timer then
    if ((← get).watermarks.get timer).isNone then
      modify fun b => { b with leadingWaits := b.leadingWaits.setNew timer value }

def bothRestrictions : Option ExecutorKind → Option ExecutorKind →
    Except BuildError (Option ExecutorKind)
  | some existing, some requested =>
    if existing ≠ requested then
      .error (.conflictingRestriction "PlaybackProgramBuilder" existing requested)
    else .ok (some existing)
  | mine, theirs => .ok (mine.or theirs)

def mergeBack (other : Builder) : Edit Unit := do
  forM Site.all (checkLeading other)
  let restriction ← MonadExcept.ofExcept (bothRestrictions (← get).restriction other.restriction)
  modify fun b => { b with restriction }
  forM Site.all (takeLeading other)
  modify fun b => { b with watermarks := b.watermarks.overlay other.watermarks }
  modify fun b => { b with instructions := b.instructions ++ other.instructions }
  modify fun b => { b with slots := b.slots ++ other.slots }

/-! ### Checks before changes -/

/-- What a call comes to whose checks all precede its changes. -/
def settle (b : Builder) : Except BuildError Builder → Except BuildError Unit × Builder
  | .ok next => (.ok (), next)
  | .error e => (.error e, b)

theorem on_restarts (resets : List (TimerOnChip × TimerValue)) (b : Builder) :
    on (forM resets fun (timer, value) =>
        modify fun b => { b with watermarks := b.watermarks.set timer value }) b =
      (.ok (),
        { b with
          watermarks := resets.foldl (fun table (timer, value) => table.set timer value)
            b.watermarks }) := by
  induction resets generalizing b with
  | nil => rfl
  | cons reset rest ih =>
    rw [List.forM_cons, on_modify_bind]
    exact ih _

theorem on_write (node : Node C V) (coord : C) (value : V) (explicit : Option Backend)
    (b : Builder) :
    on (write node coord value explicit) b = settle b (b.write node coord value explicit) := by
  unfold write Builder.write
  dsimp only
  cases Leaves.unsupported? explicit (node.leaves coord) with
  | some e => rfl
  | none =>
    dsimp only
    split
    · rfl
    · split
      · rfl
      · simp only [on_bind, on_get, on_ofExcept]
        cases Builder.restrict node.name b.restriction
            (Leaves.restrictions explicit (node.leaves coord)) with
        | error e => rfl
        | ok restriction =>
          dsimp only [bind, Except.bind]
          cases Builder.pairs ((Leaves.writeAddresses explicit (node.leaves coord)).zip
              (Leaves.words explicit value (node.leaves coord))) with
          | error e => rfl
          | ok accesses =>
            simp only [on_modify, on_restarts]
            rfl

theorem on_read (node : Node C V) (coord : C) (explicit : Option Backend) (ticket : TicketId)
    (b : Builder) :
    on (read node coord explicit ticket) b = settle b (b.read node coord explicit ticket) := by
  unfold read Builder.read
  dsimp only
  cases Leaves.unsupported? explicit (node.leaves coord) with
  | some e => rfl
  | none =>
    dsimp only
    split
    · rfl
    · simp only [on_bind, on_get, on_ofExcept]
      cases Builder.restrict node.name b.restriction
          (Leaves.restrictions explicit (node.leaves coord)) with
      | error e => rfl
      | ok restriction => rfl

theorem on_waitUntil (timer : TimerOnChip) (value : TimerValue) (b : Builder) :
    on (waitUntil timer value) b = settle b (b.waitUntil timer value) := by
  unfold waitUntil Builder.waitUntil
  simp only [on_bind, on_get]
  cases b.watermarks.get timer with
  | some previous =>
    dsimp only
    split <;> rfl
  | none =>
    simp only [on_modify_bind, TimerTable.setNew]
    split <;> rfl

def backward? (watermarks leadingWaits : TimerTable) (timer : TimerOnChip) : Option BuildError := do
  let requested ← leadingWaits.get timer
  let previous ← watermarks.get timer
  if requested < previous then some (.nonMonotonicWait timer previous requested) else none

def refusal : Option BuildError → Except BuildError Unit
  | some e => .error e
  | none => .ok ()

theorem on_checkLeading (other : Builder) (timer : TimerOnChip) (b : Builder) :
    on (checkLeading other timer) b =
      (refusal (backward? b.watermarks other.leadingWaits timer), b) := by
  unfold checkLeading backward?
  cases other.leadingWaits.get timer with
  | none => rfl
  | some requested =>
    simp only [on_bind, on_get]
    cases b.watermarks.get timer with
    | none => rfl
    | some previous =>
      dsimp only [Option.bind_eq_bind, Option.bind_some]
      split <;> rfl

theorem on_checks (other : Builder) (timers : List TimerOnChip) (b : Builder) :
    on (forM timers (checkLeading other)) b =
      (refusal (timers.findSome? (backward? b.watermarks other.leadingWaits)), b) := by
  induction timers with
  | nil => rfl
  | cons timer rest ih =>
    rw [List.forM_cons, on_bind, on_checkLeading, List.findSome?_cons]
    cases backward? b.watermarks other.leadingWaits timer with
    | some e => rfl
    | none => exact ih

theorem on_takeLeading (other : Builder) (timer : TimerOnChip) (b : Builder) :
    ∃ leads : TimerTable,
      on (takeLeading other timer) b = (.ok (), { b with leadingWaits := leads }) ∧
      ∀ place, leads.get place = (b.leadingWaits.get place).or
        (if place = timer ∧ b.watermarks.get place = none then other.leadingWaits.get place
          else none) := by
  unfold takeLeading
  cases lead : other.leadingWaits.get timer with
  | none =>
    refine ⟨b.leadingWaits, rfl, fun place => ?_⟩
    by_cases here : place = timer <;> simp [here, lead]
  | some value =>
    simp only [on_bind, on_get]
    cases mark : b.watermarks.get timer with
    | some previous =>
      refine ⟨b.leadingWaits, rfl, fun place => ?_⟩
      by_cases here : place = timer <;> simp [here, mark]
    | none =>
      refine ⟨b.leadingWaits.setNew timer value, rfl, fun place => ?_⟩
      rw [TimerTable.get_setNew]
      by_cases here : place = timer <;> simp [here, mark, lead]

theorem on_takes (other : Builder) (timers : List TimerOnChip) (b : Builder) :
    ∃ leads : TimerTable,
      on (forM timers (takeLeading other)) b = (.ok (), { b with leadingWaits := leads }) ∧
      ∀ place, leads.get place = (b.leadingWaits.get place).or
        (if place ∈ timers ∧ b.watermarks.get place = none then other.leadingWaits.get place
          else none) := by
  induction timers generalizing b with
  | nil => exact ⟨b.leadingWaits, rfl, by simp⟩
  | cons timer rest ih =>
    obtain ⟨first, taken, firstLeads⟩ := on_takeLeading other timer b
    obtain ⟨leads, others, restLeads⟩ := ih { b with leadingWaits := first }
    refine ⟨leads, ?_, fun place => ?_⟩
    · rw [List.forM_cons, on_bind, taken]
      exact others
    · rw [restLeads, firstLeads, Option.or_assoc]
      congr 1
      by_cases here : place = timer
      · subst here
        by_cases bare : b.watermarks.get place = none <;> by_cases again : place ∈ rest <;>
          simp [bare, again]
      · simp [here]

theorem bothRestrictions_eq (mine theirs : Option ExecutorKind) :
    bothRestrictions mine theirs =
      Builder.restrict "PlaybackProgramBuilder" mine theirs.toList := by
  cases theirs with
  | none => cases mine <;> rfl
  | some requested =>
    cases mine with
    | none => rfl
    | some existing =>
      rw [bothRestrictions, Option.toList_some, Builder.restrict_cons]
      by_cases same : existing = requested
      · simp only [same, ne_eq, not_true_eq_false, if_false, if_true]
        rfl
      · simp only [same, ne_eq, not_false_eq_true, if_true, if_false]

theorem on_mergeBack (other b : Builder) :
    on (mergeBack other) b = settle b (b.mergeBack other) := by
  unfold mergeBack Builder.mergeBack
  have same : Builder.backwardWait? b.watermarks other.leadingWaits =
      Site.all.findSome? (backward? b.watermarks other.leadingWaits) := rfl
  rw [on_bind, on_checks, same]
  cases Site.all.findSome? (backward? b.watermarks other.leadingWaits) with
  | some e => rfl
  | none =>
    simp only [refusal, on_bind, on_get, on_ofExcept, bothRestrictions_eq]
    cases Builder.restrict "PlaybackProgramBuilder" b.restriction other.restriction.toList with
    | error e => rfl
    | ok restriction =>
      obtain ⟨leads, taken, merged⟩ := on_takes other Site.all { b with restriction }
      have leading : leads = Builder.mergedLeadingWaits b other := by
        apply TimerTable.ext
        intro timer
        rw [merged, Builder.get_mergedLeadingWaits]
        cases b.watermarks.get timer <;> simp [Site.mem_all]
      simp only [on_modify, taken, leading]
      rfl

end Edit

namespace Call

mutual

def edit : Call → Edit Unit
  | write node coord value explicit => .write node coord value explicit
  | read node coord explicit ticket => .read node coord explicit ticket
  | wait timer value => .waitUntil timer value
  | barrier kind => .barrier kind
  | merge calls => .mergeBack (edited calls {})

/-- The builder after calls in place; a call finds what the one before it left, error or not. -/
def edited : List Call → Builder → Builder
  | [], b => b
  | call :: rest, b => edited rest (Edit.on call.edit b).2

end

mutual

theorem on_edit (b : Builder) :
    (call : Call) → Edit.on call.edit b = Edit.settle b (call.perform b)
  | write node coord value explicit => Edit.on_write node coord value explicit b
  | read node coord explicit ticket => Edit.on_read node coord explicit ticket b
  | wait timer value => Edit.on_waitUntil timer value b
  | barrier kind => rfl
  | merge calls => by
    rw [edit, perform, edited_eq_record calls, Edit.on_mergeBack]

theorem edited_eq_record {b : Builder} : (calls : List Call) → edited calls b = record calls b
  | [] => rfl
  | call :: rest => by
    unfold edited record
    rw [on_edit b call]
    cases call.perform b with
    | ok next => exact edited_eq_record rest
    | error e => exact edited_eq_record rest

end

def succeeding : List Call → Builder → List Call
  | [], _ => []
  | call :: rest, b =>
    match Edit.on call.edit b with
    | (.ok _, next) => call :: succeeding rest next
    | (.error _, left) => succeeding rest left

theorem succeeding_eq_accepted (calls : List Call) (b : Builder) :
    succeeding calls b = accepted calls b := by
  induction calls generalizing b with
  | nil => rfl
  | cons call rest ih =>
    unfold succeeding accepted
    rw [on_edit b call]
    cases call.perform b with
    | ok next => exact congrArg (call :: ·) (ih next)
    | error e => exact ih b

open Builder

-- Merging in place is replaying what the second history accepted, or it leaves the first builder as
-- it is. Recorded builders form a partial monoid under it.
theorem mergeBack_iff_replay (first second third : List Call) :
    let a := edited first {}
    let merging := Edit.on (.mergeBack (edited second {})) a
    replay (accepted second {}) {} = .ok (record second {}) ∧
    (∀ merged, (record first {}).mergeBack (record second {}) = .ok merged ↔
      replay (accepted second {}) (record first {}) = .ok merged) ∧
    (∀ e, merging.1 = .error e → merging.2 = a ∧ edited (first ++ [merge second]) {} = a) ∧
    merging = Edit.settle a ((record first {}).mergeBack (record second {})) ∧
    a = record first {} ∧
    (∀ merged,
      ((record first {}).mergeBack (record second {}) >>= fun both =>
          both.mergeBack (record third {})) = .ok merged ↔
        ((record second {}).mergeBack (record third {}) >>= fun both =>
          (record first {}).mergeBack both) = .ok merged) ∧
    (record first {}).mergeBack {} = .ok (record first {}) ∧
    mergeBack {} (record first {}) = .ok (record first {}) := by
  have covered := covered_record first covered_empty
  dsimp only
  rw [edited_eq_record, edited_eq_record, edited_eq_record, Edit.on_mergeBack]
  refine ⟨replay_accepted second {}, fun merged => ?_, fun e failed => ?_, rfl, rfl,
    fun merged => ?_, mergeBack_empty _, empty_mergeBack _⟩
  · rw [mergeBack_record_iff second covered covered_empty, mergeBack_empty]
    simp
  · cases merged : (record first {}).mergeBack (record second {}) with
    | ok both =>
      rw [merged] at failed
      cases failed
    | error e => exact ⟨rfl, by simp [record_append, record, perform, merged]⟩
  · simp only [bind_eq_ok_iff]
    exact mergeBack_assoc (covered_record second covered_empty)

end Call

end Playback
