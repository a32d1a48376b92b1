import Playback.Proofs.Recording.Calls

/-! Builders under merging form a partial monoid.

A merge never looks at calls. It compares the leading waits of the second builder with the
watermarks of the first, which is enough because a timer with a leading wait has a watermark
(`Builder.Covered`): then the first wait on a timer that nothing covers is the one that is compared,
however the builders were put together.
-/

set_option autoImplicit false

namespace Playback

namespace TimerTable

theorem ext {a b : TimerTable} (same : ∀ timer : TimerOnChip, a.get timer = b.get timer) :
    a = b := by
  apply Vector.ext
  intro i bound
  exact same ⟨⟨i, bound⟩⟩

@[simp] theorem get_empty (timer : TimerOnChip) :
    get (.replicate 2 none) timer = none := by
  simp [get, Site.entry]

theorem overlay_assoc (a b c : TimerTable) :
    overlay (overlay a b) c = overlay a (overlay b c) := by
  apply ext
  intro timer
  simp only [get_overlay, Option.or_assoc]

theorem overlay_empty (table : TimerTable) : overlay table (.replicate 2 none) = table := by
  apply ext
  intro timer
  simp [get_overlay]

theorem empty_overlay (table : TimerTable) : overlay (.replicate 2 none) table = table := by
  apply ext
  intro timer
  simp [get_overlay]

theorem set_eq_overlay (table : TimerTable) (timer : TimerOnChip) (value : TimerValue) :
    table.set timer value = overlay table (set (.replicate 2 none) timer value) := by
  apply ext
  intro other
  rw [get_overlay, get_set, get_set]
  by_cases same : other = timer <;> simp [same]

theorem setAll_eq_overlay (resets : List (TimerOnChip × TimerValue)) (table : TimerTable) :
    resets.foldl (fun table (timer, value) => table.set timer value) table =
      overlay table
        (resets.foldl (fun table (timer, value) => table.set timer value) (.replicate 2 none)) := by
  induction resets generalizing table with
  | nil => exact (overlay_empty table).symm
  | cons reset rest ih =>
    obtain ⟨timer, value⟩ := reset
    simp only [List.foldl_cons]
    rw [ih (table.set timer value), ih (set (.replicate 2 none) timer value), ← overlay_assoc,
      ← set_eq_overlay]

end TimerTable

namespace Builder

def Agree (first second : Option ExecutorKind) : Prop :=
  ∀ a b, first = some a → second = some b → a = b

/-- A wait, where there is one, asks for no less than the watermark, where there is one. -/
def Forward (mark wait : Option TimerValue) : Prop :=
  ∀ previous requested, mark = some previous → wait = some requested → previous ≤ requested

structure Fits (b other : Builder) : Prop where
  forward : ∀ timer, Forward (b.watermarks.get timer) (other.leadingWaits.get timer)
  agree : Agree b.restriction other.restriction

def joined (b other : Builder) : Builder where
  instructions := b.instructions ++ other.instructions
  slots := b.slots ++ other.slots
  restriction := b.restriction.or other.restriction
  watermarks := b.watermarks.overlay other.watermarks
  leadingWaits := mergedLeadingWaits b other

theorem get_mergedLeadingWaits (b other : Builder) (timer : TimerOnChip) :
    (mergedLeadingWaits b other).get timer =
      (b.leadingWaits.get timer).or
        (if (b.watermarks.get timer).isSome then none else other.leadingWaits.get timer) := by
  simp [mergedLeadingWaits, TimerTable.get, Site.entry]

theorem backwardWait?_eq_none_iff {watermarks leadingWaits : TimerTable} :
    backwardWait? watermarks leadingWaits = none ↔
      ∀ timer, Forward (watermarks.get timer) (leadingWaits.get timer) := by
  simp only [Forward, backwardWait?, List.findSome?_eq_none_iff, Site.mem_all, forall_const]
  apply forall_congr'
  intro timer
  cases leading : leadingWaits.get timer with
  | none => simp
  | some requested =>
    cases mark : watermarks.get timer with
    | none => simp
    | some previous => simp

theorem restrict_cons (container : String) (existing : Option ExecutorKind) (kind : ExecutorKind)
    (rest : List ExecutorKind) :
    restrict container existing (kind :: rest) =
      match existing with
      | none => restrict container (some kind) rest
      | some other =>
        if other = kind then restrict container (some kind) rest
        else .error (.conflictingRestriction container other kind) := by
  simp only [restrict, List.foldlM_cons]
  cases existing with
  | none => rfl
  | some other => by_cases same : other = kind <;> simp only [same, if_true, if_false] <;> rfl

theorem restrict_some {container : String} {kind : ExecutorKind} {requested : List ExecutorKind}
    {result : Option ExecutorKind}
    (h : restrict container (some kind) requested = .ok result) : result = some kind := by
  induction requested with
  | nil =>
    cases h
    rfl
  | cons next rest ih =>
    rw [restrict_cons] at h
    by_cases same : kind = next
    · subst same
      simp only [if_true] at h
      exact ih h
    · simp only [if_neg same, reduceCtorEq] at h

-- A container's requests must agree among themselves, whatever the restriction so far; then what
-- they come to must agree with it.
theorem restrict_eq_ok_iff {container : String} {existing : Option ExecutorKind}
    {requested : List ExecutorKind} {result : Option ExecutorKind} :
    restrict container existing requested = .ok result ↔
      ∃ own, restrict container none requested = .ok own ∧ Agree existing own ∧
        result = existing.or own := by
  cases requested with
  | nil =>
    simp [restrict, pure, Except.pure, Agree, eq_comm]
  | cons kind rest =>
    simp only [restrict_cons]
    cases existing with
    | none => simp [Agree]
    | some other =>
      constructor
      · intro h
        by_cases same : other = kind
        · subst same
          simp only [if_true] at h
          cases restrict_some h
          exact ⟨some other, h, by simp [Agree], rfl⟩
        · simp only [if_neg same, reduceCtorEq] at h
      · rintro ⟨own, requests, agree, rfl⟩
        cases restrict_some requests
        have same : other = kind := agree other kind rfl rfl
        subst same
        simpa using requests

theorem restrict_toList {container : String} {existing own result : Option ExecutorKind} :
    restrict container existing own.toList = .ok result ↔
      Agree existing own ∧ result = existing.or own := by
  have alone : restrict container none own.toList = .ok own := by cases own <;> rfl
  rw [restrict_eq_ok_iff, alone]
  simp

theorem mergeBack_eq_ok_iff {b other merged : Builder} :
    b.mergeBack other = .ok merged ↔ b.Fits other ∧ merged = b.joined other := by
  unfold mergeBack
  cases backward : backwardWait? b.watermarks other.leadingWaits with
  | some e =>
    simp only [reduceCtorEq, false_iff, not_and]
    intro fits
    rw [backwardWait?_eq_none_iff.2 fits.forward] at backward
    cases backward
  | none =>
    have forward := backwardWait?_eq_none_iff.1 backward
    simp only [bind_eq_ok_iff, restrict_toList, pure, Except.pure, Except.ok.injEq]
    constructor
    · rintro ⟨_, ⟨agree, rfl⟩, rfl⟩
      exact ⟨⟨forward, agree⟩, rfl⟩
    · rintro ⟨fits, rfl⟩
      exact ⟨_, ⟨fits.agree, rfl⟩, rfl⟩

/-! ### The partial monoid -/

/-- A timer with a leading wait has a watermark. -/
def Covered (b : Builder) : Prop :=
  ∀ timer, (b.leadingWaits.get timer).isSome → (b.watermarks.get timer).isSome

theorem covered_of_none {b : Builder} (none : b.leadingWaits = .replicate 2 none) :
    b.Covered := by
  intro timer
  simp [none]

theorem covered_empty : Covered {} :=
  covered_of_none rfl

theorem Covered.joined {b other : Builder} (first : b.Covered) (second : other.Covered) :
    (b.joined other).Covered := by
  intro timer
  have first := first timer
  have second := second timer
  simp only [Builder.joined, get_mergedLeadingWaits, TimerTable.get_overlay]
  cases mark : b.watermarks.get timer with
  | some previous => simp
  | none =>
    simp only [mark, Option.isSome_none, Bool.false_eq_true, imp_false, Bool.not_eq_true,
      Option.isSome_eq_false_iff, Option.isNone_iff_eq_none] at first
    simpa [first] using second

theorem mergedLeadingWaits_of_none {b other : Builder}
    (none : other.leadingWaits = .replicate 2 none) :
    mergedLeadingWaits b other = b.leadingWaits := by
  apply TimerTable.ext
  intro timer
  simp [get_mergedLeadingWaits, none]

theorem joined_empty (b : Builder) : b.joined {} = b := by
  simp only [joined, mergedLeadingWaits_of_none, TimerTable.overlay_empty, List.append_nil,
    Option.or_none]

theorem empty_joined (b : Builder) : joined {} b = b := by
  have leading : mergedLeadingWaits {} b = b.leadingWaits := by
    apply TimerTable.ext
    intro timer
    simp [get_mergedLeadingWaits]
  simp only [joined, leading, TimerTable.empty_overlay, List.nil_append, Option.none_or]

theorem fits_empty (b : Builder) : b.Fits {} where
  forward timer := by simp [Forward]
  agree := by simp [Agree]

theorem empty_fits (b : Builder) : Fits {} b where
  forward timer := by simp [Forward]
  agree := by simp [Agree]

theorem joined_assoc (a b c : Builder) : (a.joined b).joined c = a.joined (b.joined c) := by
  have leading : mergedLeadingWaits (a.joined b) c = mergedLeadingWaits a (b.joined c) := by
    apply TimerTable.ext
    intro timer
    simp only [get_mergedLeadingWaits, joined, TimerTable.get_overlay]
    cases a.watermarks.get timer with
    | some _ => simp
    | none => simp [Option.or_assoc]
  simp only [joined, List.append_assoc, Option.or_assoc, TimerTable.overlay_assoc, mk.injEq,
    true_and]
  exact leading

theorem agree_some_iff {first second : ExecutorKind} :
    Agree (some first) (some second) ↔ first = second := by
  constructor
  · intro agree
    exact agree first second rfl rfl
  · rintro rfl a b ⟨rfl⟩ ⟨rfl⟩
    rfl

theorem agree_assoc {a b c : Option ExecutorKind} :
    Agree a b ∧ Agree (a.or b) c ↔ Agree b c ∧ Agree a (b.or c) := by
  cases b with
  | none => simp [Agree]
  | some kind =>
    cases a with
    | none => simp [Agree]
    | some first =>
      cases c with
      | none => simp [Agree]
      | some last =>
        -- Each side says that the three kinds are one.
        simp only [Option.some_or, agree_some_iff]
        constructor
        · rintro ⟨rfl, same⟩
          exact ⟨same, rfl⟩
        · rintro ⟨same, rfl⟩
          exact ⟨rfl, same⟩

-- Where the middle builder has a watermark, it hides the wait behind it from the first one. Where
-- it has none, it has no leading wait either, and the first one meets that wait itself.
theorem forward_assoc (mark wait : Option TimerValue) {inner lead : Option TimerValue}
    (covered : lead.isSome → inner.isSome) :
    Forward mark lead ∧ Forward (inner.or mark) wait ↔
      Forward inner wait ∧ Forward mark (lead.or (if inner.isSome then none else wait)) := by
  cases inner with
  | some _ => cases lead <;> simp [Forward, and_comm]
  | none =>
    have : lead = none := by simpa using covered
    simp [Forward, this]

theorem fits_assoc {a b c : Builder} (covered : b.Covered) :
    a.Fits b ∧ (a.joined b).Fits c ↔ b.Fits c ∧ a.Fits (b.joined c) := by
  have forward := fun timer => forward_assoc (a.watermarks.get timer) (c.leadingWaits.get timer)
    (covered timer)
  have agree := agree_assoc (a := a.restriction) (b := b.restriction) (c := c.restriction)
  constructor
  · rintro ⟨⟨forwardFirst, agreeFirst⟩, ⟨forwardSecond, agreeSecond⟩⟩
    simp only [joined, TimerTable.get_overlay] at forwardSecond agreeSecond
    have waits := fun timer => (forward timer).1 ⟨forwardFirst timer, forwardSecond timer⟩
    have kinds := agree.1 ⟨agreeFirst, agreeSecond⟩
    refine ⟨⟨fun timer => (waits timer).1, kinds.1⟩, ⟨fun timer => ?_, kinds.2⟩⟩
    simpa only [joined, get_mergedLeadingWaits] using (waits timer).2
  · rintro ⟨⟨forwardLater, agreeLater⟩, ⟨forwardWhole, agreeWhole⟩⟩
    simp only [joined, get_mergedLeadingWaits] at forwardWhole agreeWhole
    have waits := fun timer => (forward timer).2 ⟨forwardLater timer, forwardWhole timer⟩
    have kinds := agree.2 ⟨agreeLater, agreeWhole⟩
    refine ⟨⟨fun timer => (waits timer).1, kinds.1⟩, ⟨fun timer => ?_, kinds.2⟩⟩
    simpa only [joined, TimerTable.get_overlay] using (waits timer).2

theorem mergeBack_assoc {a b c merged : Builder} (covered : b.Covered) :
    (∃ ab, a.mergeBack b = .ok ab ∧ ab.mergeBack c = .ok merged) ↔
      ∃ bc, b.mergeBack c = .ok bc ∧ a.mergeBack bc = .ok merged := by
  simp only [mergeBack_eq_ok_iff]
  constructor
  · rintro ⟨_, ⟨first, rfl⟩, second, rfl⟩
    obtain ⟨later, whole⟩ := (fits_assoc covered).1 ⟨first, second⟩
    exact ⟨_, ⟨later, rfl⟩, whole, joined_assoc a b c⟩
  · rintro ⟨_, ⟨later, rfl⟩, whole, rfl⟩
    obtain ⟨first, second⟩ := (fits_assoc covered).2 ⟨later, whole⟩
    exact ⟨_, ⟨first, rfl⟩, second, (joined_assoc a b c).symm⟩

end Builder

end Playback
