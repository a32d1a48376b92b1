import Mathlib.Data.List.DropRight
import Playback.Text.Cut

/-! Laws of cutting.

A list is cut at each of its separators, so that its pieces have none and give the list back when
they are joined. Trimming finds the one part that starts and ends with items that stay, or no items
at all, and has nothing but items that go before it and behind it.
-/

set_option autoImplicit false

namespace Playback

variable {α : Type}

section Pieces

variable [DecidableEq α]

theorem cutAt_eq_splitOn (separator : α) (items : List α) :
    cutAt separator items = items.splitOn separator := by
  induction items with
  | nil => rfl
  | cons item rest ih =>
    rw [cutAt, ih, List.splitOn_cons_eq_if_modifyHead]
    by_cases same : item = separator
    · simp [same]
    · rw [if_neg same, if_neg (by simpa using same)]
      cases pieces : rest.splitOn separator with
      | nil => exact absurd pieces (List.splitOn_ne_nil _ _)
      | cons first others => rfl

theorem not_mem_of_mem_cutAt {separator : α} {items piece : List α}
    (member : piece ∈ cutAt separator items) : separator ∉ piece := by
  induction items generalizing piece with
  | nil =>
    rw [cutAt, List.mem_singleton] at member
    rw [member]
    exact List.not_mem_nil
  | cons item rest ih =>
    rw [cutAt] at member
    split at member
    next =>
      rcases List.mem_cons.1 member with rfl | later
      · exact List.not_mem_nil
      · exact ih later
    next different =>
      cases pieces : cutAt separator rest with
      | nil => exact absurd pieces (cutAt_ne_nil separator rest)
      | cons first others =>
        rw [pieces] at member ih
        rcases List.mem_cons.1 member with rfl | later
        · rw [List.mem_cons, not_or]
          exact ⟨Ne.symm different, ih List.mem_cons_self⟩
        · exact ih (List.mem_cons_of_mem first later)

theorem intercalate_cutAt (separator : α) (items : List α) :
    [separator].intercalate (cutAt separator items) = items := by
  rw [cutAt_eq_splitOn, List.intercalate_splitOn]

theorem cutAt_intercalate {separator : α} {pieces : List (List α)} (some : pieces ≠ [])
    (whole : ∀ piece ∈ pieces, separator ∉ piece) :
    cutAt separator ([separator].intercalate pieces) = pieces := by
  rw [cutAt_eq_splitOn, List.splitOn_intercalate separator whole some]

end Pieces

section Ends

variable {go : α → Bool} {items inside before behind : List α}

/-- Neither end is an item that is to go. -/
structure Trimmed (go : α → Bool) (items : List α) : Prop where
  first : ∀ item ∈ items.head?, go item = false
  last : ∀ item ∈ items.getLast?, go item = false

theorem dropWhile_of_first (stays : ∀ item ∈ items.head?, go item = false) :
    items.dropWhile go = items := by
  cases items with
  | nil => rfl
  | cons item rest => exact List.dropWhile_cons_of_neg (by simp [stays item rfl])

theorem trimWhile_eq_rdropWhile (go : α → Bool) (items : List α) :
    trimWhile go items = (items.dropWhile go).rdropWhile go :=
  rfl

theorem Trimmed.trimWhile_eq (trimmed : Trimmed go items) : trimWhile go items = items := by
  have reversed : items.reverse.dropWhile go = items.reverse :=
    dropWhile_of_first (by simpa using trimmed.last)
  rw [trimWhile, dropWhile_of_first trimmed.first, reversed, List.reverse_reverse]

theorem trimmed_trimWhile (go : α → Bool) (items : List α) : Trimmed go (trimWhile go items) where
  first item found := by
    obtain ⟨rest, whole⟩ : trimWhile go items <+: items.dropWhile go :=
      List.rdropWhile_prefix go (items.dropWhile go)
    have stays := List.head?_dropWhile_not go items
    rw [← whole, List.head?_append, Option.mem_def.1 found] at stays
    exact stays
  last item found := by
    obtain ⟨left, rfl⟩ := List.mem_getLast?_eq_getLast found
    exact Bool.eq_false_iff.2 (List.rdropWhile_last_not go (items.dropWhile go) left)

theorem exists_trimWhile (go : α → Bool) (items : List α) :
    ∃ before behind, (∀ item ∈ before, go item = true) ∧ (∀ item ∈ behind, go item = true) ∧
      items = before ++ trimWhile go items ++ behind := by
  refine ⟨items.takeWhile go, (items.dropWhile go).rtakeWhile go,
    fun item => List.mem_takeWhile_imp, fun item => List.mem_rtakeWhile_imp, ?_⟩
  rw [trimWhile_eq_rdropWhile, List.append_assoc, List.rdropWhile_append_rtakeWhile,
    List.takeWhile_append_dropWhile]

theorem trimWhile_append (early : ∀ item ∈ before, go item = true)
    (late : ∀ item ∈ behind, go item = true) :
    trimWhile go (before ++ items ++ behind) = trimWhile go items := by
  rw [trimWhile, trimWhile, List.append_assoc, List.dropWhile_append_of_pos early,
    List.dropWhile_append]
  split
  next nothing =>
    rw [List.isEmpty_iff] at nothing
    rw [nothing, List.dropWhile_eq_nil_iff.2 late]
  next =>
    rw [List.reverse_append,
      List.dropWhile_append_of_pos fun item member => late item (List.mem_reverse.1 member)]

theorem trimWhile_eq_iff : trimWhile go items = inside ↔
    Trimmed go inside ∧ ∃ before behind, (∀ item ∈ before, go item = true) ∧
      (∀ item ∈ behind, go item = true) ∧ items = before ++ inside ++ behind := by
  constructor
  · rintro rfl
    exact ⟨trimmed_trimWhile go items, exists_trimWhile go items⟩
  · rintro ⟨trimmed, before, behind, early, late, rfl⟩
    rw [trimWhile_append early late, trimmed.trimWhile_eq]

theorem trimWhile_eq_nil_iff : trimWhile go items = [] ↔ ∀ item ∈ items, go item = true := by
  constructor
  · intro nothing
    obtain ⟨before, behind, early, late, whole⟩ := exists_trimWhile go items
    rw [whole, nothing, List.append_nil]
    exact List.forall_mem_append.2 ⟨early, late⟩
  · intro all
    exact trimWhile_eq_iff.2 ⟨⟨nofun, nofun⟩, items, [], all, nofun, by simp⟩

end Ends

end Playback
