import Playback.BoardList
import Playback.Proofs.Text.Cut

/-! Board lists, read and written.

The entries of a text stand between its commas. They name identifiers in order if they are those
identifiers with blanks around them, with entries of blanks alone in any place. The entries of every
text name just one list of identifiers, which is what is read from it.
-/

set_option autoImplicit false

namespace Playback.BoardList

/-- What an entry can name: a text without commas that neither starts nor ends with a blank. -/
structure IsId (id : String) : Prop where
  named : id ≠ ""
  whole : ',' ∉ id.toList
  trimmed : Trimmed isBlank id.toList

def IsBlankText (text : String) : Prop :=
  ∀ c ∈ text.toList, isBlank c = true

/-- The entries name the identifiers, in order. -/
inductive Names : List String → List String → Prop
  | none : Names [] []
  | blank {entry : String} {entries ids : List String} :
      IsBlankText entry → Names entries ids → Names (entry :: entries) ids
  | id {before id behind : String} {entries ids : List String} :
      IsBlankText before → IsId id → IsBlankText behind → Names entries ids →
        Names ((before ++ id ++ behind) :: entries) (id :: ids)

def idsOf (pieces : List (List Char)) : List String :=
  ((pieces.map trimBlanks).filter fun id => !id.isEmpty).map String.ofList

theorem parse_eq (text : String) : parse text = idsOf (cutAt ',' text.toList) :=
  rfl

theorem idsOf_append (a b : List (List Char)) : idsOf (a ++ b) = idsOf a ++ idsOf b := by
  simp [idsOf]

theorem idsOf_of_blank {piece : List Char} (blank : trimBlanks piece = [])
    (pieces : List (List Char)) : idsOf (piece :: pieces) = idsOf pieces := by
  simp [idsOf, blank]

theorem idsOf_of_named {piece : List Char} (named : trimBlanks piece ≠ [])
    (pieces : List (List Char)) :
    idsOf (piece :: pieces) = String.ofList (trimBlanks piece) :: idsOf pieces := by
  simp [idsOf, named]

theorem comma_not_mem_of_blank {text : String} (blank : IsBlankText text) : ',' ∉ text.toList := by
  intro comma
  exact absurd (blank ',' comma) (by decide)

section Names

variable {entries ids : List String}

theorem Names.comma_not_mem (names : Names entries ids) :
    ∀ entry ∈ entries, ',' ∉ entry.toList := by
  induction names with
  | none => nofun
  | blank blank _ ih => exact List.forall_mem_cons.2 ⟨comma_not_mem_of_blank blank, ih⟩
  | id early name late _ ih =>
    refine List.forall_mem_cons.2 ⟨?_, ih⟩
    simp [comma_not_mem_of_blank early, name.whole, comma_not_mem_of_blank late]

theorem Names.idsOf_eq (names : Names entries ids) :
    idsOf (entries.map String.toList) = ids := by
  induction names with
  | none => rfl
  | @blank entry _ _ blank _ ih =>
    have nothing : trimBlanks entry.toList = [] := trimWhile_eq_nil_iff.2 blank
    rw [List.map_cons, idsOf_of_blank nothing, ih]
  | @id before id behind _ _ early name late _ ih =>
    have inside : trimBlanks (before ++ id ++ behind).toList = id.toList := by
      rw [String.toList_append, String.toList_append]
      exact trimWhile_eq_iff.2 ⟨name.trimmed, _, _, early, late, rfl⟩
    have named : id.toList ≠ [] := by simpa using name.named
    rw [List.map_cons, idsOf_of_named (inside ▸ named), inside, String.ofList_toList, ih]

theorem names_ids (fine : ∀ id ∈ ids, IsId id) : Names ids ids := by
  induction ids with
  | nil => exact .none
  | cons id rest ih =>
    rw [List.forall_mem_cons] at fine
    have nothing : IsBlankText "" := by simp [IsBlankText]
    have named := Names.id nothing fine.1 nothing (ih fine.2)
    rwa [String.empty_append, String.append_empty] at named

theorem Names.isId (names : Names entries ids) : ∀ id ∈ ids, IsId id := by
  induction names with
  | none => nofun
  | blank _ _ ih => exact ih
  | id _ name _ _ ih => exact List.forall_mem_cons.2 ⟨name, ih⟩

theorem parse_intercalate (whole : ∀ entry ∈ entries, ',' ∉ entry.toList) :
    parse (",".intercalate entries) = idsOf (entries.map String.toList) := by
  have joined : (",".intercalate entries).toList = [','].intercalate (entries.map String.toList) :=
    String.toList_intercalate
  rw [parse_eq, joined]
  cases entries with
  | nil => rfl
  | cons entry rest =>
    rw [cutAt_intercalate (by simp) (by simpa using whole)]

end Names

section Piece

variable {piece : List Char}

theorem isId_trimBlanks (whole : ',' ∉ piece) (named : trimBlanks piece ≠ []) :
    IsId (String.ofList (trimBlanks piece)) where
  named := by simpa using named
  whole := by
    obtain ⟨before, behind, -, -, margins⟩ := exists_trimWhile isBlank piece
    rw [String.toList_ofList]
    intro comma
    apply whole
    rw [margins]
    exact List.mem_append_left behind (List.mem_append_right before comma)
  trimmed := by
    rw [String.toList_ofList]
    exact trimmed_trimWhile isBlank piece

theorem isBlankText_ofList (blank : ∀ c ∈ piece, isBlank c = true) :
    IsBlankText (String.ofList piece) := by
  rwa [IsBlankText, String.toList_ofList]

theorem names_pieces {pieces : List (List Char)} (whole : ∀ piece ∈ pieces, ',' ∉ piece) :
    Names (pieces.map String.ofList) (idsOf pieces) := by
  induction pieces with
  | nil => exact .none
  | cons piece rest ih =>
    rw [List.forall_mem_cons] at whole
    rw [List.map_cons]
    by_cases nothing : trimBlanks piece = []
    · rw [idsOf_of_blank nothing]
      exact .blank (isBlankText_ofList (trimWhile_eq_nil_iff.1 nothing)) (ih whole.2)
    · obtain ⟨before, behind, early, late, margins⟩ := exists_trimWhile isBlank piece
      have entry : String.ofList piece =
          String.ofList before ++ String.ofList (trimBlanks piece) ++ String.ofList behind := by
        rw [← String.ofList_append, ← String.ofList_append]
        exact congrArg String.ofList margins
      rw [idsOf_of_named nothing, entry]
      exact .id (isBlankText_ofList early) (isId_trimBlanks whole.1 nothing)
        (isBlankText_ofList late) (ih whole.2)

end Piece

theorem exists_names (text : String) :
    ∃ entries, Names entries (parse text) ∧ text = ",".intercalate entries := by
  refine ⟨(cutAt ',' text.toList).map String.ofList,
    names_pieces fun piece => not_mem_of_mem_cutAt, ?_⟩
  have same : String.toList ∘ String.ofList = id := funext fun _ => String.toList_ofList
  rw [← String.toList_inj, String.toList_intercalate, List.map_map, same, List.map_id]
  exact (intercalate_cutAt ',' text.toList).symm

theorem parse_eq_iff {text : String} {ids : List String} :
    parse text = ids ↔ ∃ entries, Names entries ids ∧ text = ",".intercalate entries := by
  constructor
  · rintro rfl
    exact exists_names text
  · rintro ⟨entries, names, rfl⟩
    rw [parse_intercalate names.comma_not_mem, names.idsOf_eq]

theorem parse_append (a b : String) : parse (a ++ "," ++ b) = parse a ++ parse b := by
  have pieces : (a ++ "," ++ b).toList = a.toList ++ ',' :: b.toList := by simp
  rw [parse_eq, pieces, cutAt_append, idsOf_append, parse_eq, parse_eq]

-- Lists that are joined are read one after the other. What is read from a text are identifiers, and
-- it is read as some identifiers exactly if its entries name them, so that identifiers come back
-- from their join whatever blanks and blank entries are added.
theorem lists_joined :
    (∀ a b, parse (a ++ "," ++ b) = parse a ++ parse b) ∧
    (∀ text, ∀ id ∈ parse text, IsId id) ∧
    (∀ text ids, parse text = ids ↔
      ∃ entries, Names entries ids ∧ text = ",".intercalate entries) ∧
    (∀ ids, parse (",".intercalate ids) = ids ↔ ∀ id ∈ ids, IsId id) ∧
    ∀ text, parse (",".intercalate (parse text)) = parse text := by
  have each (text : String) : ∀ id ∈ parse text, IsId id := by
    obtain ⟨entries, names, -⟩ := exists_names text
    exact names.isId
  have plain {ids : List String} (fine : ∀ id ∈ ids, IsId id) :
      parse (",".intercalate ids) = ids :=
    parse_eq_iff.2 ⟨ids, names_ids fine, rfl⟩
  refine ⟨parse_append, each, fun text ids => parse_eq_iff, fun ids => ⟨fun same => ?_, plain⟩,
    fun text => plain (each text)⟩
  rw [← same]
  exact each _

-- The second entry is an em space; the one inside an identifier stays.
example : parse " B201 ,\u2003,B2 03,," = ["B201", "B2 03"] := by
  decide +kernel

end Playback.BoardList
