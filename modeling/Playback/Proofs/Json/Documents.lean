import Playback.Proofs.Json.Tokens

/-! Documents read back.

A value without decimals that is written out, on one line or with indents, is read back as it was
(`parse?_render`): its document is cut into the tokens of the value (`cutInto_render`), and from
these tokens the value is built again (`value?_tokens`).
-/

set_option autoImplicit false

namespace Playback.Json

inductive Plain : Json → Prop
  | null : Plain .null
  | bool (b : Bool) : Plain (.bool b)
  | integer (n : Int) : Plain (.integer n)
  | string (content : Bytes) : Plain (.string content)
  | array {items : List Json} : (∀ item ∈ items, Plain item) → Plain (.array items)
  | object {entries : List (Bytes × Json)} :
      (∀ entry ∈ entries, Plain entry.2) → Plain (.object entries)

mutual

def tokens : Json → List Token
  | .null => [.null]
  | .bool b => [.bool b]
  | .integer n => [.integer n]
  | .decimal lexeme => [.decimal lexeme]
  | .string content => [.string content]
  | .array [] => [.leftBracket, .rightBracket]
  | .array (item :: items) =>
    .leftBracket :: (item.tokens ++ itemTokens items ++ [.rightBracket])
  | .object [] => [.leftBrace, .rightBrace]
  | .object ((name, value) :: entries) =>
    .leftBrace :: .string name :: .colon :: (value.tokens ++ entryTokens entries ++ [.rightBrace])

def itemTokens : List Json → List Token
  | [] => []
  | item :: rest => .comma :: (item.tokens ++ itemTokens rest)

def entryTokens : List (Bytes × Json) → List Token
  | [] => []
  | (name, value) :: rest => .comma :: .string name :: .colon :: (value.tokens ++ entryTokens rest)

end

def CutInto (tokens : List Token) (bytes : Bytes) : Prop :=
  ∀ fuel, bytes.length ≤ fuel → tokensWithin fuel bytes = some tokens

section

variable {ahead : List Token} {rest : Bytes}

theorem cutInto_nil : CutInto [] [] :=
  fun fuel _ => by cases fuel <;> rfl

theorem CutInto.blanks (cut : CutInto ahead rest) {blanks : Bytes}
    (all : ∀ b ∈ blanks, isSpace b = true) : CutInto ahead (blanks ++ rest) := by
  intro fuel enough
  have skipped : (blanks ++ rest).dropWhile isSpace = rest.dropWhile isSpace :=
    List.dropWhile_append_of_pos all
  have whole := cut fuel (by simp at enough; omega)
  rw [tokensWithin] at whole ⊢
  rw [skipped]
  exact whole

theorem CutInto.token (cut : CutInto ahead rest) {bytes : Bytes} {token : Token}
    (front : ∀ b ∈ bytes.head?, isSpace b = false)
    (read : token? (bytes ++ rest) = some (token, rest)) (nonempty : bytes ≠ []) :
    CutInto (token :: ahead) (bytes ++ rest) := by
  intro fuel enough
  cases bytes with
  | nil => exact absurd rfl nonempty
  | cons b more =>
    have solid : isSpace b = false := front b rfl
    cases fuel with
    | zero => simp at enough
    | succ fuel =>
      have later := cut fuel (by simp at enough; omega)
      rw [List.cons_append] at read ⊢
      rw [tokensWithin, List.dropWhile_cons_of_neg (by simp [solid])]
      simp [read, later]

theorem CutInto.mark (cut : CutInto ahead rest) {b : UInt8} {token : Token}
    (solid : isSpace b = false) (read : token? (b :: rest) = some (token, rest)) :
    CutInto (token :: ahead) (b :: rest) :=
  have front : ∀ other ∈ [b].head?, isSpace other = false := by simp [solid]
  cut.token front read (List.cons_ne_nil b [])

theorem CutInto.quoted (cut : CutInto ahead rest) (content : Bytes) :
    CutInto (.string content :: ahead) (quoted content ++ rest) :=
  cut.token (by simp [Json.quoted, isSpace]) (token?_quoted content) (by simp [Json.quoted])

end

structure Layout.IsBlank (layout : Layout) : Prop where
  lineBreak : ∀ depth, ∀ b ∈ layout.lineBreak depth, isSpace b = true
  afterColon : ∀ b ∈ layout.afterColon, isSpace b = true

theorem Layout.isBlank_compact : Layout.compact.IsBlank :=
  ⟨fun _ => by simp [compact], by simp [compact]⟩

theorem Layout.isBlank_indented : Layout.indented.IsBlank :=
  ⟨fun _ => by simp [indented, isSpace], by simp [indented, isSpace]⟩

theorem endsNumber_nil : EndsNumber [] := nofun

theorem endsNumber_cons {b : UInt8} (stop : continuesNumber b = false) (rest : Bytes) :
    EndsNumber (b :: rest) := by
  simpa [EndsNumber] using stop

theorem continuesNumber_of_isSpace {b : UInt8} (blank : isSpace b = true) :
    continuesNumber b = false := by
  simp only [isSpace, Bool.or_eq_true, beq_iff_eq] at blank
  rcases blank with ((rfl | rfl) | rfl) | rfl <;> decide

theorem EndsNumber.blanks {rest blanks : Bytes} (ends : EndsNumber rest)
    (all : ∀ b ∈ blanks, isSpace b = true) : EndsNumber (blanks ++ rest) := by
  cases blanks with
  | nil => exact ends
  | cons b more => exact endsNumber_cons (continuesNumber_of_isSpace (all b (by simp))) _

section

variable {layout : Layout} (blank : layout.IsBlank)

/-- The value is cut into its own tokens, whatever solid or blank byte stands behind it. -/
def CutsBack (layout : Layout) (json : Json) : Prop :=
  ∀ (depth : Nat) {rest : Bytes} {ahead : List Token}, EndsNumber rest → CutInto ahead rest →
    CutInto (json.tokens ++ ahead) (render layout depth json ++ rest)

theorem endsNumber_renderItems {rest : Bytes} (ends : EndsNumber rest) (depth : Nat)
    (items : List Json) : EndsNumber (renderItems layout depth items ++ rest) := by
  cases items with
  | nil => exact ends
  | cons item more =>
    simp only [renderItems, List.cons_append]
    exact endsNumber_cons (by decide) _

theorem endsNumber_renderEntries {rest : Bytes} (ends : EndsNumber rest) (depth : Nat)
    (entries : List (Bytes × Json)) : EndsNumber (renderEntries layout depth entries ++ rest) := by
  cases entries with
  | nil => exact ends
  | cons entry more =>
    obtain ⟨name, value⟩ := entry
    simp only [renderEntries, List.cons_append]
    exact endsNumber_cons (by decide) _

include blank

theorem cutInto_renderItems {items : List Json} (each : ∀ item ∈ items, CutsBack layout item)
    (depth : Nat) {rest : Bytes} {ahead : List Token} (ends : EndsNumber rest)
    (cut : CutInto ahead rest) :
    CutInto (itemTokens items ++ ahead) (renderItems layout depth items ++ rest) := by
  induction items with
  | nil => exact cut
  | cons item more ih =>
    have later := ih fun other member => each other (by simp [member])
    have value := each item (by simp) depth (endsNumber_renderItems ends depth more) later
    have broken := value.blanks (blank.lineBreak depth)
    simp only [itemTokens, renderItems, List.cons_append, List.append_assoc]
    exact broken.mark (by decide) rfl

theorem CutInto.named {json : Json} (back : CutsBack layout json) (depth : Nat) {rest : Bytes}
    {ahead : List Token} (ends : EndsNumber rest) (cut : CutInto ahead rest) (name : Bytes) :
    CutInto (.string name :: .colon :: (json.tokens ++ ahead))
      (Json.quoted name ++ 0x3a :: (layout.afterColon ++ (render layout depth json ++ rest))) := by
  have value := (back depth ends cut).blanks blank.afterColon
  exact (value.mark (by decide) rfl).quoted name

theorem cutInto_renderEntries {entries : List (Bytes × Json)}
    (each : ∀ entry ∈ entries, CutsBack layout entry.2) (depth : Nat) {rest : Bytes}
    {ahead : List Token} (ends : EndsNumber rest) (cut : CutInto ahead rest) :
    CutInto (entryTokens entries ++ ahead) (renderEntries layout depth entries ++ rest) := by
  induction entries with
  | nil => exact cut
  | cons entry more ih =>
    obtain ⟨name, value⟩ := entry
    have later := ih fun other member => each other (by simp [member])
    have named := later.named blank (each (name, value) (by simp)) depth
      (endsNumber_renderEntries ends depth more) name
    have broken := named.blanks (blank.lineBreak depth)
    simp only [entryTokens, renderEntries, List.cons_append, List.append_assoc]
    exact broken.mark (by decide) rfl

theorem cutsBack_of_plain {json : Json} (plain : json.Plain) : CutsBack layout json := by
  induction plain with
  | null =>
    intro depth rest ahead _ cut
    rw [render]
    exact cut.token (fun _ first => by cases first; rfl) rfl (by decide)
  | bool b =>
    intro depth rest ahead _ cut
    cases b <;> rw [render] <;>
      exact cut.token (fun _ first => by cases first; rfl) rfl (by decide)
  | integer n =>
    intro depth rest ahead ends cut
    obtain ⟨b, more, shape, opens⟩ := exists_numeral_cons n
    rw [render, ofText_toString]
    refine cut.token ?_ (token?_numeral ends n) (by simp [shape])
    simp [shape, isSpace_of_opens opens]
  | string content => exact fun _ _ _ _ cut => cut.quoted content
  | @array items _ each =>
    intro depth rest ahead ends cut
    cases items with
    | nil => exact (cut.mark (by decide) rfl).mark (by decide) rfl
    | cons item more =>
      have closed := (cut.mark (b := 0x5d) (by decide) rfl).blanks (blank.lineBreak depth)
      have solid := (endsNumber_cons (b := 0x5d) (by decide) rest).blanks (blank.lineBreak depth)
      have later := cutInto_renderItems blank (fun other member => each other (.tail _ member))
        (depth + 1) solid closed
      have value := each item (by simp) (depth + 1)
        (endsNumber_renderItems solid (depth + 1) more) later
      have broken := value.blanks (blank.lineBreak (depth + 1))
      simp only [tokens, render, List.cons_append, List.append_assoc, List.nil_append]
      exact broken.mark (by decide) rfl
  | @object entries _ each =>
    intro depth rest ahead ends cut
    cases entries with
    | nil => exact (cut.mark (by decide) rfl).mark (by decide) rfl
    | cons entry more =>
      obtain ⟨name, value⟩ := entry
      have closed := (cut.mark (b := 0x7d) (by decide) rfl).blanks (blank.lineBreak depth)
      have solid := (endsNumber_cons (b := 0x7d) (by decide) rest).blanks (blank.lineBreak depth)
      have later := cutInto_renderEntries blank (fun other member => each other (.tail _ member))
        (depth + 1) solid closed
      have named := later.named blank (each (name, value) (by simp)) (depth + 1)
        (endsNumber_renderEntries solid (depth + 1) more) name
      have broken := named.blanks (blank.lineBreak (depth + 1))
      simp only [tokens, render, List.cons_append, List.append_assoc, List.nil_append]
      exact broken.mark (by decide) rfl

end

-- So the items of an array, or an empty array, are told apart by the first token.
theorem exists_tokens_cons (json : Json) :
    ∃ token more, json.tokens = token :: more ∧ token ≠ .rightBracket := by
  cases json with
  | array items => cases items <;> simp [tokens]
  | object entries =>
    cases entries with
    | nil => simp [tokens]
    | cons entry more => simp [tokens]
  | _ => simp [tokens]

def BuiltBack (json : Json) : Prop :=
  ∀ (fuel : Nat) (rest : List Token), json.tokens.length ≤ fuel →
    value? fuel (json.tokens ++ rest) = some (json, rest)

theorem items?_itemTokens {item : Json} {items : List Json}
    (each : ∀ other ∈ item :: items, BuiltBack other) {fuel : Nat} {rest : List Token}
    (enough : (item.tokens ++ itemTokens items).length < fuel) :
    items? fuel (item.tokens ++ (itemTokens items ++ .rightBracket :: rest))
      = some (item :: items, rest) := by
  induction items generalizing item fuel with
  | nil =>
    cases fuel with
    | zero => simp at enough
    | succ fuel =>
      have value := each item (by simp) fuel (.rightBracket :: rest) (by simp at enough; omega)
      simp [items?, itemTokens, value]
  | cons next more ih =>
    cases fuel with
    | zero => simp at enough
    | succ fuel =>
      simp only [itemTokens, List.length_append, List.length_cons] at enough
      have later : items? fuel (next.tokens ++ (itemTokens more ++ .rightBracket :: rest))
          = some (next :: more, rest) :=
        ih (fun other member => each other (.tail _ member)) (by simp; omega)
      have value := each item (by simp) fuel
        (.comma :: (next.tokens ++ (itemTokens more ++ .rightBracket :: rest))) (by omega)
      simp only [itemTokens, List.cons_append, List.append_assoc]
      simp [items?, value, later]

theorem entries?_entryTokens {name : Bytes} {value : Json} {entries : List (Bytes × Json)}
    (each : ∀ entry ∈ (name, value) :: entries, BuiltBack entry.2) {fuel : Nat}
    {rest : List Token} (enough : (value.tokens ++ entryTokens entries).length < fuel) :
    entries? fuel (.string name :: .colon :: (value.tokens ++ (entryTokens entries
      ++ .rightBrace :: rest))) = some ((name, value) :: entries, rest) := by
  induction entries generalizing name value fuel with
  | nil =>
    cases fuel with
    | zero => simp at enough
    | succ fuel =>
      have built := each (name, value) (by simp) fuel (.rightBrace :: rest)
        (by simp at enough ⊢; omega)
      simp only at built
      simp [entries?, entryTokens, built]
  | cons next more ih =>
    obtain ⟨other, item⟩ := next
    cases fuel with
    | zero => simp at enough
    | succ fuel =>
      simp only [entryTokens, List.length_append, List.length_cons] at enough
      have later : entries? fuel (.string other :: .colon :: (item.tokens ++ (entryTokens more
          ++ .rightBrace :: rest))) = some ((other, item) :: more, rest) :=
        ih (fun entry member => each entry (.tail _ member)) (by simp; omega)
      have built := each (name, value) (by simp) fuel
        (.comma :: .string other :: .colon :: (item.tokens ++ (entryTokens more
          ++ .rightBrace :: rest))) (by simp; omega)
      simp only at built
      simp only [entryTokens, List.cons_append, List.append_assoc]
      simp [entries?, built, later]

theorem value?_leftBracket {token : Token} (solid : token ≠ .rightBracket) (fuel : Nat)
    (rest : List Token) :
    value? (fuel + 1) (.leftBracket :: token :: rest)
      = (items? fuel (token :: rest)).map fun (items, after) => (.array items, after) := by
  cases token <;> first | exact absurd rfl solid | rfl

theorem value?_leftBrace (name : Bytes) (fuel : Nat) (rest : List Token) :
    value? (fuel + 1) (.leftBrace :: .string name :: rest)
      = (entries? fuel (.string name :: rest)).map fun (entries, after) =>
        (.object entries, after) :=
  rfl

-- No value is without tokens, so something is allowed for.
theorem builtBack_of_succ {json : Json}
    (built : ∀ (fuel : Nat) (rest : List Token), json.tokens.length ≤ fuel + 1 →
      value? (fuel + 1) (json.tokens ++ rest) = some (json, rest)) : BuiltBack json := by
  intro fuel rest enough
  obtain ⟨token, more, shape, _⟩ := exists_tokens_cons json
  cases fuel with
  | zero => simp [shape] at enough
  | succ fuel => exact built fuel rest enough

theorem builtBack_of_plain {json : Json} (plain : json.Plain) : BuiltBack json := by
  induction plain with
  | @array items _ each =>
    refine builtBack_of_succ fun fuel rest enough => ?_
    cases items with
    | nil => rfl
    | cons item more =>
      have built : items? fuel (item.tokens ++ (itemTokens more ++ .rightBracket :: rest))
          = some (item :: more, rest) :=
        items?_itemTokens each (by simp [tokens] at enough ⊢; omega)
      obtain ⟨token, behind, shape, solid⟩ := exists_tokens_cons item
      simp only [tokens, List.cons_append, List.append_assoc, List.nil_append]
      rw [shape, List.cons_append] at built ⊢
      rw [value?_leftBracket solid, built]
      rfl
  | @object entries _ each =>
    refine builtBack_of_succ fun fuel rest enough => ?_
    cases entries with
    | nil => rfl
    | cons entry more =>
      obtain ⟨name, value⟩ := entry
      have built : entries? fuel (.string name :: .colon :: (value.tokens ++ (entryTokens more
          ++ .rightBrace :: rest))) = some ((name, value) :: more, rest) :=
        entries?_entryTokens each (by simp [tokens] at enough ⊢; omega)
      simp only [tokens, List.cons_append, List.append_assoc, List.nil_append]
      rw [value?_leftBrace, built]
      rfl
  | _ => exact builtBack_of_succ fun _ _ _ => rfl

theorem parse?_render {layout : Layout} (blank : layout.IsBlank) {json : Json}
    (plain : json.Plain) (depth : Nat) : parse? (render layout depth json) = some json := by
  have cut : CutInto json.tokens (render layout depth json) := by
    simpa using cutsBack_of_plain blank plain depth endsNumber_nil cutInto_nil
  have built : value? json.tokens.length json.tokens = some (json, []) := by
    simpa using builtBack_of_plain plain json.tokens.length [] (Nat.le_refl _)
  rw [parse?, tokens?, cut _ (Nat.le_refl _), Option.bind_some, ofTokens?, built]

theorem parse?_compact {json : Json} (plain : json.Plain) : parse? (compact json) = some json :=
  parse?_render Layout.isBlank_compact plain 0

theorem parse?_pretty {json : Json} (plain : json.Plain) : parse? (pretty json) = some json :=
  parse?_render Layout.isBlank_indented plain 0

end Playback.Json
