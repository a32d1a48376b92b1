import Mathlib.Data.List.TakeDrop
import Mathlib.Tactic.IntervalCases
import Playback.Json.Parser
import Playback.Json.Printer

/-! How a written document is cut into tokens.

A value that is written out is cut into its own tokens again, in every layout. Blanks between tokens
are passed over, a string ends at its own quote because every other quote in it is escaped, and no
number runs into what stands behind it.
-/

set_option autoImplicit false

namespace Playback

theorem Bytes.ofText_ofList (text : List Char) :
    Bytes.ofText (String.ofList text) = text.flatMap String.utf8EncodeChar := by
  simp [Bytes.ofText, String.toByteArray_ofList, List.utf8Encode]

theorem Bytes.ofText_append (a b : String) : ofText (a ++ b) = ofText a ++ ofText b := by
  simp [ofText]

namespace Json

def digits (n : Nat) : Bytes :=
  (Nat.toDigits 10 n).map Char.toUInt8

section

variable {c : Char} (digit : c.isDigit = true)

include digit

theorem toNat_of_isDigit : 48 ≤ c.toNat ∧ c.toNat ≤ 57 := by
  simpa [Char.isDigit, UInt32.le_iff_toNat_le] using digit

theorem utf8EncodeChar_digit : String.utf8EncodeChar c = [c.toUInt8] := by
  have bounds := toNat_of_isDigit digit
  refine String.utf8EncodeChar_eq_singleton (Char.utf8Size_eq_one_iff.2 ?_)
  rw [UInt32.le_iff_toNat_le]
  exact Nat.le_trans bounds.2 (by decide)

theorem toNat_toUInt8_digit : c.toUInt8.toNat = c.toNat := by
  have bounds := toNat_of_isDigit digit
  change c.val.toUInt8.toNat = c.val.toNat
  rw [UInt32.toNat_toUInt8]
  exact Nat.mod_eq_of_lt (Nat.lt_of_le_of_lt bounds.2 (by decide))

theorem isDigit_toUInt8 : isDigit c.toUInt8 = true := by
  have bounds := toNat_of_isDigit digit
  simp only [isDigit, Bool.and_eq_true, decide_eq_true_eq, UInt8.le_iff_toNat_le,
    toNat_toUInt8_digit digit]
  exact bounds

end

theorem isDigit_of_mem_toDigits {n : Nat} {c : Char} (h : c ∈ Nat.toDigits 10 n) :
    c.isDigit = true :=
  Nat.isDigit_of_mem_toDigits (by decide) (by decide) h

theorem flatMap_utf8EncodeChar_digits {text : List Char} (all : ∀ c ∈ text, c.isDigit = true) :
    text.flatMap String.utf8EncodeChar = text.map Char.toUInt8 := by
  induction text with
  | nil => rfl
  | cons c rest ih =>
    rw [List.flatMap_cons, List.map_cons, utf8EncodeChar_digit (all c List.mem_cons_self),
      ih fun d member => all d (List.mem_cons_of_mem c member)]
    rfl

theorem ofText_repr (n : Nat) : Bytes.ofText n.repr = digits n := by
  rw [Nat.repr, Bytes.ofText_ofList]
  exact flatMap_utf8EncodeChar_digits fun _ => isDigit_of_mem_toDigits

theorem isDigit_of_mem_digits {n : Nat} {b : UInt8} (h : b ∈ digits n) : isDigit b = true := by
  obtain ⟨c, member, rfl⟩ := List.mem_map.1 h
  exact isDigit_toUInt8 (isDigit_of_mem_toDigits member)

theorem digits_ne_nil (n : Nat) : digits n ≠ [] := by
  simp [digits, Nat.toDigits_ne_nil]

theorem foldl_map_toUInt8 {text : List Char} (all : ∀ c ∈ text, c.isDigit = true) (start : Nat) :
    (text.map Char.toUInt8).foldl (fun n d => 10 * n + (d.toNat - 0x30)) start
      = Nat.ofDigitChars 10 text start := by
  induction text generalizing start with
  | nil => rfl
  | cons c rest ih =>
    rw [List.map_cons, List.foldl_cons, toNat_toUInt8_digit (all c List.mem_cons_self),
      ih (fun d member => all d (List.mem_cons_of_mem c member)), Nat.ofDigitChars_cons]
    rfl

theorem digitsValue_digits (n : Nat) : digitsValue (digits n) = n := by
  rw [digitsValue, digits, foldl_map_toUInt8 fun _ => isDigit_of_mem_toDigits]
  exact Nat.ofDigitChars_toDigits (by decide) (by decide)

theorem head?_toDigits_ne_zero {n : Nat} (positive : 0 < n) :
    (Nat.toDigits 10 n).head? ≠ some '0' := by
  induction n using Nat.strongRecOn with
  | ind n ih =>
    by_cases small : n < 10
    · rw [Nat.toDigits_of_lt_base small]
      have : ∀ k < 10, 0 < k → [Nat.digitChar k].head? ≠ some '0' := by decide
      exact this n small positive
    · rw [Nat.toDigits_of_base_le (by decide) (by omega),
        List.head?_append, Option.or_of_isSome (by simp [Nat.toDigits_ne_nil])]
      exact ih (n / 10) (by omega) (by omega)

theorem length_digits_of_head? {n : Nat} (h : (digits n).head? = some 0x30) :
    (digits n).length = 1 := by
  by_cases positive : 0 < n
  · rw [digits, List.head?_map, Option.map_eq_some_iff] at h
    obtain ⟨c, first, value⟩ := h
    have digit : c.isDigit = true := isDigit_of_mem_toDigits (List.mem_of_head? first)
    have zero : c = '0' := by
      have same := congrArg UInt8.toNat value
      rw [toNat_toUInt8_digit digit] at same
      exact Char.toNat_inj.1 same
    exact absurd (zero ▸ first) (head?_toDigits_ne_zero positive)
  · rw [Nat.eq_zero_of_not_pos positive]
    rfl

def numeral : Int → Bytes
  | .ofNat n => digits n
  | .negSucc n => 0x2d :: digits (n + 1)

theorem exists_numeral_cons (n : Int) :
    ∃ b more, numeral n = b :: more ∧ (isDigit b = true ∨ b = 0x2d) := by
  cases n with
  | ofNat n =>
    cases shape : digits n with
    | nil => exact absurd shape (digits_ne_nil n)
    | cons b more =>
      exact ⟨b, more, shape, .inl (isDigit_of_mem_digits (n := n) (by simp [shape]))⟩
  | negSucc n => exact ⟨_, _, rfl, .inr rfl⟩

theorem isSpace_of_opens {b : UInt8} (opens : isDigit b = true ∨ b = 0x2d) : isSpace b = false := by
  cases blank : isSpace b with
  | false => rfl
  | true =>
    simp only [isSpace, Bool.or_eq_true, beq_iff_eq] at blank
    rcases blank with ((rfl | rfl) | rfl) | rfl <;> exact absurd opens (by decide)

theorem ofText_toString (n : Int) : Bytes.ofText (toString n) = numeral n := by
  cases n with
  | ofNat n => exact ofText_repr n
  | negSucc n =>
    change Bytes.ofText ("-" ++ (n + 1).repr) = _
    rw [Bytes.ofText_append, ofText_repr]
    rfl

/-- Whether a number that stands in front of the byte runs on into it. -/
def continuesNumber (b : UInt8) : Bool :=
  isDigit b || ['.', 'e', 'E'].contains (Char.ofUInt8 b)

def EndsNumber (bytes : Bytes) : Prop :=
  ∀ b ∈ bytes.head?, continuesNumber b = false

section

variable {rest : Bytes} (ends : EndsNumber rest)

include ends

theorem EndsNumber.span_digits (n : Nat) :
    (digits n ++ rest).span isDigit = (digits n, rest) := by
  have all : ∀ b ∈ digits n, isDigit b = true := fun _ => isDigit_of_mem_digits
  rw [List.span_eq_takeWhile_dropWhile, List.takeWhile_append_of_pos all,
    List.dropWhile_append_of_pos all]
  cases rest with
  | nil => simp
  | cons b more =>
    have stop := ends b rfl
    simp only [continuesNumber, Bool.or_eq_false_iff] at stop
    simp [stop.1]

theorem EndsNumber.numberPart? {marks : List Char} (known : marks ⊆ ['.', 'e', 'E'])
    (signed : Bool) : numberPart? marks signed rest = some ([], rest) := by
  cases rest with
  | nil => rfl
  | cons b more =>
    have stop := ends b rfl
    simp only [continuesNumber, Bool.or_eq_false_iff] at stop
    have other : Char.ofUInt8 b ∉ marks := fun found => by
      rw [List.contains_iff_mem.2 (known found)] at stop
      exact Bool.noConfusion stop.2
    simp [Json.numberPart?, other]

end

def magnitude? (sign body : Bytes) : Option (Token × Bytes) := do
  let (whole, tail) := body.span isDigit
  if whole.isEmpty || (whole.head? == some 0x30 && whole.length != 1) then none
  let (fraction, tail) ← numberPart? ['.'] false tail
  let (exponent, tail) ← numberPart? ['e', 'E'] true tail
  let value := digitsValue whole
  if fraction.isEmpty && exponent.isEmpty && (sign.isEmpty || value != 0) then
    some (.integer (if sign.isEmpty then value else -value), tail)
  else some (.decimal (sign ++ whole ++ fraction ++ exponent), tail)

theorem number?_minus (body : Bytes) : number? (0x2d :: body) = magnitude? [0x2d] body := rfl

theorem number?_of_ne {b : UInt8} (h : b ≠ 0x2d) (more : Bytes) :
    number? (b :: more) = magnitude? [] (b :: more) := by
  unfold number?
  split
  next sign body found =>
    split at found
    next same => exact absurd (List.cons.inj same).1 h
    next =>
      cases found
      rfl

theorem magnitude?_digits {rest : Bytes} (ends : EndsNumber rest) {sign : Bytes} {n : Nat}
    (plain : sign = [] ∨ n ≠ 0) :
    magnitude? sign (digits n ++ rest)
      = some (.integer (if sign.isEmpty then n else -n), rest) := by
  have leading : ((digits n).isEmpty ||
      ((digits n).head? == some 0x30 && (digits n).length != 1)) = false := by
    by_cases zero : (digits n).head? = some 0x30
    · simp [digits_ne_nil, length_digits_of_head? zero]
    · simp [digits_ne_nil, zero]
  have whole : (sign.isEmpty || n != 0) = true := by
    rcases plain with rfl | nonzero <;> simp_all
  have fraction := ends.numberPart? (show ['.'] ⊆ ['.', 'e', 'E'] by decide) false
  have exponent := ends.numberPart? (show ['e', 'E'] ⊆ ['.', 'e', 'E'] by decide) true
  simp only [magnitude?, ends.span_digits, leading, fraction, exponent, digitsValue_digits, whole,
    Option.bind_eq_bind, Option.bind_some, List.isEmpty_nil, Bool.and_self, Bool.true_and,
    Bool.false_eq_true, ↓reduceIte]

theorem number?_numeral {rest : Bytes} (ends : EndsNumber rest) (n : Int) :
    number? (numeral n ++ rest) = some (.integer n, rest) := by
  cases n with
  | ofNat n =>
    have unsigned : number? (digits n ++ rest) = magnitude? [] (digits n ++ rest) := by
      cases shape : digits n with
      | nil => exact absurd shape (digits_ne_nil n)
      | cons b more =>
        refine number?_of_ne (fun minus => ?_) _
        have digit : isDigit b = true := isDigit_of_mem_digits (n := n) (by simp [shape])
        rw [minus] at digit
        exact absurd digit (by decide)
    rw [numeral, unsigned, magnitude?_digits ends (.inl rfl)]
    rfl
  | negSucc n =>
    rw [numeral, List.cons_append, number?_minus, magnitude?_digits ends (.inr (by omega))]
    rfl

section

variable {rest : Bytes}

theorem pieces?_letter {letter b : UInt8} (short : letter ≠ 0x75)
    (means : escaped? (Char.ofUInt8 letter) = some b) :
    pieces? (0x5c :: letter :: rest)
      = (pieces? rest).map fun (more, tail) => (.byte b :: more, tail) := by
  rw [pieces?]
  · rw [means]
    cases pieces? rest <;> rfl
  · exact fun _ _ _ _ _ same => absurd same short

theorem pieces?_unit {a b c d : UInt8} {u : Nat} (means : hexUnit? a b c d = some u) :
    pieces? (0x5c :: 0x75 :: a :: b :: c :: d :: rest)
      = (pieces? rest).map fun (more, tail) => (.unit u :: more, tail) := by
  rw [pieces?, means]
  cases pieces? rest <;> rfl

theorem pieces?_plain {b : UInt8} (quote : b ≠ 0x22) (escape : b ≠ 0x5c) (printed : ¬b < 0x20) :
    pieces? (b :: rest) = (pieces? rest).map fun (more, tail) => (.byte b :: more, tail) := by
  rw [pieces?, if_neg quote, if_neg printed]
  · cases pieces? rest <;> rfl
  · exact fun _ _ _ _ _ same => absurd same escape
  · exact fun _ _ same => absurd same escape

end

def lettered : List UInt8 := [0x08, 0x09, 0x0a, 0x0c, 0x0d]

def pieceOf (b : UInt8) : Piece :=
  if b < 0x20 ∧ b ∉ lettered then .unit b.toNat else .byte b

theorem escapeByte_control : ∀ i : Fin 32, UInt8.ofNat i ∉ lettered →
    escapeByte (UInt8.ofNat i) = [0x5c, 0x75, 0x30, 0x30, (Nat.digitChar (i / 16)).toUInt8,
      (Nat.digitChar (i % 16)).toUInt8] ∧
    hexUnit? 0x30 0x30 (Nat.digitChar (i / 16)).toUInt8 (Nat.digitChar (i % 16)).toUInt8
      = some i.val := by
  decide +kernel

theorem escapeByte_printed {b : UInt8} (quote : b ≠ 0x22) (escape : b ≠ 0x5c)
    (printed : ¬b < 0x20) : escapeByte b = [b] := by
  unfold escapeByte
  split
  · exact absurd rfl quote
  · exact absurd rfl escape
  iterate 5 exact absurd (by decide) printed
  · exact if_neg printed

theorem pieces?_escapeByte (b : UInt8) (rest : Bytes) :
    pieces? (escapeByte b ++ rest)
      = (pieces? rest).map fun (more, tail) => (pieceOf b :: more, tail) := by
  by_cases control : b < 0x20
  · by_cases letter : b ∈ lettered
    · have piece : pieceOf b = .byte b := if_neg (by simp [letter])
      rw [piece]
      simp only [lettered, List.mem_cons, List.not_mem_nil, or_false] at letter
      rcases letter with rfl | rfl | rfl | rfl | rfl <;> exact pieces?_letter (by decide) rfl
    · obtain ⟨bytes, means⟩ := escapeByte_control ⟨b.toNat, UInt8.lt_iff_toNat_lt.1 control⟩
        (by simpa using letter)
      simp only [UInt8.ofNat_toNat] at bytes means
      rw [bytes, pieceOf, if_pos ⟨control, letter⟩]
      exact pieces?_unit means
  · have piece : pieceOf b = .byte b := if_neg (by simp [control])
    rw [piece]
    by_cases quote : b = 0x22
    · subst quote
      exact pieces?_letter (by decide) rfl
    · by_cases escape : b = 0x5c
      · subst escape
        exact pieces?_letter (by decide) rfl
      · rw [escapeByte_printed quote escape control]
        exact pieces?_plain quote escape control

theorem pieces?_flatMap_escapeByte (content rest : Bytes) :
    pieces? (content.flatMap escapeByte ++ 0x22 :: rest) = some (content.map pieceOf, rest) := by
  induction content with
  | nil => simp [pieces?]
  | cons b more ih => simp [List.append_assoc, pieces?_escapeByte, ih]

-- A control byte is no half of a surrogate pair, so it stands for itself before anything.
theorem pieceBytes_control {u : Nat} (control : u < 0x20) (rest : List Piece) :
    pieceBytes (.unit u :: rest) = UInt8.ofNat u :: pieceBytes rest := by
  have code : codeBytes u = [UInt8.ofNat u] := if_pos (by omega)
  have single : isHighSurrogate u = false := by simp [isHighSurrogate]; omega
  cases rest with
  | nil => simp [pieceBytes, code]
  | cons piece more => cases piece <;> simp [pieceBytes, code, single]

theorem pieceBytes_pieceOf (content : Bytes) : pieceBytes (content.map pieceOf) = content := by
  induction content with
  | nil => rfl
  | cons b rest ih =>
    rw [List.map_cons]
    by_cases control : b < 0x20 ∧ b ∉ lettered
    · rw [show pieceOf b = .unit b.toNat from if_pos control,
        pieceBytes_control (UInt8.lt_iff_toNat_lt.1 control.1), ih, UInt8.ofNat_toNat]
    · rw [show pieceOf b = .byte b from if_neg control, pieceBytes, ih]

section

variable {rest : Bytes}

theorem token?_quoted (content : Bytes) :
    token? (quoted content ++ rest) = some (.string content, rest) := by
  have opened : token? (quoted content ++ rest)
      = (pieces? (content.flatMap escapeByte ++ 0x22 :: rest)).map fun (pieces, after) =>
        (.string (pieceBytes pieces), after) := by
    simp only [quoted, List.append_assoc, List.cons_append, List.nil_append]
    rfl
  rw [opened, pieces?_flatMap_escapeByte]
  exact congrArg (fun content => some (Token.string content, rest)) (pieceBytes_pieceOf content)

theorem token?_of_number {b : UInt8} (opens : isDigit b = true ∨ b = 0x2d) :
    token? (b :: rest) = number? (b :: rest) := by
  have value : b = UInt8.ofNat b.toNat := UInt8.ofNat_toNat.symm
  have range : b.toNat = 0x2d ∨ 0x30 ≤ b.toNat ∧ b.toNat ≤ 0x39 := by
    rcases opens with digit | rfl
    · simp only [isDigit, Bool.and_eq_true, decide_eq_true_eq, UInt8.le_iff_toNat_le] at digit
      exact .inr digit
    · exact .inl rfl
  generalize b.toNat = n at value range
  subst value
  rcases range with rfl | ⟨least, greatest⟩
  · rfl
  · interval_cases n <;> rfl

theorem token?_numeral (ends : EndsNumber rest) (n : Int) :
    token? (numeral n ++ rest) = some (.integer n, rest) := by
  obtain ⟨b, more, shape, opens⟩ := exists_numeral_cons n
  have asNumber : token? (numeral n ++ rest) = number? (numeral n ++ rest) := by
    rw [shape]
    exact token?_of_number opens
  rw [asNumber, number?_numeral ends]

end

end Json

end Playback
