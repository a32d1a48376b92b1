import Mathlib.Data.List.Nodup
import Playback.Json.Codec
import Playback.Proofs.Json.Documents

/-! What a record is read from.

The members of a lawful record can be replaced without touching each other, and together they are
all of it. An object is then read member by member (`Lawful.decode_record_iff`): each member has the
one value that the object gives it, or its value in the blank record where none is given and none is
needed. So neither the order of the entries nor any unknown entry matters.
-/

set_option autoImplicit false

namespace Playback

/-- Codecs that read back what they write, also through a document. -/
class DocumentCodec (α : Type) [Codec α] : Prop extends LawfulCodec α where
  plain : ∀ a : α, (Codec.encode a).Plain

@[simp] theorem Codec.encode_inj {α : Type} [Codec α] [LawfulCodec α] {a b : α} :
    Codec.encode a = Codec.encode b ↔ a = b := by
  constructor
  · intro same
    have both := LawfulCodec.decode_encode a
    rw [same, LawfulCodec.decode_encode b] at both
    exact (Except.ok.inj both).symm
  · exact congrArg Codec.encode

namespace Json

def named (fields : List (String × Json)) : List (Bytes × Json) :=
  fields.map fun (name, json) => (Bytes.ofText name, json)

def values (name : String) (fields : List (String × Json)) : List Json :=
  (fields.filter fun field => field.1 = name).map Prod.snd

section

variable {name : String} {json : Json} {fields : List (String × Json)}

@[simp] theorem values_cons_own :
    values name ((name, json) :: fields) = json :: values name fields := by
  simp [values]

theorem values_cons_other {other : String} (different : other ≠ name) :
    values name ((other, json) :: fields) = values name fields := by
  simp [values, different]

theorem values_eq_nil (absent : name ∉ fields.map Prod.fst) : values name fields = [] := by
  induction fields with
  | nil => rfl
  | cons field rest ih =>
    obtain ⟨other, json⟩ := field
    simp only [List.map_cons, List.mem_cons, not_or] at absent
    rw [values_cons_other (Ne.symm absent.1), ih absent.2]

end

structure Member.Lawful {ρ : Type} (m : Member ρ) : Prop where
  total : ∀ {json : Json} {a b : ρ}, m.put json a = .ok b → ∀ c, ∃ d, m.put json c = .ok d
  /-- Putting a value changes nothing just where the member has it. -/
  put_same_iff : ∀ {json : Json} {a b : ρ}, m.put json a = .ok b →
    ∀ c, m.put json c = .ok c ↔ m.get c = m.get b
  put_get : ∀ a, m.put (m.get a) a = .ok a
  plain : ∀ a, (m.get a).Plain

theorem Member.put_of_eq_ok_iff {ρ α : Type} [Codec α] {name : String} {get : ρ → α}
    {set : α → ρ → ρ} {json : Json} {a b : ρ} :
    (Member.of name get set).put json a = .ok b ↔ ∃ x, Codec.decode json = .ok x ∧ set x a = b := by
  refine bind_eq_ok_iff.trans ?_
  simp [pure, Except.pure]

@[simp] theorem Member.lawful_of {ρ α : Type} [Codec α] [DocumentCodec α] {name : String}
    {get : ρ → α} {set : α → ρ → ρ} (get_set : ∀ x r, get (set x r) = x)
    (set_get : ∀ r, set (get r) r = r) : (Member.of name get set).Lawful where
  total put c := by
    obtain ⟨x, read, -⟩ := put_of_eq_ok_iff.1 put
    exact ⟨set x c, put_of_eq_ok_iff.2 ⟨x, read, rfl⟩⟩
  put_same_iff put c := by
    obtain ⟨x, read, rfl⟩ := put_of_eq_ok_iff.1 put
    refine Iff.trans ?_ Codec.encode_inj.symm
    rw [put_of_eq_ok_iff, get_set]
    constructor
    · rintro ⟨y, again, same⟩
      rw [read] at again
      rw [Except.ok.inj again, ← same, get_set]
    · rintro rfl
      exact ⟨_, read, set_get c⟩
  put_get a := put_of_eq_ok_iff.2 ⟨_, LawfulCodec.decode_encode (get a), set_get a⟩
  plain a := DocumentCodec.plain (get a)

def Member.Spares {ρ : Type} (m other : Member ρ) : Prop :=
  ∀ {json : Json} {a b : ρ}, m.put json a = .ok b → other.get b = other.get a

@[simp] theorem Member.spares_of {ρ α β : Type} [Codec α] [Codec β] {name another : String}
    {get : ρ → α} {set : α → ρ → ρ} {getOther : ρ → β} {setOther : β → ρ → ρ}
    (kept : ∀ x r, getOther (set x r) = getOther r) :
    (Member.of name get set).Spares (Member.of another getOther setOther) := by
  intro json a b put
  obtain ⟨x, -, rfl⟩ := put_of_eq_ok_iff.1 put
  exact congrArg Codec.encode (kept x a)

/-! ### Lawful records -/

namespace RecordCodec

variable {ρ : Type}

/-- A record whose members are all of it and do not touch each other. -/
structure Lawful (codec : RecordCodec ρ) : Prop where
  names : (codec.members.map Member.name).Nodup
  members : ∀ m ∈ codec.members, m.Lawful
  apart : ∀ m ∈ codec.members, ∀ other ∈ codec.members, m.name ≠ other.name → m.Spares other
  ext : ∀ {a b : ρ}, (∀ m ∈ codec.members, m.get a = m.get b) → a = b

/-- What is left to say about a member, once the members of `given` have been read into `start`. -/
def Settles (codec : RecordCodec ρ) (fields : List (String × Json)) (given : List String)
    (start r : ρ) (m : Member ρ) : Prop :=
  if m.name ∈ given then values m.name fields = [] ∧ m.get r = m.get start
  else (codec.optional = true ∧ values m.name fields = [] ∧ m.get r = m.get start) ∨
    ∃ json, values m.name fields = [json] ∧ m.put json r = .ok r

/-- What an object says about a member of the record that is read from it. -/
def Says (codec : RecordCodec ρ) (fields : List (String × Json)) (r : ρ) (m : Member ρ) : Prop :=
  (codec.optional = true ∧ values m.name fields = [] ∧ m.get r = m.get codec.blank) ∨
    ∃ json, values m.name fields = [json] ∧ m.put json r = .ok r

namespace Lawful

variable {codec : RecordCodec ρ} (lawful : codec.Lawful)

include lawful

theorem eq_of_name {m other : Member ρ} (member : m ∈ codec.members)
    (another : other ∈ codec.members) (same : m.name = other.name) : m = other :=
  List.inj_on_of_nodup_map lawful.names member another same

theorem find?_eq {m : Member ρ} (member : m ∈ codec.members) :
    (codec.members.find? fun other => other.name == m.name) = some m := by
  cases found : codec.members.find? fun other => other.name == m.name with
  | none => simpa using List.find?_eq_none.1 found m member
  | some other =>
    have same : other.name = m.name := by simpa using List.find?_some found
    rw [lawful.eq_of_name (List.mem_of_find?_eq_some found) member same]

end Lawful

variable {codec : RecordCodec ρ} {given : List String} {start : ρ} {json : Json}
  {rest : List (Bytes × Json)}

theorem readEntries_unknown {name : String} (unknown : ∀ m ∈ codec.members, m.name ≠ name) :
    codec.readEntries ((Bytes.ofText name, json) :: rest) given start
      = codec.readEntries rest given start := by
  have none : (codec.members.find? fun m => m.name == name) = none :=
    List.find?_eq_none.2 fun m member => by simpa using unknown m member
  simp [readEntries, none]

theorem readEntries_repeated (lawful : codec.Lawful) {m : Member ρ} (member : m ∈ codec.members)
    (repeated : m.name ∈ given) :
    codec.readEntries ((Bytes.ofText m.name, json) :: rest) given start = .error .form := by
  simp [readEntries, lawful.find?_eq member, repeated]

theorem readEntries_fresh (lawful : codec.Lawful) {m : Member ρ} (member : m ∈ codec.members)
    (fresh : m.name ∉ given) :
    codec.readEntries ((Bytes.ofText m.name, json) :: rest) given start
      = m.put json start >>= codec.readEntries rest (m.name :: given) := by
  simp [readEntries, lawful.find?_eq member, fresh]

/-! What an entry leaves to say about the members. -/

variable {fields : List (String × Json)} {r : ρ} {m : Member ρ}

theorem settles_unknown {name : String} (other : m.name ≠ name) :
    codec.Settles ((name, json) :: fields) given start r m
      ↔ codec.Settles fields given start r m := by
  simp only [Settles, values_cons_other (Ne.symm other)]

theorem settles_own (lawful : codec.Lawful) (member : m ∈ codec.members) (fresh : m.name ∉ given)
    {next : ρ} (put : m.put json start = .ok next) :
    codec.Settles ((m.name, json) :: fields) given start r m
      ↔ codec.Settles fields (m.name :: given) next r m := by
  simp only [Settles, fresh, List.mem_cons, true_or, if_true, if_false, values_cons_own,
    List.cons_ne_nil, false_and, and_false, false_or, List.cons.injEq]
  constructor
  · rintro ⟨_, ⟨rfl, nothing⟩, same⟩
    exact ⟨nothing, ((lawful.members m member).put_same_iff put r).1 same⟩
  · rintro ⟨nothing, same⟩
    exact ⟨json, ⟨rfl, nothing⟩, ((lawful.members m member).put_same_iff put r).2 same⟩

theorem settles_other (lawful : codec.Lawful) {own : Member ρ} (member : own ∈ codec.members)
    (another : m ∈ codec.members) (different : m.name ≠ own.name) {next : ρ}
    (put : own.put json start = .ok next) :
    codec.Settles ((own.name, json) :: fields) given start r m
      ↔ codec.Settles fields (own.name :: given) next r m := by
  have kept := lawful.apart own member m another (Ne.symm different) put
  simp only [Settles, values_cons_other (Ne.symm different), List.mem_cons, different, false_or,
    kept]

theorem not_settles_of_given (repeated : m.name ∈ given) :
    ¬codec.Settles ((m.name, json) :: fields) given start r m := by
  simp [Settles, repeated]

theorem not_settles_of_error (lawful : codec.Lawful) (member : m ∈ codec.members)
    (fresh : m.name ∉ given) {fault : Fault} (refused : m.put json start = .error fault) :
    ¬codec.Settles ((m.name, json) :: fields) given start r m := by
  simp only [Settles, fresh, if_false, values_cons_own, List.cons_ne_nil, false_and, and_false,
    false_or, List.cons.injEq]
  rintro ⟨_, ⟨rfl, _⟩, same⟩
  obtain ⟨next, put⟩ := (lawful.members m member).total same start
  rw [refused] at put
  cases put

theorem settles_nil_iff : codec.Settles [] given start r m
    ↔ (codec.optional = true ∨ m.name ∈ given) ∧ m.get r = m.get start := by
  by_cases read : m.name ∈ given <;> simp [Settles, values, read]

theorem Lawful.readEntries_nil_iff (lawful : codec.Lawful) :
    codec.readEntries (named []) given start = .ok r
      ↔ ∀ m ∈ codec.members, codec.Settles [] given start r m := by
  have complete : (codec.optional || codec.members.all fun m => given.contains m.name) = true
      ↔ ∀ m ∈ codec.members, codec.optional = true ∨ m.name ∈ given := by
    cases codec.optional <;> simp
  change (if _ then _ else _) = _ ↔ _
  simp only [settles_nil_iff, complete]
  constructor
  · intro read m member
    split at read
    next whole =>
      cases read
      exact ⟨whole m member, rfl⟩
    next => cases read
  · intro each
    rw [if_pos fun m member => (each m member).1, lawful.ext fun m member => (each m member).2]

theorem Lawful.readEntries_iff (lawful : codec.Lawful) :
    codec.readEntries (named fields) given start = .ok r
      ↔ ∀ m ∈ codec.members, codec.Settles fields given start r m := by
  induction fields generalizing given start with
  | nil => exact lawful.readEntries_nil_iff
  | cons field rest ih =>
    obtain ⟨name, json⟩ := field
    change codec.readEntries ((Bytes.ofText name, json) :: named rest) given start = .ok r ↔ _
    by_cases known : ∃ m ∈ codec.members, m.name = name
    · obtain ⟨m, member, rfl⟩ := known
      by_cases repeated : m.name ∈ given
      · rw [readEntries_repeated lawful member repeated]
        exact iff_of_false nofun fun each => not_settles_of_given repeated (each m member)
      · rw [readEntries_fresh lawful member repeated]
        cases put : m.put json start with
        | error fault =>
          exact iff_of_false nofun
            fun each => not_settles_of_error lawful member repeated put (each m member)
        | ok next =>
          refine Iff.trans ih (forall₂_congr fun other another => ?_)
          by_cases own : other.name = m.name
          · rw [lawful.eq_of_name another member own]
            exact (settles_own lawful member repeated put).symm
          · exact (settles_other lawful member another own put).symm
    · have unknown : ∀ m ∈ codec.members, m.name ≠ name := fun m member same =>
        known ⟨m, member, same⟩
      rw [readEntries_unknown unknown, ih]
      exact forall₂_congr fun m member => (settles_unknown (unknown m member)).symm

-- An object is read member by member.
theorem Lawful.decode_record_iff (lawful : codec.Lawful) :
    codec.decode (Json.record fields) = .ok r ↔ ∀ m ∈ codec.members, codec.Says fields r m := by
  refine Iff.trans lawful.readEntries_iff (forall₂_congr fun m _ => ?_)
  simp [Settles, Says]

theorem says_of_iff {α : Type} [Codec α] [DocumentCodec α] {name : String} {get : ρ → α}
    {set : α → ρ → ρ} (get_set : ∀ x r, get (set x r) = x) (set_get : ∀ r, set (get r) r = r) :
    codec.Says fields r (.of name get set) ↔
      (codec.optional = true ∧ values name fields = [] ∧ get r = get codec.blank) ∨
        ∃ json, values name fields = [json] ∧ Codec.decode json = .ok (get r) := by
  have put_self (json : Json) :
      (Member.of name get set).put json r = .ok r ↔ Codec.decode json = .ok (get r) := by
    rw [Member.put_of_eq_ok_iff]
    constructor
    · rintro ⟨x, read, same⟩
      rw [read, ← same, get_set]
    · exact fun read => ⟨get r, read, set_get r⟩
  exact or_congr (and_congr_right fun _ => and_congr_right fun _ => Codec.encode_inj)
    (exists_congr fun json => and_congr_right fun _ => put_self json)

theorem values_perm {others : List (String × Json)} {names : List String} {name : String}
    (known : name ∈ names) (same : (fields.filter fun field => field.1 ∈ names).Perm
      (others.filter fun field => field.1 ∈ names)) :
    (values name fields).Perm (values name others) := by
  have narrow (list : List (String × Json)) :
      (list.filter fun field => field.1 ∈ names).filter (fun field => field.1 = name)
        = list.filter fun field => field.1 = name := by
    rw [List.filter_filter]
    refine List.filter_congr fun field _ => ?_
    by_cases own : field.1 = name <;> simp [own, known]
  have own := (same.filter fun field => field.1 = name).map Prod.snd
  rwa [narrow, narrow] at own

-- Neither the order of the fields nor the unknown ones matter.
theorem Lawful.decode_record_congr (lawful : codec.Lawful) {others : List (String × Json)}
    (same : ∀ m ∈ codec.members, (values m.name fields).Perm (values m.name others)) :
    codec.decode (Json.record fields) = .ok r ↔ codec.decode (Json.record others) = .ok r := by
  rw [lawful.decode_record_iff, lawful.decode_record_iff]
  refine forall₂_congr fun m member => ?_
  have all := same m member
  have none : values m.name fields = [] ↔ values m.name others = [] := by
    constructor <;> intro absent
    · exact (absent ▸ all).nil_eq.symm
    · exact (absent ▸ all).eq_nil
  have once (json : Json) : values m.name fields = [json] ↔ values m.name others = [json] := by
    constructor <;> intro given
    · exact (given ▸ all).singleton_eq.symm
    · exact (given ▸ all).eq_singleton
  simp only [Says, none, once]

theorem exists_readEntries_rest {bytes : Bytes}
    (read : codec.readEntries ((bytes, json) :: rest) given start = .ok r) :
    ∃ name more next, bytes = Bytes.ofText name ∧ codec.readEntries rest more next = .ok r := by
  simp only [readEntries] at read
  split at read
  next => cases read
  next name isText =>
    refine ⟨name, ?_⟩
    split at read
    next => exact ⟨given, start, Bytes.text?_eq_some_iff.1 isText, read⟩
    next =>
      split at read
      next => cases read
      next =>
        obtain ⟨next, -, after⟩ := bind_eq_ok_iff.1 read
        exact ⟨_, next, Bytes.text?_eq_some_iff.1 isText, after⟩

theorem exists_named_of_readEntries {entries : List (Bytes × Json)}
    (read : codec.readEntries entries given start = .ok r) : ∃ fields, entries = named fields := by
  induction entries generalizing given start with
  | nil => exact ⟨[], rfl⟩
  | cons entry rest ih =>
    obtain ⟨bytes, json⟩ := entry
    obtain ⟨name, more, next, rfl, after⟩ := exists_readEntries_rest read
    obtain ⟨fields, rfl⟩ := ih after
    exact ⟨(name, json) :: fields, rfl⟩

theorem Lawful.exists_put_of_readEntries (lawful : codec.Lawful) (member : m ∈ codec.members)
    {before after : List (Bytes × Json)} (read : codec.readEntries
      (before ++ (Bytes.ofText m.name, json) :: after) given start = .ok r) :
    ∃ a b, m.put json a = .ok b := by
  induction before generalizing given start with
  | nil =>
    by_cases repeated : m.name ∈ given
    · rw [List.nil_append, readEntries_repeated lawful member repeated] at read
      cases read
    · rw [List.nil_append, readEntries_fresh lawful member repeated] at read
      obtain ⟨next, put, -⟩ := bind_eq_ok_iff.1 read
      exact ⟨start, next, put⟩
  | cons entry rest ih =>
    obtain ⟨-, more, next, -, left⟩ := exists_readEntries_rest read
    exact ih left

theorem exists_put_of_readItems {optional : Bool} {members : List (Member ρ)}
    {before after : List Json} (place : members[before.length]? = some m)
    (read : readItems optional members (before ++ json :: after) start = .ok r) :
    ∃ a b, m.put json a = .ok b := by
  induction before generalizing members start with
  | nil =>
    obtain ⟨rest, rfl⟩ : ∃ rest, members = m :: rest := by
      rcases members with _ | ⟨head, rest⟩
      · cases place
      · exact ⟨rest, congrArg (· :: rest) (Option.some.inj place)⟩
    obtain ⟨next, put, -⟩ := bind_eq_ok_iff.1 read
    exact ⟨start, next, put⟩
  | cons item rest ih =>
    rcases members with _ | ⟨head, others⟩
    · cases place
    · obtain ⟨next, -, left⟩ := bind_eq_ok_iff.1 read
      exact ih place left

theorem values_members {members : List (Member ρ)} (names : (members.map Member.name).Nodup)
    (member : m ∈ members) (r : ρ) :
    values m.name (members.map fun other => (other.name, other.get r)) = [m.get r] := by
  induction members with
  | nil => cases member
  | cons head rest ih =>
    rw [List.map_cons, List.nodup_cons] at names
    rw [List.map_cons]
    rcases List.mem_cons.1 member with rfl | later
    · rw [values_cons_own, values_eq_nil]
      simpa [Function.comp_def] using names.1
    · have different : head.name ≠ m.name := fun same =>
        names.1 (same ▸ List.mem_map_of_mem later)
      rw [values_cons_other different, ih names.2 later]

theorem Lawful.documentCodec (lawful : codec.Lawful) : @DocumentCodec ρ codec.toCodec :=
  letI := codec.toCodec
  { decode_encode := fun r => by
      refine lawful.decode_record_iff.2 fun m member => .inr ⟨m.get r, ?_, ?_⟩
      · exact values_members lawful.names member r
      · exact (lawful.members m member).put_get r
    plain := fun r => .object fun entry written => by
      simp only [List.mem_map] at written
      obtain ⟨_, ⟨m, member, rfl⟩, rfl⟩ := written
      exact (lawful.members m member).plain r }

end RecordCodec

end Json

end Playback
