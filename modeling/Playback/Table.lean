/-! Finite tables: one value a key, in the order in which the keys were first given. -/

set_option autoImplicit false

namespace Playback

structure Table (K V : Type) where
  entries : List (K × V) := []
  deriving Repr

namespace Table

variable {K V : Type} [DecidableEq K]

def lookup? (key : K) : List (K × V) → Option V
  | [] => none
  | (other, value) :: rest => if key = other then some value else lookup? key rest

/-- Puts a value in the place of the key's present one, or at the end. -/
def replace (key : K) (value : V) : List (K × V) → List (K × V)
  | [] => [(key, value)]
  | (other, old) :: rest =>
    if key = other then (key, value) :: rest else (other, old) :: replace key value rest

def get? (table : Table K V) (key : K) : Option V :=
  lookup? key table.entries

def insert (table : Table K V) (key : K) (value : V) : Table K V :=
  ⟨replace key value table.entries⟩

/-- The table of these entries; of several with one key the last counts. -/
def ofList (entries : List (K × V)) : Table K V :=
  entries.foldl (fun table (key, value) => table.insert key value) {}

def keys (table : Table K V) : List K :=
  table.entries.map Prod.fst

@[simp] theorem get?_empty (key : K) : (({} : Table K V).get? key) = none := rfl

theorem get?_insert (table : Table K V) (key other : K) (value : V) :
    (table.insert key value).get? other = if other = key then some value else table.get? other := by
  obtain ⟨entries⟩ := table
  simp only [get?, insert]
  induction entries with
  | nil => simp [replace, lookup?]
  | cons entry rest ih =>
    obtain ⟨name, old⟩ := entry
    by_cases same : key = name
    · subst same
      by_cases found : other = key <;> simp [replace, lookup?, found]
    · by_cases found : other = name
      · subst found
        simp [replace, lookup?, same, Ne.symm same]
      · simp [replace, lookup?, same, found, ih]

theorem insert_insert (table : Table K V) (key : K) (first second : V) :
    (table.insert key first).insert key second = table.insert key second := by
  obtain ⟨entries⟩ := table
  simp only [insert, mk.injEq]
  induction entries with
  | nil => simp [replace]
  | cons entry rest ih =>
    obtain ⟨name, old⟩ := entry
    by_cases same : key = name <;> simp [replace, same, ih]

theorem insert_of_get? {table : Table K V} {key : K} {value : V}
    (given : table.get? key = some value) : table.insert key value = table := by
  obtain ⟨entries⟩ := table
  simp only [get?, insert, mk.injEq] at given ⊢
  induction entries with
  | nil => cases given
  | cons entry rest ih =>
    obtain ⟨name, old⟩ := entry
    by_cases same : key = name
    · subst same
      simp only [lookup?, if_true, Option.some.injEq] at given
      simp [replace, given]
    · simp only [lookup?, same, if_false] at given
      simp [replace, same, ih given]

end Table

end Playback
