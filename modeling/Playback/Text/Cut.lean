/-! Cutting a list: at the separators in it, and at its ends. -/

set_option autoImplicit false

namespace Playback

variable {α : Type}

def trimWhile (go : α → Bool) (items : List α) : List α :=
  ((items.dropWhile go).reverse.dropWhile go).reverse

variable [DecidableEq α]

/-- What stands between separators; one piece more than there are separators. -/
def cutAt (separator : α) : List α → List (List α)
  | [] => [[]]
  | item :: rest =>
    if item = separator then [] :: cutAt separator rest
    else
      match cutAt separator rest with
      | [] => [[item]]
      | first :: others => (item :: first) :: others

theorem cutAt_ne_nil (separator : α) (items : List α) : cutAt separator items ≠ [] := by
  cases items with
  | nil => simp [cutAt]
  | cons item rest =>
    rw [cutAt]
    split
    · simp
    · split <;> simp

theorem cutAt_append (separator : α) (a b : List α) :
    cutAt separator (a ++ separator :: b) = cutAt separator a ++ cutAt separator b := by
  induction a with
  | nil => simp [cutAt]
  | cons item rest ih =>
    simp only [List.cons_append, cutAt, ih]
    split
    · rfl
    · cases found : cutAt separator rest with
      | nil => exact absurd found (cutAt_ne_nil separator rest)
      | cons first others => rfl

end Playback
