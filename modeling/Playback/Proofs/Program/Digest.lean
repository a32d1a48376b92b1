import Playback.Program.Digest

/-! What the digest of a program covers.

The bytes that are hashed hold records one after another, without lengths or separators. The kind
byte of a record fixes the widths of its operands, so a record ends in one place only and the bytes
determine the stream. Programs that differ in stream or restriction therefore share a digest only if
the checksum takes two different byte strings to one.
-/

set_option autoImplicit false

namespace Playback

namespace Bytes

/-- Whatever follows the bytes of a value, the value can be told and so can what follows. -/
def PrefixFree {α : Type} (write : α → Bytes) : Prop :=
  ∀ (a b : α) (rest others : Bytes), write a ++ rest = write b ++ others → a = b ∧ rest = others

section PrefixFree

variable {α β : Type} {write : α → Bytes}

theorem prefixFree_little {n : Nat} {number : α → Nat} (small : ∀ a, number a < capacity n)
    (distinct : ∀ a b, number a = number b → a = b) :
    PrefixFree fun a => little n (number a) := by
  intro a b rest others same
  have widths : (little n (number a)).length = (little n (number b)).length := by simp
  obtain ⟨fields, behind⟩ := List.append_inj same widths
  have numbers := congrArg littleValue fields
  rw [littleValue_little, littleValue_little, Nat.mod_eq_of_lt (small a),
    Nat.mod_eq_of_lt (small b)] at numbers
  exact ⟨distinct a b numbers, behind⟩

theorem PrefixFree.pair {second : β → Bytes} (free : PrefixFree write)
    (later : PrefixFree second) : PrefixFree fun both : α × β => write both.1 ++ second both.2 := by
  rintro ⟨a, b⟩ ⟨c, d⟩ rest others same
  dsimp only at same
  rw [List.append_assoc, List.append_assoc] at same
  obtain ⟨rfl, behind⟩ := free a c _ _ same
  obtain ⟨rfl, rfl⟩ := later b d _ _ behind
  exact ⟨rfl, rfl⟩

-- So values in a row can be told apart, if none of them is without bytes.
theorem PrefixFree.flatMap_inj (free : PrefixFree write) (nonempty : ∀ a, write a ≠ [])
    {first second : List α} (same : first.flatMap write = second.flatMap write) :
    first = second := by
  induction first generalizing second with
  | nil =>
    cases second with
    | nil => rfl
    | cons a rest => simp [nonempty] at same
  | cons a rest ih =>
    cases second with
    | nil => simp [nonempty] at same
    | cons b others =>
      rw [List.flatMap_cons, List.flatMap_cons] at same
      obtain ⟨rfl, behind⟩ := free a b _ _ same
      exact congrArg (a :: ·) (ih behind)

end PrefixFree

theorem prefixFree_word16 : PrefixFree fun word : UInt16 => little 2 word.toNat :=
  prefixFree_little UInt16.toNat_lt fun _ _ => UInt16.toNat_inj.1

theorem prefixFree_word32 : PrefixFree fun word : UInt32 => little 4 word.toNat :=
  prefixFree_little UInt32.toNat_lt fun _ _ => UInt32.toNat_inj.1

theorem prefixFree_word64 : PrefixFree fun word : UInt64 => little 8 word.toNat :=
  prefixFree_little UInt64.toNat_lt fun _ _ => UInt64.toNat_inj.1

theorem prefixFree_timer : PrefixFree fun timer : TimerOnChip => little 2 timer.index :=
  prefixFree_little (fun timer => Nat.lt_trans timer.index_lt (by decide))
    fun _ _ => Site.index_inj.1

end Bytes

theorem Barrier.mask_inj {first second : Barrier} (same : first.mask = second.mask) :
    first = second := by
  have found := congrArg ofMask? same
  rw [ofMask?_mask, ofMask?_mask] at found
  exact Option.some.inj found

namespace Instruction

open Bytes

theorem prefixFree_content : PrefixFree content := by
  intro first second rest others same
  -- Each kind has a kind byte of its own, so both records have operands of the same kind.
  rcases first with (⟨a, w⟩ | ⟨r, w⟩) | (a | r) | ⟨timer, value⟩ | kind <;>
    rcases second with (⟨b, v⟩ | ⟨s, v⟩) | (b | s) | ⟨other, ticks⟩ | also <;>
    obtain ⟨kinds, operands⟩ := List.cons.inj same <;>
    try exact absurd kinds (by decide)
  case write.omnibus.write.omnibus =>
    have fields := prefixFree_word32.pair prefixFree_word32
    obtain ⟨pairs, rfl⟩ := fields (a, w) (b, v) rest others operands
    cases pairs
    exact ⟨rfl, rfl⟩
  case write.jtag.write.jtag =>
    have fields := prefixFree_word16.pair prefixFree_word64
    obtain ⟨pairs, rfl⟩ := fields (r, w) (s, v) rest others operands
    cases pairs
    exact ⟨rfl, rfl⟩
  case read.omnibus.read.omnibus =>
    obtain ⟨rfl, rfl⟩ := prefixFree_word32 a b rest others operands
    exact ⟨rfl, rfl⟩
  case read.jtag.read.jtag =>
    obtain ⟨rfl, rfl⟩ := prefixFree_word16 r s rest others operands
    exact ⟨rfl, rfl⟩
  case wait.wait =>
    have fields := prefixFree_timer.pair prefixFree_word32
    obtain ⟨pairs, rfl⟩ := fields (timer, value) (other, ticks) rest others operands
    cases pairs
    exact ⟨rfl, rfl⟩
  case barrier.barrier =>
    obtain ⟨masks, rfl⟩ := List.cons.inj operands
    exact ⟨congrArg barrier (Barrier.mask_inj masks), rfl⟩

theorem content_ne_nil (instruction : Instruction) : instruction.content ≠ [] := by
  rcases instruction with (⟨a, w⟩ | ⟨r, w⟩) | (a | r) | ⟨timer, value⟩ | kind <;>
    exact List.cons_ne_nil _ _

end Instruction

namespace Program

theorem restrictionByte_inj {first second : Option ExecutorKind}
    (same : restrictionByte first = restrictionByte second) : first = second := by
  revert same
  rcases first with _ | _ | _ <;> rcases second with _ | _ | _ <;> decide

-- The mark and the count have fixed widths; the records need no count to be told apart.
theorem content_inj {first second : List Instruction} {restriction other : Option ExecutorKind}
    (same : content first restriction = content second other) :
    first = second ∧ restriction = other := by
  obtain ⟨bytes, counted⟩ := List.cons.inj (List.append_cancel_left same)
  have widths : (Bytes.little 8 first.length).length = (Bytes.little 8 second.length).length := by
    simp
  have records := (List.append_inj counted widths).2
  exact ⟨Instruction.prefixFree_content.flatMap_inj Instruction.content_ne_nil records,
    restrictionByte_inj bytes⟩

/-- The bytes of which the digest of a program is the checksum. -/
def covered (program : Program) : Bytes :=
  content program.instructions program.restriction

-- Of two programs, whatever their identities, slots and results, the same bytes are hashed exactly
-- if they have the same stream and the same restriction. So programs that differ in either share a
-- digest exactly if their bytes are a collision of the checksum.
theorem digest_covers_content (first second : Program) :
    (first.covered = second.covered ↔
      first.instructions = second.instructions ∧ first.restriction = second.restriction) ∧
    (first.digest = second.digest ↔
      (first.instructions = second.instructions ∧ first.restriction = second.restriction) ∨
      (first.covered ≠ second.covered ∧
        Blake3.hash first.covered = Blake3.hash second.covered)) := by
  have covers : first.covered = second.covered ↔
      first.instructions = second.instructions ∧ first.restriction = second.restriction := by
    constructor
    · exact content_inj
    · rintro ⟨instructions, restriction⟩
      rw [covered, covered, instructions, restriction]
  refine ⟨covers, ?_⟩
  change Blake3.hash first.covered = Blake3.hash second.covered ↔ _
  rw [← covers]
  constructor
  · intro digests
    by_cases equal : first.covered = second.covered
    · exact .inl equal
    · exact .inr ⟨equal, digests⟩
  · rintro (equal | ⟨-, collide⟩)
    · rw [equal]
    · exact collide

end Program

end Playback
