import Playback.Exception
import Mathlib.Data.BitVec

/-! Exception registers as sets of flags.

Every flag has one bit of the register and the rest is dropped, so a set is known by its flags.
-/

set_option autoImplicit false

namespace Playback

namespace ExceptionFlag

def place : ExceptionFlag → Nat
  | resultReadError => 0
  | resultReadOverflow => 1
  | resultWriteError => 2
  | resultWriteUnderrun => 3
  | playbackReadError => 4
  | playbackReadOverflow => 5
  | playbackWriteError => 6
  | playbackWriteUnderrun => 7
  | programException => 8
  | serdesOverflow => 16
  | serdesPllUnlocked => 17
  | serdesRace => 18
  | encodeOverflow => 20

theorem mask_toBitVec (flag : ExceptionFlag) : flag.mask.toBitVec = BitVec.twoPow 32 flag.place := by
  cases flag <;> rfl

theorem mask_ne_zero (flag : ExceptionFlag) : flag.mask ≠ 0 := by
  cases flag <;> decide

theorem and_mask (raw : UInt32) (flag : ExceptionFlag) :
    raw &&& flag.mask = if raw.toBitVec.getLsbD flag.place then flag.mask else 0 := by
  apply UInt32.toBitVec_inj.1
  rw [UInt32.toBitVec_and, mask_toBitVec, BitVec.and_twoPow]
  split
  · exact flag.mask_toBitVec.symm
  · rfl

theorem and_mask_ne_zero_iff {raw : UInt32} {flag : ExceptionFlag} :
    raw &&& flag.mask ≠ 0 ↔ raw.toBitVec.getLsbD flag.place = true := by
  rw [and_mask]
  split <;> simp [flag.mask_ne_zero, *]

theorem exists_place {i : Nat} (set : allMask.toBitVec.getLsbD i = true) :
    ∃ flag : ExceptionFlag, flag.place = i := by
  have listed : ∀ i : Fin 32, allMask.toBitVec.getLsbD i = true → i.val ∈ all.map place := by
    decide
  obtain ⟨flag, -, here⟩ := List.mem_map.1 (listed ⟨i, BitVec.lt_of_getLsbD set⟩ set)
  exact ⟨flag, here⟩

end ExceptionFlag

namespace ExceptionFlags

variable {flags other : ExceptionFlags} {flag : ExceptionFlag} {raw : UInt32}

theorem has_iff : flags.has flag = true ↔ flags.raw.toBitVec.getLsbD flag.place = true := by
  rw [has, ExceptionFlag.and_mask]
  split <;> simp [flag.mask_ne_zero.symm, *]

theorem has_ofRaw : (ofRaw raw).has flag = true ↔ raw &&& flag.mask ≠ 0 := by
  have documented : ExceptionFlag.allMask.toBitVec.getLsbD flag.place = true := by
    cases flag <;> decide
  simp [has_iff, ExceptionFlag.and_mask_ne_zero_iff, ofRaw, documented]

theorem has_difference :
    (flags.difference other).has flag = true ↔ flags.has flag = true ∧ ¬ other.has flag = true := by
  have small : flag.place < 32 := by cases flag <;> decide
  simp [has_iff, difference, small]

theorem isEmpty_iff : flags.isEmpty = true ↔ ∀ flag, ¬ flags.has flag = true := by
  unfold isEmpty
  rw [beq_iff_eq]
  constructor
  · intro none flag set
    rw [has_iff, none] at set
    simp at set
  · intro none
    apply UInt32.toBitVec_inj.1
    refine BitVec.eq_of_getLsbD_eq fun i _ => ?_
    rw [← flags.raw_and_allMask, UInt32.toBitVec_and, BitVec.getLsbD_and]
    -- A bit that is set is the bit of a flag.
    by_contra set
    have both : flags.raw.toBitVec.getLsbD i = true ∧
        ExceptionFlag.allMask.toBitVec.getLsbD i = true := by simpa using set
    obtain ⟨flag, here⟩ := ExceptionFlag.exists_place both.2
    exact none flag (has_iff.2 (here ▸ both.1))

end ExceptionFlags

theorem ExceptionPolicy.isEmpty_fatal_iff {policy : ExceptionPolicy} {raw : UInt32} :
    (policy.fatal (.ofRaw raw)).isEmpty = true ↔
      ∀ flag : ExceptionFlag, raw &&& flag.mask ≠ 0 → policy.tolerated.has flag = true := by
  rw [ExceptionFlags.isEmpty_iff]
  refine forall_congr' fun flag => ?_
  rw [fatal, ExceptionFlags.has_difference, ExceptionFlags.has_ofRaw, not_and, not_not]

end Playback
