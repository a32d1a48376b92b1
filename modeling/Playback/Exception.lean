import Playback.Json.Codec

/-! The exception register of a board, and the policy that says which of its flags fail a run.

Register bits without a flag are dropped, so two sets are equal when they hold the same flags.
-/

set_option autoImplicit false

namespace Playback

inductive ExceptionFlag where
  | resultReadError
  | resultReadOverflow
  | resultWriteError
  | resultWriteUnderrun
  | playbackReadError
  | playbackReadOverflow
  | playbackWriteError
  | playbackWriteUnderrun
  | programException
  | serdesOverflow
  | serdesPllUnlocked
  | serdesRace
  | encodeOverflow
  deriving DecidableEq, Repr

namespace ExceptionFlag

def all : List ExceptionFlag :=
  [resultReadError, resultReadOverflow, resultWriteError, resultWriteUnderrun, playbackReadError,
    playbackReadOverflow, playbackWriteError, playbackWriteUnderrun, programException,
    serdesOverflow, serdesPllUnlocked, serdesRace, encodeOverflow]

def name : ExceptionFlag → String
  | resultReadError => "result_read_error"
  | resultReadOverflow => "result_read_overflow"
  | resultWriteError => "result_write_error"
  | resultWriteUnderrun => "result_write_underrun"
  | playbackReadError => "playback_read_error"
  | playbackReadOverflow => "playback_read_overflow"
  | playbackWriteError => "playback_write_error"
  | playbackWriteUnderrun => "playback_write_underrun"
  | programException => "program_exception"
  | serdesOverflow => "serdes_overflow"
  | serdesPllUnlocked => "serdes_pll_unlocked"
  | serdesRace => "serdes_race"
  | encodeOverflow => "encode_overflow"

def mask : ExceptionFlag → UInt32
  | resultReadError => 0x000001
  | resultReadOverflow => 0x000002
  | resultWriteError => 0x000004
  | resultWriteUnderrun => 0x000008
  | playbackReadError => 0x000010
  | playbackReadOverflow => 0x000020
  | playbackWriteError => 0x000040
  | playbackWriteUnderrun => 0x000080
  | programException => 0x000100
  | serdesOverflow => 0x010000
  | serdesPllUnlocked => 0x020000
  | serdesRace => 0x040000
  | encodeOverflow => 0x100000

def allMask : UInt32 := 0x1701ff

example : all.foldr (fun flag rest => flag.mask ||| rest) 0 = allMask := rfl

theorem mask_and_allMask (flag : ExceptionFlag) : flag.mask &&& allMask = flag.mask := by
  cases flag <;> rfl

end ExceptionFlag

/-- A set of exception flags, as the register holds it. -/
structure ExceptionFlags where
  raw : UInt32
  raw_and_allMask : raw &&& ExceptionFlag.allMask = raw
  deriving DecidableEq, Repr

namespace ExceptionFlags

def ofRaw (raw : UInt32) : ExceptionFlags :=
  ⟨raw &&& ExceptionFlag.allMask, by rw [UInt32.and_assoc, UInt32.and_self]⟩

def empty : ExceptionFlags :=
  ⟨0, rfl⟩

def only (flag : ExceptionFlag) : ExceptionFlags :=
  ⟨flag.mask, flag.mask_and_allMask⟩

def isEmpty (flags : ExceptionFlags) : Bool :=
  flags.raw == 0

def has (flags : ExceptionFlags) (flag : ExceptionFlag) : Bool :=
  flags.raw &&& flag.mask == flag.mask

def contains (flags other : ExceptionFlags) : Bool :=
  flags.raw &&& other.raw == other.raw

def difference (flags other : ExceptionFlags) : ExceptionFlags :=
  ⟨flags.raw &&& ~~~other.raw, by
    rw [UInt32.and_assoc, UInt32.and_comm (~~~other.raw), ← UInt32.and_assoc,
      flags.raw_and_allMask]⟩

def union (flags other : ExceptionFlags) : ExceptionFlags :=
  ⟨flags.raw ||| other.raw, by
    have spread : (flags.raw ||| other.raw) &&& ExceptionFlag.allMask
        = flags.raw &&& ExceptionFlag.allMask ||| other.raw &&& ExceptionFlag.allMask :=
      UInt32.toBitVec_inj.1 BitVec.and_or_distrib_right
    rw [spread, flags.raw_and_allMask, other.raw_and_allMask]⟩

def toList (flags : ExceptionFlags) : List ExceptionFlag :=
  ExceptionFlag.all.filter flags.has

def text (flags : ExceptionFlags) : String :=
  if flags.isEmpty then "none" else "|".intercalate (flags.toList.map ExceptionFlag.name)

end ExceptionFlags

/-- Which flags fail a run. -/
structure ExceptionPolicy where
  tolerateSerdesOverflow : Bool := true
  deriving DecidableEq, Repr

namespace ExceptionPolicy

def strict : ExceptionPolicy :=
  { tolerateSerdesOverflow := false }

def tolerated (policy : ExceptionPolicy) : ExceptionFlags :=
  if policy.tolerateSerdesOverflow then .only .serdesOverflow else .empty

def fatal (policy : ExceptionPolicy) (flags : ExceptionFlags) : ExceptionFlags :=
  flags.difference policy.tolerated

def record : Json.RecordCodec ExceptionPolicy where
  members :=
    [.of "tolerate_serdes_overflow" tolerateSerdesOverflow fun tolerateSerdesOverflow policy =>
      { policy with tolerateSerdesOverflow }]
  blank := {}
  optional := true

end ExceptionPolicy

instance : Codec ExceptionPolicy := ExceptionPolicy.record.toCodec

end Playback
