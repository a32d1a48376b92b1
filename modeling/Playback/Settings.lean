import Playback.Backoff
import Playback.Exception
import Playback.Store.Basic

/-! Settings of an executor, as they are stored and as they are used. -/

set_option autoImplicit false

namespace Playback

structure ExecuteOptions where
  limits : BackoffLimits := {}
  /-- A pause before the first look at the board, in nanoseconds. -/
  expectedRuntime : Option Nat := none
  deriving DecidableEq, Repr

/-- Settings in the units in which they are stored. -/
structure Settings where
  minWaitPeriodUs : UInt64 := 50
  maxWaitPeriodUs : UInt64 := 10000
  maxWaitUs : UInt64 := 60000000
  expectedRuntimeUs : Option UInt64 := none
  timeAnnotation : Bool := true
  /-- How often a chip in reset is looked at before a run is given up. -/
  resetAttempts : UInt32 := 3
  resetRetryMs : UInt64 := 1000
  exceptionPolicy : ExceptionPolicy := {}
  deriving DecidableEq, Repr

namespace Settings

def record : Json.RecordCodec Settings where
  members :=
    [.of "min_wait_period_us" minWaitPeriodUs fun minWaitPeriodUs s => { s with minWaitPeriodUs },
      .of "max_wait_period_us" maxWaitPeriodUs fun maxWaitPeriodUs s => { s with maxWaitPeriodUs },
      .of "max_wait_us" maxWaitUs fun maxWaitUs s => { s with maxWaitUs },
      .of "expected_runtime_us" expectedRuntimeUs fun expectedRuntimeUs s =>
        { s with expectedRuntimeUs },
      .of "time_annotation" timeAnnotation fun timeAnnotation s => { s with timeAnnotation },
      .of "reset_attempts" resetAttempts fun resetAttempts s => { s with resetAttempts },
      .of "reset_retry_ms" resetRetryMs fun resetRetryMs s => { s with resetRetryMs },
      .of "exception_policy" exceptionPolicy fun exceptionPolicy s => { s with exceptionPolicy }]
  blank := {}
  optional := true

instance : Codec Settings := record.toCodec

def key : String := "executor"

def executeOptions (settings : Settings) : ExecuteOptions where
  limits :=
    { leastPeriod := Duration.ofMicroseconds settings.minWaitPeriodUs.toNat
      greatestPeriod := Duration.ofMicroseconds settings.maxWaitPeriodUs.toNat
      budget := Duration.ofMicroseconds settings.maxWaitUs.toNat }
  expectedRuntime := settings.expectedRuntimeUs.map fun us => Duration.ofMicroseconds us.toNat

def resetRetry (settings : Settings) : Nat :=
  Duration.ofMilliseconds settings.resetRetryMs.toNat

example : ({} : Settings).executeOptions = {} := by decide

variable {σ : Type} [Store σ]

def load (store : σ) : Except StoreError Settings × σ :=
  Store.loadValueOr {} key store

def save (settings : Settings) (store : σ) : Except StoreError Unit × σ :=
  Store.saveValue key settings store

end Settings

end Playback
