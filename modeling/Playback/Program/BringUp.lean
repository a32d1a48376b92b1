import Playback.Container.Chip
import Playback.Container.Pll
import Playback.Container.Reset
import Playback.Container.Systime
import Playback.Container.Timer
import Playback.Program.Builder

/-! Bringing a chip up.

The sequence asserts and releases the chip's reset, configures the clock generators over the scan
chain, loads the start value of the system time and synchronises board and chip, writes the timing
of the synapse arrays and, if there is one, a full configuration. A settle wait restarts its timer
first, so it lasts as many ticks as it says.
-/

set_option autoImplicit false

namespace Playback

structure BringUp where
  timer : TimerOnChip := .first Nat.zero_lt_two
  resetHold : TimerValue := .ofMicroseconds 10
  resetSettle : TimerValue := .ofMicroseconds 100
  /-- Clock output; without it the sequence runs on a simulation too. -/
  pll : Option PllClockOutput := some default
  systimeBase : SystimeSyncBase := default
  systimeSettle : TimerValue := .ofMicroseconds 10
  synram : CommonSynramConfig := default
  synramBackend : Backend := .jtag
  chip : Option Chip := none

namespace BringUp

/-- The usual sequence for a simulation: without clock configuration. -/
def forSimulation : BringUp :=
  { pll := none }

def settle (timer : TimerOnChip) (ticks : TimerValue) (b : Builder) :
    Except BuildError Builder := do
  let b ← b.write Timer.node timer default none
  b.waitUntil timer ticks

def configureClocks (pll : Option PllClockOutput) (b : Builder) : Except BuildError Builder :=
  match pll with
  | none => .ok b
  | some pll => do
    let b ← (Site.all : List AdpllOnChip).foldlM (fun b adpll =>
      b.write PllClockOutput.node adpll pll none) b
    return b.barrier .jtag

def writeSynrams (config : CommonSynramConfig) (backend : Backend) (b : Builder) :
    Except BuildError Builder :=
  (Site.all : List SynramOnChip).foldlM (fun b synram =>
    b.write CommonSynramConfig.node synram config (some backend)) b

def writeChip (chip : Option Chip) (b : Builder) : Except BuildError Builder :=
  match chip with
  | none => .ok b
  | some chip => b.write Chip.node ⟨⟩ chip none

def build (bringUp : BringUp) : Except BuildError Builder := do
  let b ← Builder.write ResetChip.node ⟨⟩ ⟨true⟩ none {}
  let b ← settle bringUp.timer bringUp.resetHold b
  let b ← b.write ResetChip.node ⟨⟩ ⟨false⟩ none
  let b ← settle bringUp.timer bringUp.resetSettle b
  let b ← configureClocks bringUp.pll b
  let b ← b.write SystimeSyncBase.node ⟨⟩ bringUp.systimeBase none
  let b ← b.write SystimeSync.node ⟨⟩ ⟨true⟩ none
  let b ← settle bringUp.timer bringUp.systimeSettle (b.barrier .systime)
  let b ← writeSynrams bringUp.synram bringUp.synramBackend b
  let b ← writeChip bringUp.chip b
  return b.barrier .all

end BringUp

end Playback
