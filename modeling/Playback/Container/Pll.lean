import Playback.Container.Tree

/-! The clock output of a digital clock generator.

It is reached through the scan chain alone and means something only on a physical board, so a
program that touches it is restricted to hardware.
-/

set_option autoImplicit false

namespace Playback

abbrev PllDivider := Field "PllDivider" 8 1 31

structure PllClockOutput where
  enableOutput : Bool
  /-- Whether the clock comes from the generator and not from the bypass. -/
  switchToAdpll : Bool
  divider : PllDivider
  deriving DecidableEq, Repr

namespace PllClockOutput

instance : Inhabited PllClockOutput := ⟨⟨true, true, Field.saturate 2⟩⟩

def addresses (adpll : AdpllOnChip) : List Address :=
  [.ofNat .jtag (0x20 + adpll.index)]

/-- The register: bit 0, bit 1 and bits 2 to 6. -/
def pack (output : PllClockOutput) : Nat :=
  output.enableOutput.toNat + output.switchToAdpll.toNat <<< 1 + output.divider.value <<< 2

def unpack (raw : Nat) : Except DecodeError PllClockOutput := do
  let divider ← checked "PllClockOutput" (Field.ofNat (bits raw 2 5))
  return { enableOutput := bit raw 0, switchToAdpll := bit raw 1, divider }

def leaf : Leaf AdpllOnChip PllClockOutput where
  name := "PllClockOutput"
  supported := [.jtag]
  defaultBackend := .jtag
  writeWords := 1
  readWords := 1
  restriction := some .hardware
  writeAddresses adpll _ := addresses adpll
  readAddresses adpll _ := addresses adpll
  encode output backend := wordsOf backend [output.pack]
  decode backend words _ := do
    unpack (← rawWord "PllClockOutput" backend words)

def node : Node AdpllOnChip PllClockOutput := leaf.node default

def record : Json.RecordCodec PllClockOutput where
  members :=
    [.of "enable_output" enableOutput fun enableOutput output => { output with enableOutput },
      .of "switch_to_adpll" switchToAdpll fun switchToAdpll output => { output with switchToAdpll },
      .of "divider" divider fun divider output => { output with divider }]
  blank := default
  optional := false

end PllClockOutput

instance : Codec PllClockOutput := PllClockOutput.record.toCodec

end Playback
