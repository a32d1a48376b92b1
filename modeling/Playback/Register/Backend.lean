import Playback.Json.Codec

/-! The two register spaces of a chip and the two kinds of executor. -/

set_option autoImplicit false

namespace Playback

/-- A register space with its own path to the chip. -/
inductive Backend where
  /-- The on-chip bus: 32-bit addresses and words. -/
  | omnibus
  /-- The scan chain: 16-bit registers of 64 bits. -/
  | jtag
  deriving DecidableEq, Repr, Inhabited

namespace Backend

def name : Backend → String
  | omnibus => "Omnibus"
  | jtag => "Jtag"

def all : List Backend := [omnibus, jtag]

theorem mem_all (b : Backend) : b ∈ all := by
  cases b <;> simp [all]

def ofName? (name : String) : Option Backend :=
  all.find? fun b => b.name == name

end Backend

instance : Codec Backend where
  encode b := .ofText b.name
  decode := Json.toNamed (Backend.all.map fun b => (b.name, b))

inductive ExecutorKind where
  | hardware
  | simulation
  deriving DecidableEq, Repr, Inhabited

namespace ExecutorKind

def name : ExecutorKind → String
  | hardware => "Hardware"
  | simulation => "Simulation"

def all : List ExecutorKind := [hardware, simulation]

end ExecutorKind

instance : Codec ExecutorKind where
  encode k := .ofText k.name
  decode := Json.toNamed (ExecutorKind.all.map fun k => (k.name, k))

end Playback
