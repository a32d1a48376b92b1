import Playback.Container.Catalogue

/-! Values that are decoded in place.

A register writes what it decodes into the value that it is given, field by field, and an error
leaves the value as the steps before it left it. Every register checks first and assigns then. So
decoding in place either fails and has changed nothing, or gives the decoded value
(`LeafKind.settles_overwrite`).
-/

set_option autoImplicit false

namespace Playback

abbrev Overwrite (V α : Type) := ExceptT DecodeError (StateM V) α

namespace Overwrite

variable {V α : Type}

def on (steps : Overwrite V α) (value : V) : Except DecodeError α × V :=
  steps.run.run value

def check (checked : Except DecodeError α) : Overwrite V α :=
  MonadExcept.ofExcept checked

def settle (value : V) : Except DecodeError V → Except DecodeError Unit × V
  | .ok next => (.ok (), next)
  | .error e => (.error e, value)

def Assigns (steps : Overwrite V Unit) (change : V → V) : Prop :=
  ∀ value, steps.on value = (.ok (), change value)

theorem assigns_pure : Assigns (V := V) (pure ()) fun value => value :=
  fun _ => rfl

theorem assigns_modify (change : V → V) : Assigns (modify change) change :=
  fun _ => rfl

theorem Assigns.behind {steps : Overwrite V Unit} {later : V → V} (assigns : Assigns steps later)
    (change : V → V) :
    Assigns (modify change >>= fun _ => steps) fun value => later (change value) :=
  fun value => assigns (change value)

/-- The steps do at once what a decoder does: whatever fails has changed nothing. -/
def Settles (steps : Overwrite V Unit) (decode : V → Except DecodeError V) : Prop :=
  ∀ value, steps.on value = settle value (decode value)

theorem Assigns.settles {steps : Overwrite V Unit} {change : V → V}
    (assigns : Assigns steps change) : Settles steps fun value => .ok (change value) :=
  assigns

theorem settles_throw (e : DecodeError) : Settles (V := V) (throw e) fun _ => .error e :=
  fun _ => rfl

theorem Settles.ite {first second : Overwrite V Unit} {f g : V → Except DecodeError V} (c : Prop)
    [Decidable c] (yes : Settles first f) (no : Settles second g) :
    Settles (if c then first else second) fun value => if c then f value else g value := by
  intro value
  by_cases holds : c
  · simpa only [if_pos holds] using yes value
  · simpa only [if_neg holds] using no value

theorem settles_check {checked : Except DecodeError α} {next : α → Overwrite V Unit}
    {decode : α → V → Except DecodeError V} (settles : ∀ a, Settles (next a) (decode a)) :
    Settles (check checked >>= next) fun value => checked >>= fun a => decode a value := by
  intro value
  cases checked with
  | error e => rfl
  | ok a => exact settles a value

theorem settles_whole {checked : Except DecodeError V} :
    Settles (check checked >>= fun whole => modify fun _ => whole) fun _ => checked := by
  intro value
  cases checked <;> rfl

end Overwrite

open Overwrite

def Overwrite.keep {V : Type} (container : String) (backend : Backend) (words : List Word) :
    Overwrite V Unit := do
  let _ ← check (rawWords container 0 backend words)
  return ()

theorem Overwrite.settles_keep {V : Type} (container : String) (backend : Backend)
    (words : List Word) : Settles (V := V) (keep container backend words)
      (keepValue container backend words) :=
  settles_check fun _ => assigns_pure.settles

def Timer.overwrite (backend : Backend) (words : List Word) : Overwrite Timer Unit := do
  let raw ← check (rawWord "Timer" backend words)
  modify fun timer => { timer with value := UInt32.ofNat raw }

def SystimeSyncBase.overwrite (backend : Backend) (words : List Word) :
    Overwrite SystimeSyncBase Unit := do
  let raw ← check (rawWords "SystimeSyncBase" 2 backend words)
  let low := raw.get ⟨0, Nat.zero_lt_two⟩
  let high := raw.get ⟨1, Nat.one_lt_two⟩
  let value ← check
    (checked "SystimeSyncBase" (Field.ofNat (bits low 0 32 + bits high 0 11 <<< 32)))
  modify fun base => { base with value }

def CommonSynramConfig.overwrite (backend : Backend) (words : List Word) :
    Overwrite CommonSynramConfig Unit := do
  let raw ← check (rawWords "CommonSynramConfig" 3 backend words)
  let whole ← check (unpack raw)
  modify fun _ => whole

def SynapseQuad.overwrite (backend : Backend) (words : List Word) :
    Overwrite SynapseQuad Unit := do
  let raw ← check (rawWords "SynapseQuad" 2 backend words)
  let whole ← check (unpack raw)
  modify fun _ => whole

def NeuronConfig.overwrite (backend : Backend) (words : List Word) :
    Overwrite NeuronConfig Unit := do
  let raw ← check (rawWord "NeuronConfig" backend words)
  if raw >>> 20 ≠ 0 then
    throw (.invalidValue "NeuronConfig" s!"reserved bits set in {Numeral.hex 0 raw}")
  else
    let threshold ← check (checked "NeuronConfig" (Field.ofNat (bits raw 1 10)))
    modify fun config => { config with enableFire := bit raw 0 }
    modify fun config => { config with threshold }
    modify fun config => { config with refractoryTime := UInt8.ofNat (bits raw 11 8) }
    modify fun config => { config with enableBypass := bit raw 19 }

def PllClockOutput.overwrite (backend : Backend) (words : List Word) :
    Overwrite PllClockOutput Unit := do
  let raw ← check (rawWord "PllClockOutput" backend words)
  let divider ← check (checked "PllClockOutput" (Field.ofNat (bits raw 2 5)))
  modify fun output => { output with enableOutput := bit raw 0 }
  modify fun output => { output with switchToAdpll := bit raw 1 }
  modify fun output => { output with divider }

namespace PlainRegister

def overwrite (name : String) (backend : Backend) (words : List Word) :
    Overwrite PlainRegister Unit := do
  let raw ← check (rawWord name backend words)
  modify fun register => { register with value := UInt32.ofNat raw }

/-- The register that takes two words is read from the first. -/
def overwriteLong (backend : Backend) (words : List Word) : Overwrite PlainRegister Unit := do
  let raw ← check (rawWords "LongRead" 2 backend words)
  modify fun register => { register with value := UInt32.ofNat (raw.get ⟨0, Nat.zero_lt_two⟩) }

end PlainRegister

namespace LeafKind

def overwrite : (kind : LeafKind) → Backend → List Word → Overwrite kind.Value Unit
  | timer => Timer.overwrite
  | systimeSync => keep "SystimeSync"
  | systimeSyncBase => SystimeSyncBase.overwrite
  | resetChip => keep "ResetChip"
  | spikePack1 => keep "SpikePack1ToChip"
  | spikePack2 => keep "SpikePack2ToChip"
  | spikePack3 => keep "SpikePack3ToChip"
  | commonSynramConfig => CommonSynramConfig.overwrite
  | synapseQuad => SynapseQuad.overwrite
  | neuronConfig => NeuronConfig.overwrite
  | pllClockOutput => PllClockOutput.overwrite
  | simOnly => PlainRegister.overwrite "SimOnly"
  | readOnly => PlainRegister.overwrite "ReadOnly"
  | badCount => PlainRegister.overwrite "BadCount"
  | crossWord => PlainRegister.overwrite "CrossWord"
  | badDefault => PlainRegister.overwrite "BadDefault"
  | shortRead => PlainRegister.overwrite "ShortRead"
  | longRead => PlainRegister.overwriteLong

-- Decoding in place is decoding, and what fails has changed nothing.
theorem settles_overwrite (kind : LeafKind) (backend : Backend) (words : List Word) :
    Settles (kind.overwrite backend words) (kind.leaf.decode backend words) := by
  cases kind with
  | systimeSync | resetChip | spikePack1 | spikePack2 | spikePack3 =>
    exact settles_keep _ backend words
  | commonSynramConfig | synapseQuad => exact settles_check fun _ => settles_whole
  | timer | longRead | simOnly | readOnly | badCount | crossWord | badDefault | shortRead =>
    exact settles_check fun _ => (assigns_modify _).settles
  | systimeSyncBase =>
    exact settles_check fun _ => settles_check fun _ => (assigns_modify _).settles
  | pllClockOutput =>
    refine settles_check fun _ => settles_check fun _ => ?_
    exact (((assigns_modify _).behind _).behind _).settles
  | neuronConfig =>
    refine settles_check fun _ => .ite _ (settles_throw _) (settles_check fun _ => ?_)
    exact ((((assigns_modify _).behind _).behind _).behind _).settles

end LeafKind

end Playback
