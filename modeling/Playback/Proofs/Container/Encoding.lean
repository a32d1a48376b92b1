import Playback.Container.Catalogue

/-! A readable leaf decodes the words that it encodes.

A layout places fields side by side, each within its own bits. The value that decoding starts from
does not matter to a leaf that can be read.
-/

set_option autoImplicit false

namespace Playback

theorem Field.ofNat_value {kind : String} {width lo hi : Nat} (field : Field kind width lo hi) :
    Field.ofNat field.value = .ok field :=
  Field.ofNat_eq_ok_iff.2 rfl

theorem raw_wordsOf {backend : Backend} {raw : List Nat} (small : ∀ n ∈ raw, n < 0x100000000) :
    (wordsOf backend raw).map Word.raw = raw := by
  rw [wordsOf, List.map_map]
  exact (List.map_congr_left fun n member => Word.raw_ofNat_of_lt (small n member)).trans
    (List.map_id _)

theorem rawWords_wordsOf (container : String) (backend : Backend) {n : Nat} (raw : Vector Nat n)
    (small : ∀ x ∈ raw.toList, x < 0x100000000) :
    rawWords container n backend (wordsOf backend raw.toList) = .ok raw := by
  have length : (wordsOf backend raw.toList).length = n := by simp [wordsOf]
  have same : (wordsOf backend raw.toList).find? (fun w => w.backend != backend) = none := by
    simp [wordsOf]
  unfold rawWords
  rw [dif_pos length, same]
  simp only [raw_wordsOf small]
  rfl

theorem rawWord_wordsOf (container : String) (backend : Backend) {n : Nat}
    (small : n < 0x100000000) : rawWord container backend (wordsOf backend [n]) = .ok n := by
  have reads := rawWords_wordsOf container backend #v[n] (by simpa using small)
  have listed : (#v[n]).toList = [n] := rfl
  rw [rawWord, ← listed, reads]
  rfl

theorem bind_rawWords {α : Type} (container : String) (backend : Backend) {n : Nat}
    (raw : Vector Nat n) (small : ∀ x ∈ raw.toList, x < 0x100000000)
    (read : Vector Nat n → Except DecodeError α) :
    (do read (← rawWords container n backend (wordsOf backend raw.toList))) = read raw := by
  rw [rawWords_wordsOf container backend raw small]
  rfl

theorem Timer.decode_encode (value blank : Timer) (backend : Backend) :
    leaf.decode backend (leaf.encode value backend) blank = .ok value := by
  change (do return (⟨UInt32.ofNat (← rawWord _ backend (wordsOf backend [value.value.toNat]))⟩ :
    Timer)) = _
  rw [rawWord_wordsOf _ _ value.value.toNat_lt]
  simp [bind, Except.bind, pure, Except.pure]

section Bits

variable {low high shift width place : Nat}

theorem shift_pos (n : Nat) : 0 < 1 <<< n := by
  rw [Nat.one_shiftLeft]
  exact Nat.two_pow_pos n

theorem bits_first (fits : low < 1 <<< width) : bits low 0 width = low :=
  Nat.mod_eq_of_lt fits

theorem bits_below (apart : shift + width ≤ place) :
    bits (low + high <<< place) shift width = bits low shift width := by
  obtain ⟨gap, rfl⟩ := Nat.exists_eq_add_of_le apart
  have above : high <<< (shift + width + gap) =
      2 ^ shift * (2 ^ width * (2 ^ gap * high)) := by
    rw [Nat.shiftLeft_eq, Nat.pow_add, Nat.pow_add, Nat.mul_comm high, Nat.mul_assoc, Nat.mul_assoc]
  rw [bits, bits, above, Nat.one_shiftLeft, Nat.shiftRight_eq_div_pow, Nat.shiftRight_eq_div_pow,
    Nat.add_mul_div_left _ _ (Nat.two_pow_pos shift), Nat.add_mul_mod_self_left]

theorem bits_above (below : low < 1 <<< shift) (fits : high < 1 <<< width) :
    bits (low + high <<< shift) shift width = high := by
  rw [Nat.one_shiftLeft] at below
  rw [bits, Nat.shiftRight_eq_div_pow, Nat.shiftLeft_eq,
    Nat.add_mul_div_right _ _ (Nat.two_pow_pos shift), Nat.div_eq_of_lt below, Nat.zero_add,
    Nat.mod_eq_of_lt fits]

theorem add_shift_lt (below : low < 1 <<< shift) (fits : high < 1 <<< width) :
    low + high <<< shift < 1 <<< (shift + width) := by
  rw [Nat.one_shiftLeft] at below fits ⊢
  rw [Nat.shiftLeft_eq, Nat.pow_add]
  have step : (high + 1) * 2 ^ shift ≤ 2 ^ width * 2 ^ shift := Nat.mul_le_mul_right _ fits
  rw [Nat.add_mul, Nat.one_mul] at step
  rw [Nat.mul_comm (2 ^ shift)]
  omega

theorem bits_lt (n : Nat) : bits n shift width < 1 <<< width :=
  Nat.mod_lt _ (shift_pos width)

theorem bits_add_bits {n : Nat} (fits : n < 1 <<< (shift + width)) :
    bits n 0 shift + bits n shift width <<< shift = n := by
  rw [Nat.one_shiftLeft, Nat.pow_add] at fits
  have high : n / 2 ^ shift < 2 ^ width := Nat.div_lt_of_lt_mul fits
  simp only [bits, Nat.shiftRight_eq_div_pow, Nat.shiftLeft_eq, Nat.pow_zero, Nat.div_one,
    Nat.one_mul, Nat.mod_eq_of_lt high]
  rw [Nat.mul_comm, Nat.mod_add_div]

end Bits

theorem bit_eq {raw index : Nat} {flag : Bool} (same : bits raw index 1 = flag.toNat) :
    bit raw index = flag := by
  rw [bit, same]
  cases flag <;> rfl

namespace NeuronConfig

theorem pack_lt (config : NeuronConfig) : config.pack < 1 <<< 20 := by
  have flag (b : Bool) : b.toNat < 1 <<< 1 := b.toNat_lt
  have threshold : config.threshold.value < 1 <<< 10 := Nat.lt_succ_of_le config.threshold.le_hi
  have time : config.refractoryTime.toNat < 1 <<< 8 := config.refractoryTime.toNat_lt
  have two := add_shift_lt (flag config.enableFire) threshold
  exact add_shift_lt (add_shift_lt two time) (flag config.enableBypass)

theorem unpack_pack (config : NeuronConfig) : unpack config.pack = .ok config := by
  have flag (b : Bool) : b.toNat < 1 <<< 1 := b.toNat_lt
  have threshold : config.threshold.value < 1 <<< 10 := Nat.lt_succ_of_le config.threshold.le_hi
  have time : config.refractoryTime.toNat < 1 <<< 8 := config.refractoryTime.toNat_lt
  have one := flag config.enableFire
  have two := add_shift_lt one threshold
  have three := add_shift_lt two time
  have reserved : config.pack >>> 20 = 0 := Nat.shiftRight_eq_zero _ _ config.pack_lt
  have first : bits config.pack 0 1 = config.enableFire.toNat := by
    unfold pack
    rw [bits_below (by decide), bits_below (by decide), bits_below (by decide), bits_first one]
  have second : bits config.pack 1 10 = config.threshold.value := by
    unfold pack
    rw [bits_below (by decide), bits_below (by decide), bits_above one threshold]
  have third : bits config.pack 11 8 = config.refractoryTime.toNat := by
    unfold pack
    rw [bits_below (by decide), bits_above two time]
  have fourth : bits config.pack 19 1 = config.enableBypass.toNat :=
    bits_above three (flag config.enableBypass)
  rw [unpack, if_neg (Decidable.not_not.2 reserved), second, third, bit_eq first, bit_eq fourth,
    Field.ofNat_value]
  simp [checked, bind, Except.bind, pure, Except.pure]

theorem decode_encode (value blank : NeuronConfig) (backend : Backend) :
    leaf.decode backend (leaf.encode value backend) blank = .ok value := by
  change (do unpack (← rawWord _ backend (wordsOf backend [value.pack]))) = _
  rw [rawWord_wordsOf _ _ (Nat.lt_trans value.pack_lt (by decide))]
  exact value.unpack_pack

end NeuronConfig

namespace PllClockOutput

theorem unpack_pack (output : PllClockOutput) : unpack output.pack = .ok output := by
  have enable : output.enableOutput.toNat < 1 <<< 1 := output.enableOutput.toNat_lt
  have switch : output.switchToAdpll.toNat < 1 <<< 1 := output.switchToAdpll.toNat_lt
  have divider : output.divider.value < 1 <<< 5 := Nat.lt_succ_of_le output.divider.le_hi
  have two := add_shift_lt enable switch
  have first : bits output.pack 0 1 = output.enableOutput.toNat := by
    unfold pack
    rw [bits_below (by decide), bits_below (by decide), bits_first enable]
  have second : bits output.pack 1 1 = output.switchToAdpll.toNat := by
    unfold pack
    rw [bits_below (by decide), bits_above enable switch]
  have third : bits output.pack 2 5 = output.divider.value := bits_above two divider
  rw [unpack, third, bit_eq first, bit_eq second, Field.ofNat_value]
  simp [checked, bind, Except.bind, pure, Except.pure]

theorem decode_encode (value blank : PllClockOutput) (backend : Backend) :
    leaf.decode backend (leaf.encode value backend) blank = .ok value := by
  have enable : value.enableOutput.toNat < 1 <<< 1 := value.enableOutput.toNat_lt
  have switch : value.switchToAdpll.toNat < 1 <<< 1 := value.switchToAdpll.toNat_lt
  have divider : value.divider.value < 1 <<< 5 := Nat.lt_succ_of_le value.divider.le_hi
  have small : value.pack < 1 <<< 7 := add_shift_lt (add_shift_lt enable switch) divider
  change (do unpack (← rawWord _ backend (wordsOf backend [value.pack]))) = _
  rw [rawWord_wordsOf _ _ (Nat.lt_trans small (by decide))]
  exact value.unpack_pack

end PllClockOutput

namespace SystimeSyncBase

theorem decode_encode (value blank : SystimeSyncBase) (backend : Backend) :
    leaf.decode backend (leaf.encode value backend) blank = .ok value := by
  have whole : value.value.value < 1 <<< (32 + 11) := Nat.lt_succ_of_le value.value.le_hi
  have low : bits value.value.value 0 32 < 1 <<< 32 := bits_lt _
  have high : bits value.value.value 32 11 < 1 <<< 11 := bits_lt _
  have small : ∀ x ∈ [bits value.value.value 0 32, bits value.value.value 32 11],
      x < 0x100000000 :=
    List.forall_mem_cons.2 ⟨low, List.forall_mem_singleton.2 (Nat.lt_trans high (by decide))⟩
  have together : bits (bits value.value.value 0 32) 0 32 +
      bits (bits value.value.value 32 11) 0 11 <<< 32 = value.value.value := by
    rw [bits_first low, bits_first high, bits_add_bits whole]
  refine (bind_rawWords "SystimeSyncBase" backend
    #v[bits value.value.value 0 32, bits value.value.value 32 11] small _).trans ?_
  change (do
    let count ← checked _ (Field.ofNat (bits (bits value.value.value 0 32) 0 32 +
      bits (bits value.value.value 32 11) 0 11 <<< 32))
    return (⟨count⟩ : SystimeSyncBase)) = _
  rw [together, Field.ofNat_value]
  rfl

end SystimeSyncBase

namespace CommonSynramConfig

theorem unpack_pack (config : CommonSynramConfig) {pc w ctr : Nat}
    (packed : [pc, w, ctr] = config.pack) : unpack #v[pc, w, ctr] = .ok config := by
  obtain ⟨pcPacked, packed⟩ := List.cons.inj packed
  obtain ⟨wPacked, packed⟩ := List.cons.inj packed
  have first : (#v[pc, w, ctr])[0] = config.pcConfWest.value + config.pcConfEast.value <<< 4 :=
    pcPacked
  have second : (#v[pc, w, ctr])[1] = config.wConfWest.toNat + config.wConfEast.toNat <<< 8 :=
    wPacked
  have third : (#v[pc, w, ctr])[2] = config.waitCtrClear.value := (List.cons.inj packed).1
  have west : config.pcConfWest.value < 1 <<< 4 := Nat.lt_succ_of_le config.pcConfWest.le_hi
  have east : config.pcConfEast.value < 1 <<< 4 := Nat.lt_succ_of_le config.pcConfEast.le_hi
  have low : config.wConfWest.toNat < 1 <<< 8 := config.wConfWest.toNat_lt
  have high : config.wConfEast.toNat < 1 <<< 8 := config.wConfEast.toNat_lt
  have clear : config.waitCtrClear.value < 1 <<< 3 := Nat.lt_succ_of_le config.waitCtrClear.le_hi
  rw [unpack, first, second, third, bits_below (by decide), bits_first west, bits_above west east,
    bits_below (by decide), bits_first low, bits_above low high, bits_first clear]
  simp only [Field.ofNat_value, UInt8.ofNat_toNat]
  rfl

theorem pack_lt (config : CommonSynramConfig) : ∀ n ∈ config.pack, n < 0x100000000 := by
  have west : config.pcConfWest.value < 1 <<< 4 := Nat.lt_succ_of_le config.pcConfWest.le_hi
  have east : config.pcConfEast.value < 1 <<< 4 := Nat.lt_succ_of_le config.pcConfEast.le_hi
  have low : config.wConfWest.toNat < 1 <<< 8 := config.wConfWest.toNat_lt
  have high : config.wConfEast.toNat < 1 <<< 8 := config.wConfEast.toNat_lt
  have clear : config.waitCtrClear.value < 1 <<< 3 := Nat.lt_succ_of_le config.waitCtrClear.le_hi
  simp only [pack, List.forall_mem_cons]
  exact ⟨Nat.lt_trans (add_shift_lt west east) (by decide),
    Nat.lt_trans (add_shift_lt low high) (by decide), Nat.lt_trans clear (by decide), nofun⟩

theorem decode_encode (value blank : CommonSynramConfig) (backend : Backend) :
    leaf.decode backend (leaf.encode value backend) blank = .ok value :=
  (bind_rawWords "CommonSynramConfig" backend #v[_, _, _] value.pack_lt unpack).trans
    (value.unpack_pack rfl)

end CommonSynramConfig

namespace Synapse

theorem pack_lt (synapse : Synapse) : synapse.pack < 1 <<< 16 := by
  have weight : synapse.weight.value < 1 <<< 6 := Nat.lt_succ_of_le synapse.weight.le_hi
  have address : synapse.address.value < 1 <<< 6 := Nat.lt_succ_of_le synapse.address.le_hi
  have time : synapse.timeCalib.value < 1 <<< 2 := Nat.lt_succ_of_le synapse.timeCalib.le_hi
  have amp : synapse.ampCalib.value < 1 <<< 2 := Nat.lt_succ_of_le synapse.ampCalib.le_hi
  exact add_shift_lt (add_shift_lt (add_shift_lt weight address) time) amp

theorem unpack_pack (synapse : Synapse) : unpack synapse.pack = .ok synapse := by
  have weight : synapse.weight.value < 1 <<< 6 := Nat.lt_succ_of_le synapse.weight.le_hi
  have address : synapse.address.value < 1 <<< 6 := Nat.lt_succ_of_le synapse.address.le_hi
  have time : synapse.timeCalib.value < 1 <<< 2 := Nat.lt_succ_of_le synapse.timeCalib.le_hi
  have amp : synapse.ampCalib.value < 1 <<< 2 := Nat.lt_succ_of_le synapse.ampCalib.le_hi
  have two := add_shift_lt weight address
  have three := add_shift_lt two time
  have first : bits synapse.pack 0 6 = synapse.weight.value := by
    unfold pack
    rw [bits_below (by decide), bits_below (by decide), bits_below (by decide), bits_first weight]
  have second : bits synapse.pack 6 6 = synapse.address.value := by
    unfold pack
    rw [bits_below (by decide), bits_below (by decide), bits_above weight address]
  have third : bits synapse.pack 12 2 = synapse.timeCalib.value := by
    unfold pack
    rw [bits_below (by decide), bits_above two time]
  have fourth : bits synapse.pack 14 2 = synapse.ampCalib.value := bits_above three amp
  rw [unpack, first, second, third, fourth]
  simp only [Field.ofNat_value]
  rfl

end Synapse

namespace SynapseQuad

theorem pack_lt (quad : SynapseQuad) : ∀ n ∈ quad.pack, n < 0x100000000 := by
  simp only [pack, List.forall_mem_cons]
  exact ⟨add_shift_lt (Synapse.pack_lt _) (Synapse.pack_lt _),
    add_shift_lt (Synapse.pack_lt _) (Synapse.pack_lt _), nofun⟩

theorem unpack_pack (quad : SynapseQuad) {low high : Nat} (packed : [low, high] = quad.pack) :
    unpack #v[low, high] = .ok quad := by
  obtain ⟨lowPacked, packed⟩ := List.cons.inj packed
  have first : (#v[low, high])[0] = quad.synapses[0].pack + quad.synapses[1].pack <<< 16 :=
    lowPacked
  have second : (#v[low, high])[1] = quad.synapses[2].pack + quad.synapses[3].pack <<< 16 :=
    (List.cons.inj packed).1
  have fits (i : Nat) (small : i < 4) : quad.synapses[i].pack < 1 <<< 16 :=
    quad.synapses[i].pack_lt
  have whole : #v[quad.synapses[0], quad.synapses[1], quad.synapses[2], quad.synapses[3]] =
      quad.synapses := by
    apply Vector.ext
    intro i small
    have cases : i = 0 ∨ i = 1 ∨ i = 2 ∨ i = 3 := by omega
    rcases cases with rfl | rfl | rfl | rfl <;> rfl
  rw [unpack, first, second, bits_below (by decide), bits_first (fits 0 (by decide)),
    bits_above (fits 0 (by decide)) (fits 1 (by decide)), bits_below (by decide),
    bits_first (fits 2 (by decide)), bits_above (fits 2 (by decide)) (fits 3 (by decide))]
  simp only [Synapse.unpack_pack]
  change Except.ok (⟨#v[_, _, _, _]⟩ : SynapseQuad) = _
  rw [whole]

theorem decode_encode (value blank : SynapseQuad) (backend : Backend) :
    leaf.decode backend (leaf.encode value backend) blank = .ok value :=
  (bind_rawWords "SynapseQuad" backend #v[_, _] value.pack_lt unpack).trans
    (value.unpack_pack rfl)

end SynapseQuad

namespace LeafKind

def isReadable : LeafKind → Bool
  | timer | systimeSyncBase | commonSynramConfig | synapseQuad | neuronConfig | pllClockOutput =>
    true
  | _ => false

variable {kind : LeafKind}

theorem isRegular_of_isReadable (readable : kind.isReadable = true) : kind.isRegular = true := by
  cases kind with
  | simOnly | readOnly | badCount | crossWord | badDefault | shortRead | longRead => cases readable
  | _ => rfl

theorem decode_encode (readable : kind.isReadable = true) (value blank : kind.Value)
    (backend : Backend) :
    kind.leaf.decode backend (kind.leaf.encode value backend) blank = .ok value := by
  cases kind with
  | timer => exact Timer.decode_encode value blank backend
  | systimeSyncBase => exact SystimeSyncBase.decode_encode value blank backend
  | commonSynramConfig => exact CommonSynramConfig.decode_encode value blank backend
  | synapseQuad => exact SynapseQuad.decode_encode value blank backend
  | neuronConfig => exact NeuronConfig.decode_encode value blank backend
  | pllClockOutput => exact PllClockOutput.decode_encode value blank backend
  | _ => cases readable

theorem decode_congr (readable : kind.isReadable = true) (backend : Backend) (words : List Word)
    (blank other : kind.Value) :
    kind.leaf.decode backend words blank = kind.leaf.decode backend words other := by
  cases kind with
  | timer | systimeSyncBase | commonSynramConfig | synapseQuad | neuronConfig | pllClockOutput =>
    rfl
  | _ => cases readable

theorem readAddresses_eq (readable : kind.isReadable = true) :
    kind.leaf.readAddresses = kind.leaf.writeAddresses := by
  cases kind with
  | timer | systimeSyncBase | commonSynramConfig | synapseQuad | neuronConfig | pllClockOutput =>
    rfl
  | _ => cases readable

theorem isReadable_of_readAddresses (regular : kind.isRegular = true) {coord : kind.Coord}
    {backend : Backend} (some : kind.leaf.readAddresses coord backend ≠ []) :
    kind.isReadable = true := by
  cases kind with
  | timer | systimeSyncBase | commonSynramConfig | synapseQuad | neuronConfig | pllClockOutput =>
    rfl
  | systimeSync | resetChip | spikePack1 | spikePack2 | spikePack3 => exact absurd rfl some
  | _ => cases regular

theorem length_readAddresses (regular : kind.isRegular = true) (coord : kind.Coord)
    (backend : Backend) :
    (kind.leaf.readAddresses coord backend).length = kind.leaf.readWords := by
  cases kind with
  | systimeSyncBase => cases backend <;> rfl
  | simOnly | readOnly | badCount | crossWord | badDefault | shortRead | longRead => cases regular
  | _ => rfl

end LeafKind

end Playback
