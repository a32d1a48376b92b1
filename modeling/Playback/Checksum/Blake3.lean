import Playback.Bytes

/-! The BLAKE3 hash with its default key and an output of 32 bytes.

The input is cut into chunks of 1024 bytes and each chunk into blocks of 64. The last block of every
chunk is a leaf of a binary tree; neighbours are joined level by level, and a node without a
neighbour moves up unchanged. The digest is the output of the root.
-/

set_option autoImplicit false

namespace Playback.Blake3

abbrev Words := Vector UInt32 16

abbrev Chaining := Vector UInt32 8

def initial : Chaining :=
  #v[0x6a09e667, 0xbb67ae85, 0x3c6ef372, 0xa54ff53a, 0x510e527f, 0x9b05688c, 0x1f83d9ab, 0x5be0cd19]

/-- Where each word of a message comes from in the next round. -/
def permutation : Vector (Fin 16) 16 :=
  #v[2, 6, 3, 10, 7, 0, 4, 13, 1, 11, 12, 5, 9, 14, 15, 8]

def rotateRight (w places : UInt32) : UInt32 :=
  (w >>> places) ||| (w <<< (32 - places))

/-- The quarter round on four words of the state, with two words of the message. -/
def mix (s : Words) (a b c d : Fin 16) (x y : UInt32) : Words :=
  let va := s[a] + s[b] + x
  let vd := rotateRight (s[d] ^^^ va) 16
  let vc := s[c] + vd
  let vb := rotateRight (s[b] ^^^ vc) 12
  let va := va + vb + y
  let vd := rotateRight (vd ^^^ va) 8
  let vc := vc + vd
  let vb := rotateRight (vb ^^^ vc) 7
  (((s.set a va).set b vb).set c vc).set d vd

def round (s m : Words) : Words :=
  let s := mix s 0 4 8 12 m[0] m[1]
  let s := mix s 1 5 9 13 m[2] m[3]
  let s := mix s 2 6 10 14 m[4] m[5]
  let s := mix s 3 7 11 15 m[6] m[7]
  let s := mix s 0 5 10 15 m[8] m[9]
  let s := mix s 1 6 11 12 m[10] m[11]
  let s := mix s 2 7 8 13 m[12] m[13]
  mix s 3 4 9 14 m[14] m[15]

def permute (m : Words) : Words :=
  Vector.ofFn fun i => m[permutation[i]]

def rounds : Nat → Words → Words → Words
  | 0, s, _ => s
  | n + 1, s, m => rounds n (round s m) (permute m)

structure Block where
  chaining : Chaining
  message : Words
  counter : UInt64
  length : UInt32
  flags : UInt32

def chunkStart : UInt32 := 1
def chunkEnd : UInt32 := 2
def parent : UInt32 := 4
def root : UInt32 := 8

namespace Block

/-- The first half of the compression function's output. -/
def compress (block : Block) : Chaining :=
  let h := block.chaining
  let s : Words :=
    #v[h[0], h[1], h[2], h[3], h[4], h[5], h[6], h[7],
      initial[0], initial[1], initial[2], initial[3],
      block.counter.toUInt32, (block.counter >>> 32).toUInt32, block.length, block.flags]
  let s := rounds 7 s block.message
  #v[s[0] ^^^ s[8], s[1] ^^^ s[9], s[2] ^^^ s[10], s[3] ^^^ s[11],
    s[4] ^^^ s[12], s[5] ^^^ s[13], s[6] ^^^ s[14], s[7] ^^^ s[15]]

def join (left right : Block) : Block where
  chaining := initial
  message := left.compress ++ right.compress
  counter := 0
  length := 64
  flags := parent

end Block

/-- The message words of at most 64 bytes, filled with zeros. -/
def messageOf (bytes : Bytes) : Words :=
  Vector.ofFn fun i => UInt32.ofNat (Bytes.littleValue ((bytes.drop (4 * i)).take 4))

def lastBlock (index : Nat) (start : UInt32) (chaining : Chaining) : List Bytes → Block
  | [] => ⟨chaining, messageOf [], UInt64.ofNat index, 0, start ||| chunkEnd⟩
  | [bytes] =>
    ⟨chaining, messageOf bytes, UInt64.ofNat index, UInt32.ofNat bytes.length, start ||| chunkEnd⟩
  | bytes :: next :: rest =>
    let block : Block :=
      ⟨chaining, messageOf bytes, UInt64.ofNat index, UInt32.ofNat bytes.length, start⟩
    lastBlock index 0 block.compress (next :: rest)

def leafOf (index : Nat) (chunk : Bytes) : Block :=
  lastBlock index chunkStart initial (chunk.pieces 64 (by decide))

def joinNeighbours : List Block → List Block
  | left :: right :: rest => left.join right :: joinNeighbours rest
  | blocks => blocks

theorem length_joinNeighbours_le (blocks : List Block) :
    (joinNeighbours blocks).length ≤ blocks.length := by
  fun_induction joinNeighbours blocks with
  | case1 left right rest ih =>
    simp only [List.length_cons]
    omega
  | case2 => exact Nat.le_refl _

def rootOf (first : Block) : List Block → Block
  | [] => first
  | second :: rest => rootOf (first.join second) (joinNeighbours rest)
termination_by blocks => blocks.length
decreasing_by
  have := length_joinNeighbours_le rest
  simp only [List.length_cons]
  omega

def tree (bytes : Bytes) : Block :=
  match bytes.pieces 1024 (by decide) with
  | [] => leafOf 0 []
  | first :: rest => rootOf (leafOf 0 first) (rest.mapIdx fun i chunk => leafOf (i + 1) chunk)

def hash (bytes : Bytes) : Bytes :=
  let top := tree bytes
  ({ top with flags := top.flags ||| root } : Block).compress.toList.flatMap fun w =>
    Bytes.little 4 w.toNat

theorem length_flatMap_little (words : List UInt32) :
    (words.flatMap fun w => Bytes.little 4 w.toNat).length = 4 * words.length := by
  induction words with
  | nil => rfl
  | cons w rest ih =>
    simp only [List.flatMap_cons, List.length_append, Bytes.length_little, List.length_cons, ih]
    omega

@[simp] theorem length_hash (bytes : Bytes) : (hash bytes).length = 32 := by
  simp only [hash, length_flatMap_little, Vector.length_toList]

end Playback.Blake3
