/-!
# BLAKE3

The hash of a text of bytes. Up to 1024 bytes make a chunk, a chunk is compressed in blocks of 64
bytes one after the other, and the chunks are the leaves of a binary tree whose left half is always
the largest full one. `Node.words` compresses the last block of a node, and the block of the root is
told that it is the root. `hash` gives the first bytes of the result.
-/

namespace Stairway.Digest.Blake3

abbrev Word := UInt32

/-- Eight words that are carried from block to block. -/
abbrev Chain := Vector Word 8

/-- The words of one block, and of the state that it is mixed into. -/
abbrev Block := Vector Word 16

def initial : Chain :=
  #v[0x6A09E667, 0xBB67AE85, 0x3C6EF372, 0xA54FF53A, 0x510E527F, 0x9B05688C, 0x1F83D9AB, 0x5BE0CD19]

/-! ## What a block is marked with -/

def chunkStart : Word := 1
def chunkEnd : Word := 2
def parentBlock : Word := 4
def rootBlock : Word := 8

/-! ## Compression -/

def rotateRight (x k : Word) : Word := (x >>> k) ||| (x <<< (32 - k))

/-- Mixes two words of a block into four words of the state. -/
def mix (v : Block) (a b c d : Fin 16) (x y : Word) : Block :=
  let va := v[a] + v[b] + x
  let vd := rotateRight (v[d] ^^^ va) 16
  let vc := v[c] + vd
  let vb := rotateRight (v[b] ^^^ vc) 12
  let va := va + vb + y
  let vd := rotateRight (vd ^^^ va) 8
  let vc := vc + vd
  let vb := rotateRight (vb ^^^ vc) 7
  (((v.set a va).set b vb).set c vc).set d vd

/-- Mixes a whole block in: first down the columns of the state, then along its diagonals. -/
def round (m v : Block) : Block :=
  let v := mix v 0 4 8 12 m[0] m[1]
  let v := mix v 1 5 9 13 m[2] m[3]
  let v := mix v 2 6 10 14 m[4] m[5]
  let v := mix v 3 7 11 15 m[6] m[7]
  let v := mix v 0 5 10 15 m[8] m[9]
  let v := mix v 1 6 11 12 m[10] m[11]
  let v := mix v 2 7 8 13 m[12] m[13]
  mix v 3 4 9 14 m[14] m[15]

/-- The order in which the next round takes the words of the block. -/
def shuffle (m : Block) : Block :=
  #v[m[2], m[6], m[3], m[10], m[7], m[0], m[4], m[13], m[1], m[11], m[12], m[5], m[9], m[14], m[15],
    m[8]]

def rounds (m : Block) (v : Block) : Nat → Block
  | 0 => v
  | n + 1 => rounds (shuffle m) (round m v) n

/-- A block that is still to be compressed, with everything that goes into it. -/
structure Node where
  chain : Chain
  block : Block
  counter : Nat
  length : Nat
  marks : Word

/-- The eight words that a node comes down to. -/
def Node.words (n : Node) : Chain :=
  let chain := n.chain
  let start : Block :=
    #v[chain[0], chain[1], chain[2], chain[3], chain[4], chain[5], chain[6], chain[7],
      initial[0], initial[1], initial[2], initial[3],
      UInt32.ofNat n.counter, UInt32.ofNat (n.counter >>> 32), UInt32.ofNat n.length, n.marks]
  let v := rounds n.block start 7
  #v[v[0] ^^^ v[8], v[1] ^^^ v[9], v[2] ^^^ v[10], v[3] ^^^ v[11], v[4] ^^^ v[12], v[5] ^^^ v[13],
    v[6] ^^^ v[14], v[7] ^^^ v[15]]

/-! ## Chunks and the tree -/

/-- Four bytes as a word, the lowest first; missing bytes count as zero. -/
def wordOf (bytes : List UInt8) : Word :=
  (bytes.take 4).foldr (fun b w => w * 256 + UInt32.ofNat b.toNat) 0

def blockOf (bytes : List UInt8) : Block := Vector.ofFn fun i => wordOf (bytes.drop (4 * i.val))

/-- The last block of a chunk, after all blocks before it have been compressed. -/
def chunk (counter : Nat) (chain : Chain) (first : Word) (bytes : List UInt8) : Node :=
  if 64 < bytes.length then
    let node : Node := ⟨chain, blockOf (bytes.take 64), counter, 64, first⟩
    chunk counter node.words 0 (bytes.drop 64)
  else ⟨chain, blockOf bytes, counter, bytes.length, first ||| chunkEnd⟩
termination_by bytes.length
decreasing_by
  simp only [List.length_drop]
  omega

def parent (left right : Chain) : Node :=
  ⟨initial, (left ++ right : Vector Word (8 + 8)), 0, 64, parentBlock⟩

/-- How many bytes of `n` make the left half of a tree: the largest number of chunks that is a power
of two and leaves something. -/
def leftLength (n : Nat) : Nat := (1 <<< ((n - 1) / 1024).log2) * 1024

theorem leftLength_lt {n : Nat} (h : 1024 < n) : 0 < leftLength n ∧ leftLength n < n := by
  have hne : (n - 1) / 1024 ≠ 0 := by omega
  have hle := Nat.log2_self_le hne
  have hpos : 0 < 2 ^ ((n - 1) / 1024).log2 := Nat.two_pow_pos _
  rw [leftLength, Nat.one_shiftLeft]
  omega

/-- The root of the tree over some bytes, the first of which lie in chunk number `counter`. -/
def tree (counter : Nat) (bytes : List UInt8) : Node :=
  if h : 1024 < bytes.length then
    let n := leftLength bytes.length
    have := leftLength_lt h
    parent (tree counter (bytes.take n)).words (tree (counter + n / 1024) (bytes.drop n)).words
  else chunk counter initial chunkStart bytes
termination_by bytes.length
decreasing_by
  all_goals
    simp only [List.length_take, List.length_drop]
    omega

def bytesOf (w : Word) : List UInt8 :=
  [UInt8.ofNat w.toNat, UInt8.ofNat (w.toNat >>> 8), UInt8.ofNat (w.toNat >>> 16),
    UInt8.ofNat (w.toNat >>> 24)]

/-- The first 32 bytes of the hash. -/
def hash (bytes : List UInt8) : List UInt8 :=
  let root := tree 0 bytes
  ({ root with marks := root.marks ||| rootBlock }).words.toList.flatMap bytesOf

end Stairway.Digest.Blake3
