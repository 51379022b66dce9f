import SourceIndex.Digest.Hex

/-!
# The BLAKE3 digest

BLAKE3 in its plain hashing mode with 32 bytes of output. The input is cut into chunks of 1024
bytes, a chunk into blocks of 64. Each block is compressed into the chaining value of its chunk;
chunks are the leaves of a binary tree whose left subtrees are the largest complete ones, and a
parent compresses the chaining values of its two children. The last compression of all is
flagged as the root.
-/

namespace SourceIndex.Blake3

abbrev Words (n : Nat) := Vector UInt32 n

/-- The initial chaining value. -/
def initial : Words 8 :=
  #v[0x6A09E667, 0xBB67AE85, 0x3C6EF372, 0xA54FF53A, 0x510E527F, 0x9B05688C, 0x1F83D9AB, 0x5BE0CD19]

/-- How message words move between rounds. -/
def permutation : Vector (Fin 16) 16 := #v[2, 6, 3, 10, 7, 0, 4, 13, 1, 11, 12, 5, 9, 14, 15, 8]

def chunkStart : UInt32 := 1
def chunkEnd : UInt32 := 2
def parent : UInt32 := 4
def root : UInt32 := 8

def rotateRight (x : UInt32) (n : UInt32) : UInt32 := (x >>> n) ||| (x <<< (32 - n))

/-- Mixes two message words into four words of the state. -/
def mix (v : Words 16) (a b c d : Fin 16) (x y : UInt32) : Words 16 :=
  let a₁ := v[a] + v[b] + x
  let d₁ := rotateRight (v[d] ^^^ a₁) 16
  let c₁ := v[c] + d₁
  let b₁ := rotateRight (v[b] ^^^ c₁) 12
  let a₂ := a₁ + b₁ + y
  let d₂ := rotateRight (d₁ ^^^ a₂) 8
  let c₂ := c₁ + d₂
  let b₂ := rotateRight (b₁ ^^^ c₂) 7
  (((v.set a a₂).set b b₂).set c c₂).set d d₂

/-- One round: the four columns, then the four diagonals. -/
def round (v : Words 16) (m : Words 16) : Words 16 :=
  let v := mix v 0 4 8 12 m[0] m[1]
  let v := mix v 1 5 9 13 m[2] m[3]
  let v := mix v 2 6 10 14 m[4] m[5]
  let v := mix v 3 7 11 15 m[6] m[7]
  let v := mix v 0 5 10 15 m[8] m[9]
  let v := mix v 1 6 11 12 m[10] m[11]
  let v := mix v 2 7 8 13 m[12] m[13]
  mix v 3 4 9 14 m[14] m[15]

/-- `n` rounds, with the message permuted after each. -/
def rounds : Nat → Words 16 → Words 16 → Words 16
  | 0, v, _ => v
  | n + 1, v, m => rounds n (round v m) (permutation.map fun i => m[i])

/-- A compression that is ready to run. -/
structure Compression where
  chaining : Words 8
  block : Words 16
  counter : Nat
  length : Nat
  flags : UInt32

/-- The chaining value that a compression gives, with more flags set. -/
def Compression.run (c : Compression) (flags : UInt32) : Words 8 :=
  let h := c.chaining
  let v : Words 16 := #v[h[0], h[1], h[2], h[3], h[4], h[5], h[6], h[7],
    initial[0], initial[1], initial[2], initial[3],
    UInt32.ofNat c.counter, UInt32.ofNat (c.counter / 0x100000000), UInt32.ofNat c.length,
    c.flags ||| flags]
  let w := rounds 7 v c.block
  Vector.ofFn fun i => w[i] ^^^ w[i.val + 8]

/-- Consecutive groups of `n + 1` elements; the last may be shorter. -/
def groups (n : Nat) : List α → List (List α)
  | [] => []
  | x :: rest => (x :: rest.take n) :: groups n (rest.drop n)
termination_by list => list.length
decreasing_by
  rw [List.length_drop]
  exact Nat.lt_succ_of_le (Nat.sub_le ..)

/-- The words of a block, four bytes each with the low byte first, padded with zeros. -/
def blockWords (bytes : List UInt8) : Words 16 :=
  let padded := (bytes ++ List.replicate 64 0).toArray
  Vector.ofFn fun i =>
    let byte (k : Nat) : UInt32 := (padded.getD (4 * i.val + k) 0).toUInt32
    byte 0 ||| (byte 1 <<< 8) ||| (byte 2 <<< 16) ||| (byte 3 <<< 24)

/-- The last compression of a chunk, given its blocks and the chaining value before them. -/
def chunkBlocks (counter : Nat) (flags : UInt32) (chaining : Words 8) :
    List (List UInt8) → Compression
  | [] => ⟨chaining, blockWords [], counter, 0, flags ||| chunkEnd⟩
  | [last] => ⟨chaining, blockWords last, counter, last.length, flags ||| chunkEnd⟩
  | block :: next :: others =>
    let step : Compression := ⟨chaining, blockWords block, counter, block.length, flags⟩
    chunkBlocks counter 0 (step.run 0) (next :: others)

/-- The last compression of the chunk with the given number. -/
def chunk (counter : Nat) (bytes : List UInt8) : Compression :=
  chunkBlocks counter chunkStart initial (groups 63 bytes)

/-- The number of chunks in the left subtree of a tree with `n + 2` chunks: the largest power
of two that leaves one for the right. -/
def leftSize (n : Nat) : Nat := Nat.pow 2 (Nat.log2 (n + 1))

theorem leftSize_pos (n : Nat) : 0 < leftSize n := Nat.two_pow_pos _

theorem leftSize_le (n : Nat) : leftSize n ≤ n + 1 := Nat.log2_self_le (by omega)

/-- The last compression of a tree over the given chunks, the first with number `counter`. -/
def tree (counter : Nat) : List (List UInt8) → Compression
  | [] => chunk counter []
  | [only] => chunk counter only
  | first :: second :: others =>
    let size := leftSize others.length
    let left := tree counter ((first :: second :: others).take size)
    let right := tree (counter + size) ((first :: second :: others).drop size)
    let l := left.run 0
    let r := right.run 0
    ⟨initial, l ++ r, 0, 64, parent⟩
termination_by chunks => chunks.length
decreasing_by
  · have := leftSize_le others.length
    simp [List.length_take]
    omega
  · have := leftSize_pos others.length
    simp [List.length_drop]
    omega

/-- The digest of a byte string. -/
def digest (input : List UInt8) : List UInt8 :=
  ((tree 0 (groups 1023 input)).run root).toList.flatMap fun (word : UInt32) =>
    [word.toUInt8, (word >>> 8).toUInt8, (word >>> 16).toUInt8, (word >>> 24).toUInt8]

/-- The digest in lower-case hexadecimal digits. -/
def hexDigest (input : List UInt8) : String := Hex.encode (digest input)

end SourceIndex.Blake3
