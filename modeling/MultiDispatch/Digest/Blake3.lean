/-!
# BLAKE3 digests

The 32-byte BLAKE3 digest of a run of bytes. The bytes are cut into chunks of 1024 bytes and each
chunk into blocks of 64; the blocks of a chunk are compressed one after the other, and the chunks
are the leaves of a binary tree whose inner nodes compress the two values below them.

The tree puts as many chunks as possible, a power of two, on the left. Joining neighbours level by
level, with a last node that has no neighbour moving up unchanged, builds the same tree: a complete
left subtree is what the levels produce, and the node that moves up is joined to it last.

The compression that yields a node's value is put off until the node's place is known, because the
root is compressed with a flag of its own. `Node` is such a pending compression.

## Main definitions

* `compress`: the compression function, truncated to eight words.
* `Node`, `Node.value`: a pending compression and its value.
* `joinLevel`, `root`: one level of the tree, and its top.
* `digest`: the digest of a run of bytes.
-/

namespace MultiDispatch.Digest

/-- Eight words: a chaining value. -/
abbrev Chain := Vector UInt32 8

/-- Sixteen words: a block of the message, or the state of the compression. -/
abbrev Block := Vector UInt32 16

/-- The initial chaining value. -/
def initialChain : Chain :=
  #v[0x6a09e667, 0xbb67ae85, 0x3c6ef372, 0xa54ff53a, 0x510e527f, 0x9b05688c, 0x1f83d9ab, 0x5be0cd19]

/-- The order in which a round takes the words that the round before it took. -/
def schedule : Vector (Fin 16) 16 :=
  #v[2, 6, 3, 10, 7, 0, 4, 13, 1, 11, 12, 5, 9, 14, 15, 8]

/-- A word rotated to the right by `n` places. -/
def rotateRight (x : UInt32) (n : UInt32) : UInt32 :=
  (x >>> n) ||| (x <<< (32 - n))

/-- Mix two message words into four words of the state. -/
def mix (s : Block) (a b c d : Fin 16) (x y : UInt32) : Block :=
  let va := s[a] + s[b] + x
  let vd := rotateRight (s[d] ^^^ va) 16
  let vc := s[c] + vd
  let vb := rotateRight (s[b] ^^^ vc) 12
  let va := va + vb + y
  let vd := rotateRight (vd ^^^ va) 8
  let vc := vc + vd
  let vb := rotateRight (vb ^^^ vc) 7
  (((s.set a va).set b vb).set c vc).set d vd

/-- One round: the four columns of the state, then its four diagonals. -/
def round (s m : Block) : Block :=
  let s := mix s 0 4 8 12 m[0] m[1]
  let s := mix s 1 5 9 13 m[2] m[3]
  let s := mix s 2 6 10 14 m[4] m[5]
  let s := mix s 3 7 11 15 m[6] m[7]
  let s := mix s 0 5 10 15 m[8] m[9]
  let s := mix s 1 6 11 12 m[10] m[11]
  let s := mix s 2 7 8 13 m[12] m[13]
  mix s 3 4 9 14 m[14] m[15]

/-- The words of a block in the order of the next round. -/
def reschedule (m : Block) : Block :=
  schedule.map fun i => m[i]

/-- A number of rounds, the message being reordered between them. -/
def rounds : Nat → Block → Block → Block
  | 0, s, _ => s
  | n + 1, s, m => rounds n (round s m) (reschedule m)

/-- A block of at most 64 bytes waiting to be compressed onto a chaining value. -/
structure Node where
  chain : Chain
  block : Block
  counter : Nat
  length : Nat
  flags : UInt32

/-- The flag of a chunk's first block. -/
def chunkStart : UInt32 := 1

/-- The flag of a chunk's last block. -/
def chunkEnd : UInt32 := 2

/-- The flag of an inner node of the tree. -/
def parentFlag : UInt32 := 4

/-- The flag of the tree's root. -/
def rootFlag : UInt32 := 8

/-- The compression function, truncated to eight words. -/
def compress (n : Node) : Chain :=
  let h := n.chain
  let k := initialChain
  let s : Block := #v[h[0], h[1], h[2], h[3], h[4], h[5], h[6], h[7], k[0], k[1], k[2], k[3],
    UInt32.ofNat n.counter, UInt32.ofNat (n.counter / Nat.pow 2 32), UInt32.ofNat n.length, n.flags]
  let s := rounds 7 s n.block
  #v[s[0] ^^^ s[8], s[1] ^^^ s[9], s[2] ^^^ s[10], s[3] ^^^ s[11],
    s[4] ^^^ s[12], s[5] ^^^ s[13], s[6] ^^^ s[14], s[7] ^^^ s[15]]

/-- The value of a node that is not the root. -/
def Node.value (n : Node) : Chain :=
  compress n

/-- The value of a node that is the root. -/
def Node.rootValue (n : Node) : Chain :=
  compress { n with flags := n.flags ||| rootFlag }

/-! ### Cutting the input -/

/-- A list cut into pieces of `n` elements, the last one possibly shorter; the empty list is one
empty piece. -/
def pieces {α : Type} (n : Nat) (xs : List α) : List (List α) :=
  (List.range (max 1 ((xs.length + n - 1) / n))).map fun i => (xs.drop (i * n)).take n

/-- The word whose bytes are given, least significant byte first. -/
def word (bytes : List UInt8) : UInt32 :=
  bytes.foldr (fun b w => (w <<< 8) ||| b.toUInt32) 0

/-- The words of at most 64 bytes, missing bytes being zero. -/
def blockOf (bytes : List UInt8) : Block :=
  Vector.ofFn fun i => word ((bytes.drop (4 * i.val)).take 4)

/-- The blocks of a chunk, compressed in order up to the last one, which is left pending. -/
def chainBlocks (counter : Nat) (chain : Chain) (flags : UInt32) : List (List UInt8) → Node
  | [] => ⟨chain, blockOf [], counter, 0, flags ||| chunkEnd⟩
  | [last] => ⟨chain, blockOf last, counter, last.length, flags ||| chunkEnd⟩
  | bytes :: rest =>
    chainBlocks counter (Node.value ⟨chain, blockOf bytes, counter, bytes.length, flags⟩) 0 rest

/-- The leaf of the chunk with the given number. -/
def leaf (counter : Nat) (chunk : List UInt8) : Node :=
  chainBlocks counter initialChain chunkStart (pieces 64 chunk)

/-! ### The tree -/

/-- The inner node above two nodes. -/
def join (l r : Node) : Node :=
  ⟨initialChain, (l.value ++ r.value).cast rfl, 0, 64, parentFlag⟩

/-- One level up: neighbours are joined, and a last node without a neighbour stays. -/
def joinLevel : List Node → List Node
  | l :: r :: rest => join l r :: joinLevel rest
  | rest => rest

theorem length_joinLevel_le : (nodes : List Node) → (joinLevel nodes).length ≤ nodes.length
  | [] => Nat.le_refl _
  | [_] => Nat.le_refl _
  | _ :: _ :: rest => by
    simp only [joinLevel, List.length_cons]
    exact Nat.succ_le_succ (Nat.le_succ_of_le (length_joinLevel_le rest))

/-- The top of the tree over a first node and the nodes after it. -/
def root (first : Node) (rest : List Node) : Node :=
  match rest with
  | [] => first
  | second :: others => root (join first second) (joinLevel others)
termination_by rest.length
decreasing_by
  exact Nat.lt_succ_of_le (length_joinLevel_le others)

/-- The leaves of an input. -/
def leaves (bytes : List UInt8) : List Node :=
  (pieces 1024 bytes).zipIdx.map fun p => leaf p.2 p.1

/-- The bytes of a word, least significant byte first. -/
def wordBytes (w : UInt32) : List UInt8 :=
  [w.toUInt8, (w >>> 8).toUInt8, (w >>> 16).toUInt8, (w >>> 24).toUInt8]

/-- The BLAKE3 digest of a run of bytes. -/
def digest (bytes : List UInt8) : List UInt8 :=
  let top := match leaves bytes with
    | [] => leaf 0 []
    | first :: rest => root first rest
  top.rootValue.toList.flatMap wordBytes

end MultiDispatch.Digest
