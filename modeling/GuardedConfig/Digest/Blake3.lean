import GuardedConfig.Decimal.Power

/-!
# `Digest.Blake3` — the BLAKE3 hash of a byte list

The input is cut into chunks of 1024 bytes. A chunk is compressed block by block, 64 bytes at a time; the
chaining values of the chunks are joined in a binary tree, whose left subtrees are full and as large as
possible. The root of the tree gives 32 bytes.

## Contents

* `compress` — seven rounds over sixteen words
* `Node`, `Node.chaining`, `Node.root` — a compression that has not been run yet
* `chunkNode`, `treeNode` — one chunk, and any number of bytes
* `hash`, `hexDigest` — the digest
-/

namespace GuardedConfig.Digest

open Decimal

/-- The eight initial words. -/
def initial : Array UInt32 :=
  #[0x6A09E667, 0xBB67AE85, 0x3C6EF372, 0xA54FF53A, 0x510E527F, 0x9B05688C, 0x1F83D9AB, 0x5BE0CD19]

/-- The order in which the message words of one round are used in the next. -/
def permutation : Array Nat := #[2, 6, 3, 10, 7, 0, 4, 13, 1, 11, 12, 5, 9, 14, 15, 8]

/-- A word of a list of words. -/
def word (ws : Array UInt32) (i : Nat) : UInt32 := ws.getD i 0

/-- Rotation to the right; the amount is between 1 and 31. -/
def rotateRight (w : UInt32) (n : UInt32) : UInt32 := (w >>> n) ||| (w <<< (32 - n))

/-- Mixes two message words into four words of the state. -/
def mix (v : Array UInt32) (a b c d : Nat) (x y : UInt32) : Array UInt32 :=
  let va := word v a + word v b + x
  let vd := rotateRight (word v d ^^^ va) 16
  let vc := word v c + vd
  let vb := rotateRight (word v b ^^^ vc) 12
  let va := va + vb + y
  let vd := rotateRight (vd ^^^ va) 8
  let vc := vc + vd
  let vb := rotateRight (vb ^^^ vc) 7
  (((v.setIfInBounds a va).setIfInBounds b vb).setIfInBounds c vc).setIfInBounds d vd

/-- One round: the columns of the state, then its diagonals. -/
def round (v m : Array UInt32) : Array UInt32 :=
  let v := mix v 0 4 8 12 (word m 0) (word m 1)
  let v := mix v 1 5 9 13 (word m 2) (word m 3)
  let v := mix v 2 6 10 14 (word m 4) (word m 5)
  let v := mix v 3 7 11 15 (word m 6) (word m 7)
  let v := mix v 0 5 10 15 (word m 8) (word m 9)
  let v := mix v 1 6 11 12 (word m 10) (word m 11)
  let v := mix v 2 7 8 13 (word m 12) (word m 13)
  mix v 3 4 9 14 (word m 14) (word m 15)

/-- `n` rounds, the message permuted between them. -/
def rounds : Nat → Array UInt32 → Array UInt32 → Array UInt32
  | 0, v, _ => v
  | n + 1, v, m => rounds n (round v m) (permutation.map (word m))

/-- The sixteen words of the state after all rounds, with the halves joined. -/
def compress (chaining block : Array UInt32) (counter : Nat) (length flags : UInt32) : Array UInt32 :=
  let start := chaining ++ #[word initial 0, word initial 1, word initial 2, word initial 3,
    UInt32.ofNat counter, UInt32.ofNat (counter / 0x100000000), length, flags]
  let v := rounds 7 start block
  (Array.range 16).map fun i =>
    if i < 8 then word v i ^^^ word v (i + 8) else word v i ^^^ word chaining (i - 8)

/-! ## The tree -/

/-- Marks of a compression: the first and last block of a chunk, an inner node, the root. -/
def chunkStart : UInt32 := 1
@[inherit_doc chunkStart] def chunkEnd : UInt32 := 2
@[inherit_doc chunkStart] def parent : UInt32 := 4
@[inherit_doc chunkStart] def root : UInt32 := 8

/-- The inputs of the last compression of a subtree. -/
structure Node where
  chaining : Array UInt32
  block : Array UInt32
  counter : Nat
  length : UInt32
  flags : UInt32

/-- The chaining value of an inner subtree. -/
def Node.value (n : Node) : Array UInt32 :=
  (compress n.chaining n.block n.counter n.length n.flags).extract 0 8

/-- The words of the digest, if the subtree is the whole tree. -/
def Node.root (n : Node) : Array UInt32 :=
  (compress n.chaining n.block 0 n.length (n.flags ||| Digest.root)).extract 0 8

/-- Four bytes as a word, the first byte lowest. -/
def bytesWord (bs : List UInt8) : UInt32 := bs.foldr (fun b w => w * 256 + UInt32.ofNat b.toNat) 0

/-- The sixteen words of at most 64 bytes, filled up with zeros. -/
def blockWords (bs : List UInt8) : Array UInt32 :=
  (Array.range 16).map fun i => bytesWord (((bs.drop (4 * i)).take 4))

/-- The last block of a chunk, after compressing the blocks before it. -/
def chunkNode (counter : Nat) (chaining : Array UInt32) (mark : UInt32) (bs : List UInt8) : Node :=
  if bs.length ≤ 64 then
    ⟨chaining, blockWords bs, counter, UInt32.ofNat bs.length, mark ||| chunkEnd⟩
  else
    let next := (compress chaining (blockWords (bs.take 64)) counter 64 mark).extract 0 8
    chunkNode counter next 0 (bs.drop 64)
termination_by bs.length
decreasing_by simp only [List.length_drop]; omega

/-- The largest power of two times 1024 that is less than `n`, for `n` above 1024. -/
def leftLength (n : Nat) : Nat := 1024 * twoTo ((n - 1) / 1024).log2

theorem leftLength_pos (n : Nat) : 0 < leftLength n := by
  have := twoTo_pos ((n - 1) / 1024).log2
  unfold leftLength
  omega

theorem leftLength_lt {n : Nat} (h : 1024 < n) : leftLength n < n := by
  have hne : (n - 1) / 1024 ≠ 0 := by omega
  have := Nat.log2_self_le hne
  simp only [leftLength, twoTo, Nat.pow_eq]
  omega

/-- The subtree over some bytes, the first of which begins the chunk with number `counter`. -/
def treeNode (counter : Nat) (bs : List UInt8) : Node :=
  if _h : bs.length ≤ 1024 then chunkNode counter initial chunkStart bs
  else
    let n := leftLength bs.length
    let left := (treeNode counter (bs.take n)).value
    let right := (treeNode (counter + n / 1024) (bs.drop n)).value
    ⟨initial, left ++ right, 0, 64, parent⟩
termination_by bs.length
decreasing_by
  · have := leftLength_lt (n := bs.length) (by omega)
    simp only [List.length_take]; omega
  · have := leftLength_pos bs.length
    simp only [List.length_drop]; omega

/-- The four bytes of a word, the lowest first. -/
def wordBytes (w : UInt32) : List UInt8 :=
  [w.toUInt8, (w >>> 8).toUInt8, (w >>> 16).toUInt8, (w >>> 24).toUInt8]

/-- The 32 bytes of the digest. -/
def hash (bs : List UInt8) : List UInt8 := (treeNode 0 bs).root.toList.flatMap wordBytes

/-- A hexadecimal digit, lower case. -/
def hexChar (d : Nat) : Char := if d < 10 then Char.ofNat (48 + d) else Char.ofNat (87 + d)

/-- The digest of a text in hexadecimal digits. -/
def hexDigest (text : String) : String :=
  String.ofList ((hash text.toUTF8.toList).flatMap fun b => [hexChar (b.toNat / 16), hexChar (b.toNat % 16)])

end GuardedConfig.Digest
