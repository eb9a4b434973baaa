/-! The BLAKE3 digest.  Chunks of 1024 bytes are the leaves of a binary tree in
which every left subtree is complete; a node's chaining value comes from one
compression, and the root's compression gives the digest. -/

namespace ImportAtlas.Blake3

abbrev Chaining := Vector UInt32 8

abbrev Block := Vector UInt32 16

def initialChaining : Chaining :=
  #v[0x6A09E667, 0xBB67AE85, 0x3C6EF372, 0xA54FF53A, 0x510E527F, 0x9B05688C, 0x1F83D9AB, 0x5BE0CD19]

def chunkStart : UInt32 := 1

def chunkEnd : UInt32 := 2

def parentNode : UInt32 := 4

def rootNode : UInt32 := 8

def rotateRight (x : UInt32) (n : UInt32) : UInt32 := (x >>> n) ||| (x <<< (32 - n))

def mix (a b c d : Fin 16) (x y : UInt32) (s : Block) : Block :=
  let s := s.set a (s[a] + s[b] + x)
  let s := s.set d (rotateRight (s[d] ^^^ s[a]) 16)
  let s := s.set c (s[c] + s[d])
  let s := s.set b (rotateRight (s[b] ^^^ s[c]) 12)
  let s := s.set a (s[a] + s[b] + y)
  let s := s.set d (rotateRight (s[d] ^^^ s[a]) 8)
  let s := s.set c (s[c] + s[d])
  s.set b (rotateRight (s[b] ^^^ s[c]) 7)

def round (m s : Block) : Block :=
  let s := mix 0 4 8 12 m[0] m[1] s
  let s := mix 1 5 9 13 m[2] m[3] s
  let s := mix 2 6 10 14 m[4] m[5] s
  let s := mix 3 7 11 15 m[6] m[7] s
  let s := mix 0 5 10 15 m[8] m[9] s
  let s := mix 1 6 11 12 m[10] m[11] s
  let s := mix 2 7 8 13 m[12] m[13] s
  mix 3 4 9 14 m[14] m[15] s

def permute (m : Block) : Block :=
  #v[m[2], m[6], m[3], m[10], m[7], m[0], m[4], m[13], m[1], m[11], m[12], m[5], m[9], m[14], m[15],
    m[8]]

def rounds : Nat → Block → Block → Block
  | 0, _, s => s
  | n + 1, m, s => rounds n (permute m) (round m s)

structure Node where
  chaining : Chaining
  block : Block
  counter : Nat
  length : Nat
  flags : UInt32

namespace Node

def chainingWith (flags : UInt32) (n : Node) : Chaining :=
  let h := n.chaining
  let s := rounds 7 n.block
    #v[h[0], h[1], h[2], h[3], h[4], h[5], h[6], h[7],
      initialChaining[0], initialChaining[1], initialChaining[2], initialChaining[3],
      UInt32.ofNat n.counter, UInt32.ofNat (n.counter / 4294967296), UInt32.ofNat n.length,
      n.flags ||| flags]
  Vector.ofFn fun i => s[i.val] ^^^ s[i.val + 8]

def value (n : Node) : Chaining := n.chainingWith 0

def parent (left right : Node) : Node where
  chaining := initialChaining
  block := (left.value ++ right.value).cast rfl
  counter := 0
  length := 64
  flags := parentNode

end Node

def pieces {α : Type} (size : Nat) : List α → List (List α)
  | [] => []
  | x :: xs => (x :: xs.take (size - 1)) :: pieces size (xs.drop (size - 1))
termination_by l => l.length
decreasing_by
  simp only [List.length_drop, List.length_cons]
  omega

def word (bytes : List UInt8) : UInt32 :=
  bytes.foldr (fun b w => (w <<< 8) ||| b.toUInt32) 0

def blockWords (bytes : List UInt8) : Block :=
  Vector.ofFn fun i => word ((bytes.drop (4 * i.val)).take 4)

def chunkNode (index : Nat) : Chaining → UInt32 → List UInt8 → List (List UInt8) → Node
  | chaining, flags, last, [] =>
    ⟨chaining, blockWords last, index, last.length, flags ||| chunkEnd⟩
  | chaining, flags, block, next :: rest =>
    chunkNode index (Node.value ⟨chaining, blockWords block, index, block.length, flags⟩) 0 next
      rest

def leaf (index : Nat) (bytes : List UInt8) : Node :=
  match pieces 64 bytes with
  | [] => chunkNode index initialChaining chunkStart [] []
  | first :: rest => chunkNode index initialChaining chunkStart first rest

def leavesFrom (index : Nat) : List (List UInt8) → List Node
  | [] => []
  | bytes :: rest => leaf index bytes :: leavesFrom (index + 1) rest

/-- The size of the left subtree over `n` nodes: the largest power of two that
leaves something to the right. -/
def leftSize (n : Nat) : Nat := 1 <<< (n - 1).log2

theorem leftSize_eq (n : Nat) : leftSize n = Nat.pow 2 (n - 1).log2 := by
  rw [leftSize, Nat.one_shiftLeft]
  rfl

theorem leftSize_pos (n : Nat) : 0 < leftSize n := by
  rw [leftSize_eq]
  exact Nat.two_pow_pos _

def root (first : Node) (rest : List Node) : Node :=
  match _hr : rest.drop (leftSize (rest.length + 1) - 1) with
  | [] => first
  | middle :: right =>
    Node.parent (root first (rest.take (leftSize (rest.length + 1) - 1))) (root middle right)
termination_by rest.length
decreasing_by all_goals
  have hlength := congrArg List.length _hr
  have hpos := leftSize_pos (rest.length + 1)
  simp only [List.length_drop, List.length_cons, List.length_take] at hlength ⊢
  omega

def hexPair (b : Nat) : List Char :=
  let digit (n : Nat) := Char.ofNat (if n < 10 then 48 + n else 87 + n)
  [digit (b / 16), digit (b % 16)]

def hex (bytes : List UInt8) : List Char :=
  let top := match leavesFrom 0 (pieces 1024 bytes) with
    | [] => leaf 0 []
    | first :: rest => root first rest
  (top.chainingWith rootNode).toList.flatMap fun w =>
    hexPair (w.toNat % 256) ++ hexPair (w.toNat / 256 % 256) ++
      hexPair (w.toNat / 65536 % 256) ++ hexPair (w.toNat / 16777216)

end ImportAtlas.Blake3
