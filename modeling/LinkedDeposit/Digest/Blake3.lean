/-!
# BLAKE3

The hash function BLAKE3, for its first 32 bytes. The input is cut into chunks of 1024 bytes, each
chunk into blocks of 64. A node of the hash tree is kept as the last compression still to be made
(`Node`), because the root's differs from the others by a flag.
-/

namespace LinkedDeposit.Blake3

/-- The initial chaining value. -/
def start : Array UInt32 :=
  #[0x6A09E667, 0xBB67AE85, 0x3C6EF372, 0xA54FF53A, 0x510E527F, 0x9B05688C, 0x1F83D9AB, 0x5BE0CD19]

/-- The order in which a round takes the words of the round before. -/
def permutation : List Nat := [2, 6, 3, 10, 7, 0, 4, 13, 1, 11, 12, 5, 9, 14, 15, 8]

def chunkStart : UInt32 := 1
def chunkEnd : UInt32 := 2
def parent : UInt32 := 4
def root : UInt32 := 8

def word (a : Array UInt32) (i : Nat) : UInt32 := a.getD i 0

def rotateRight (x : UInt32) (n : UInt32) : UInt32 := (x >>> n) ||| (x <<< (32 - n))

/-- Mixes two message words into four words of the state. -/
def mix (s : Array UInt32) (a b c d : Nat) (x y : UInt32) : Array UInt32 :=
  let s := s.setIfInBounds a (word s a + word s b + x)
  let s := s.setIfInBounds d (rotateRight (word s d ^^^ word s a) 16)
  let s := s.setIfInBounds c (word s c + word s d)
  let s := s.setIfInBounds b (rotateRight (word s b ^^^ word s c) 12)
  let s := s.setIfInBounds a (word s a + word s b + y)
  let s := s.setIfInBounds d (rotateRight (word s d ^^^ word s a) 8)
  let s := s.setIfInBounds c (word s c + word s d)
  s.setIfInBounds b (rotateRight (word s b ^^^ word s c) 7)

/-- Mixes the columns, then the diagonals. -/
def round (s m : Array UInt32) : Array UInt32 :=
  let s := mix s 0 4 8 12 (word m 0) (word m 1)
  let s := mix s 1 5 9 13 (word m 2) (word m 3)
  let s := mix s 2 6 10 14 (word m 4) (word m 5)
  let s := mix s 3 7 11 15 (word m 6) (word m 7)
  let s := mix s 0 5 10 15 (word m 8) (word m 9)
  let s := mix s 1 6 11 12 (word m 10) (word m 11)
  let s := mix s 2 7 8 13 (word m 12) (word m 13)
  mix s 3 4 9 14 (word m 14) (word m 15)

def permute (m : Array UInt32) : Array UInt32 := (permutation.map (word m)).toArray

def rounds : Nat → Array UInt32 → Array UInt32 → Array UInt32
  | 0, s, _ => s
  | n + 1, s, m => rounds n (round s m) (permute m)

/-- A compression still to be made. -/
structure Node where
  chaining : Array UInt32
  block : Array UInt32
  counter : Nat
  length : Nat
  flags : UInt32

/-- The first eight words of the compression, with extra flags. -/
def Node.compress (n : Node) (extra : UInt32) : Array UInt32 :=
  let s := n.chaining ++ start.extract 0 4 ++
    #[n.counter.toUInt32, (n.counter / 0x100000000).toUInt32, n.length.toUInt32, n.flags ||| extra]
  let s := rounds 7 s n.block
  ((List.range 8).map fun i => word s i ^^^ word s (i + 8)).toArray

/-- Sixteen little-endian words; missing bytes are zero. -/
def blockWords (bytes : List UInt8) : Array UInt32 :=
  let array := bytes.toArray
  let byte (i : Nat) : UInt32 := (array.getD i 0).toUInt32
  ((List.range 16).map fun i =>
    byte (4 * i) ||| byte (4 * i + 1) <<< 8 ||| byte (4 * i + 2) <<< 16 |||
      byte (4 * i + 3) <<< 24).toArray

/-- The pieces of a length that a list falls into; an empty list is one empty piece. -/
def pieces (size : Nat) (l : List UInt8) : List (List UInt8) :=
  (List.range (max 1 ((l.length + size - 1) / size))).map fun i => (l.drop (i * size)).take size

/-- Chains the blocks of a chunk up to the last one. -/
def chainBlocks (counter : Nat) (chaining : Array UInt32) (first : UInt32) :
    List (List UInt8) → Node
  | [] => ⟨chaining, blockWords [], counter, 0, first ||| chunkEnd⟩
  | [b] => ⟨chaining, blockWords b, counter, b.length, first ||| chunkEnd⟩
  | b :: rest =>
    let node : Node := ⟨chaining, blockWords b, counter, b.length, first⟩
    chainBlocks counter (node.compress 0) 0 rest

def chunkNode (counter : Nat) (bytes : List UInt8) : Node :=
  chainBlocks counter start chunkStart (pieces 64 bytes)

/-- The parent of two nodes. -/
def join (l r : Node) : Node := ⟨start, l.compress 0 ++ r.compress 0, 0, 64, parent⟩

/-- The tree over some nodes. The left part holds the largest power of two of them that leaves at
least one for the right part; the fuel is their number. -/
def tree : (fuel : Nat) → List Node → Node
  | _, [] => chunkNode 0 []
  | _, [n] => n
  | 0, n :: _ => n
  | fuel + 1, nodes =>
    let half := Nat.pow 2 (nodes.length - 1).log2
    join (tree fuel (nodes.take half)) (tree fuel (nodes.drop half))

/-- The hash of some bytes, as eight little-endian words. -/
def hash (bytes : List UInt8) : List UInt32 :=
  let chunks := pieces 1024 bytes
  let nodes := chunks.zipIdx.map fun (c, i) => chunkNode i c
  ((tree nodes.length nodes).compress root).toList

/-- The bytes of the hash. -/
def hashBytes (bytes : List UInt8) : List UInt8 :=
  (hash bytes).flatMap fun (w : UInt32) =>
    [w.toUInt8, (w >>> 8).toUInt8, (w >>> 16).toUInt8, (w >>> 24).toUInt8]

end LinkedDeposit.Blake3
