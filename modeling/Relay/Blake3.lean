import Relay.Bytes

/-!
# BLAKE3

The hash function, 256 bits of output, without key. The state of a compression is four rows of
four words; a round mixes the columns, turns the rows so that diagonals stand in columns, mixes
again and turns back. The input is a list of chunks whose nodes are paired level by level, an
odd one rising unchanged, until the root is left.
-/

namespace Relay.Blake3

structure Row where
  a : UInt32
  b : UInt32
  c : UInt32
  d : UInt32

namespace Row

def add (x y : Row) : Row := ⟨x.a + y.a, x.b + y.b, x.c + y.c, x.d + y.d⟩

def xor (x y : Row) : Row := ⟨x.a ^^^ y.a, x.b ^^^ y.b, x.c ^^^ y.c, x.d ^^^ y.d⟩

def rotateWord (w n : UInt32) : UInt32 := (w >>> n) ||| (w <<< (32 - n))

/-- Turns every word right by `n` bits. -/
def rotate (x : Row) (n : UInt32) : Row :=
  ⟨rotateWord x.a n, rotateWord x.b n, rotateWord x.c n, rotateWord x.d n⟩

/-- Turns the row itself left by one place. -/
def turn (x : Row) : Row := ⟨x.b, x.c, x.d, x.a⟩

def words (x : Row) : List UInt32 := [x.a, x.b, x.c, x.d]

end Row

/-- A chaining value. -/
structure Chain where
  low : Row
  high : Row

/-- The sixteen words of a block. -/
structure Message where
  m0 : Row
  m1 : Row
  m2 : Row
  m3 : Row

def initial : Chain :=
  ⟨⟨0x6a09e667, 0xbb67ae85, 0x3c6ef372, 0xa54ff53a⟩,
    ⟨0x510e527f, 0x9b05688c, 0x1f83d9ab, 0x5be0cd19⟩⟩

/-- The order of the words for the next round. -/
def Message.permute (m : Message) : Message :=
  ⟨⟨m.m0.c, m.m1.c, m.m0.d, m.m2.c⟩, ⟨m.m1.d, m.m0.a, m.m1.a, m.m3.b⟩,
    ⟨m.m0.b, m.m2.d, m.m3.a, m.m1.b⟩, ⟨m.m2.b, m.m3.c, m.m3.d, m.m2.a⟩⟩

structure State where
  r0 : Row
  r1 : Row
  r2 : Row
  r3 : Row

namespace State

/-- Mixes every column with two message words. -/
def mix (s : State) (x y : Row) : State :=
  let r0 := (s.r0.add s.r1).add x
  let r3 := (s.r3.xor r0).rotate 16
  let r2 := s.r2.add r3
  let r1 := (s.r1.xor r2).rotate 12
  let r0 := (r0.add r1).add y
  let r3 := (r3.xor r0).rotate 8
  let r2 := r2.add r3
  let r1 := (r1.xor r2).rotate 7
  ⟨r0, r1, r2, r3⟩

def diagonal (s : State) : State :=
  ⟨s.r0, s.r1.turn, s.r2.turn.turn, s.r3.turn.turn.turn⟩

def upright (s : State) : State :=
  ⟨s.r0, s.r1.turn.turn.turn, s.r2.turn.turn, s.r3.turn⟩

def round (s : State) (m : Message) : State :=
  let s := s.mix ⟨m.m0.a, m.m0.c, m.m1.a, m.m1.c⟩ ⟨m.m0.b, m.m0.d, m.m1.b, m.m1.d⟩
  let s := s.diagonal.mix ⟨m.m2.a, m.m2.c, m.m3.a, m.m3.c⟩ ⟨m.m2.b, m.m2.d, m.m3.b, m.m3.d⟩
  s.upright

def rounds (s : State) (m : Message) : Nat → State
  | 0 => s
  | n + 1 => rounds (s.round m) m.permute n

end State

/-! ### Nodes of the tree -/

def chunkStart : UInt32 := 1
def chunkEnd : UInt32 := 2
def parentFlag : UInt32 := 4
def rootFlag : UInt32 := 8

/-- What is compressed last for a chunk or a pair of subtrees. -/
structure Node where
  chain : Chain
  block : Message
  counter : Nat
  length : Nat
  flags : UInt32

/-- The chaining value a node compresses to, with further flags. -/
def Node.compress (n : Node) (flags : UInt32) : Chain :=
  let tail : Row :=
    ⟨UInt32.ofNat (n.counter % 2 ^ 32), UInt32.ofNat (n.counter / 2 ^ 32), UInt32.ofNat n.length,
      n.flags ||| flags⟩
  let s := State.rounds ⟨n.chain.low, n.chain.high, initial.low, tail⟩ n.block 7
  ⟨s.r0.xor s.r2, s.r1.xor s.r3⟩

/-- A word from its bytes, the least significant first. Missing bytes are zero. -/
def word (bs : Bytes) : UInt32 := UInt32.ofNat (ofLittleEndian (bs.take 4))

def row (bs : Bytes) : Row :=
  ⟨word bs, word (bs.drop 4), word (bs.drop 8), word (bs.drop 12)⟩

/-- A block of up to 64 bytes, filled up with zeros. -/
def Message.ofBytes (bs : Bytes) : Message :=
  ⟨row bs, row (bs.drop 16), row (bs.drop 32), row (bs.drop 48)⟩

/-- The node of the chunk whose blocks are given, compressed up to its last block. -/
def chunkFrom (chain : Chain) (counter : Nat) (flags : UInt32) : List Bytes → Node
  | [] => ⟨chain, .ofBytes [], counter, 0, flags ||| chunkEnd⟩
  | [block] => ⟨chain, .ofBytes block, counter, block.length, flags ||| chunkEnd⟩
  | block :: rest =>
    chunkFrom (Node.compress ⟨chain, .ofBytes block, counter, block.length, flags⟩ 0) counter 0 rest

def chunk (counter : Nat) (bs : Bytes) : Node :=
  chunkFrom initial counter chunkStart (runs 64 bs)

def parent (left right : Node) : Node :=
  let l := left.compress 0
  let r := right.compress 0
  ⟨initial, ⟨l.low, l.high, r.low, r.high⟩, 0, 64, parentFlag⟩

/-- Pairs the nodes of one level. -/
def pairs : List Node → List Node
  | left :: right :: rest => parent left right :: pairs rest
  | rest => rest

/-- Pairs until one node is left, at most `levels` times. -/
def root (first : Node) : Nat → List Node → Node
  | _, [] => first
  | _, [n] => n
  | 0, n :: _ => n
  | levels + 1, ns => root first levels (pairs ns)

def chunks (bs : Bytes) : List Node := (runs 1024 bs).mapIdx chunk

def wordBytes (w : UInt32) : Bytes := littleEndian 4 w.toNat

def rowBytes (r : Row) : Bytes :=
  wordBytes r.a ++ wordBytes r.b ++ wordBytes r.c ++ wordBytes r.d

def Chain.bytes (c : Chain) : Bytes := rowBytes c.low ++ rowBytes c.high

theorem Chain.length_bytes (c : Chain) : c.bytes.length = 32 := by
  simp [Chain.bytes, rowBytes, wordBytes]

/-- The hash of a byte string, 32 bytes. -/
def hash (bs : Bytes) : Bytes :=
  let nodes := chunks bs
  ((root (chunk 0 []) nodes.length nodes).compress rootFlag).bytes

theorem length_hash (bs : Bytes) : (hash bs).length = 32 := Chain.length_bytes _

end Relay.Blake3
