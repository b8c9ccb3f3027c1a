import FilterAlgebra.Text.Basic

/-!
# BLAKE3

The unkeyed hash of octets, to thirty-two octets. Input is cut into chunks of 1024 octets and those
into blocks of 64. Blocks are compressed one after the other within a chunk, chunks in pairs as the
leaves of a binary tree, level by level; an odd last one moves up as it is. Only the root is
compressed as such, so a node keeps the input of its compression until its place is known.

The state of a compression has four rows of four words. A round mixes its columns and then its
diagonals, which are the columns of the rows rotated by none to three places.
-/

namespace FilterAlgebra.Blake3

/-! ### Rows -/

structure Row4 where
  w0 : UInt32
  w1 : UInt32
  w2 : UInt32
  w3 : UInt32
  deriving DecidableEq, Repr

namespace Row4

@[inline] def zip (f : UInt32 → UInt32 → UInt32) (a b : Row4) : Row4 :=
  ⟨f a.w0 b.w0, f a.w1 b.w1, f a.w2 b.w2, f a.w3 b.w3⟩

/-- Combines two rows by exclusive or and rotates the words to the right. -/
@[inline] def xorRotate (count : UInt32) (a b : Row4) : Row4 :=
  zip (fun x y => ((x ^^^ y) >>> count) ||| ((x ^^^ y) <<< (32 - count))) a b

/-- The row with its words moved one place to the left, the first one to the end. -/
@[inline] def turn (a : Row4) : Row4 := ⟨a.w1, a.w2, a.w3, a.w0⟩

/-- The words of a row in order. -/
def toList (a : Row4) : List UInt32 := [a.w0, a.w1, a.w2, a.w3]

end Row4

/-! ### Compression -/

structure State where
  a : Row4
  b : Row4
  c : Row4
  d : Row4
  deriving DecidableEq, Repr

/-- Half of a mixing step, with four words of the message and two amounts to rotate by. -/
@[inline] def halfMix (message : Row4) (first second : UInt32) (s : State) : State :=
  let a := s.a.zip (· + ·) (s.b.zip (· + ·) message)
  let d := s.d.xorRotate first a
  let c := s.c.zip (· + ·) d
  let b := s.b.xorRotate second c
  ⟨a, b, c, d⟩

def mix (x y : Row4) (s : State) : State := halfMix y 8 7 (halfMix x 16 12 s)

/-- The words of a message by their position. -/
def wordAt (message : Array UInt32) (i : Nat) : UInt32 := message.getD i 0

/-- Four words of a message, every other one from a position on. -/
def everyOther (message : Array UInt32) (i : Nat) : Row4 :=
  ⟨wordAt message i, wordAt message (i + 2), wordAt message (i + 4), wordAt message (i + 6)⟩

/-- A round: mixes the columns and then the diagonals. -/
def round (message : Array UInt32) (s : State) : State :=
  let s := mix (everyOther message 0) (everyOther message 1) s
  let s : State := ⟨s.a, s.b.turn, s.c.turn.turn, s.d.turn.turn.turn⟩
  let s := mix (everyOther message 8) (everyOther message 9) s
  ⟨s.a, s.b.turn.turn.turn, s.c.turn.turn, s.d.turn⟩

/-- The position from which each word of the next round is taken. -/
def schedule : List Nat := [2, 6, 3, 10, 7, 0, 4, 13, 1, 11, 12, 5, 9, 14, 15, 8]

def nextMessage (message : Array UInt32) : Array UInt32 := (schedule.map (wordAt message)).toArray

def rounds : Nat → Array UInt32 → State → State
  | 0, _, s => s
  | 1, message, s => round message s
  | count + 2, message, s => rounds (count + 1) (nextMessage message) (round message s)

/-! ### Nodes -/

/-- The first four words of the initial value. -/
def initialLow : Row4 := ⟨0x6A09E667, 0xBB67AE85, 0x3C6EF372, 0xA54FF53A⟩

/-- The last four words of the initial value. -/
def initialHigh : Row4 := ⟨0x510E527F, 0x9B05688C, 0x1F83D9AB, 0x5BE0CD19⟩

/-- The mark of the first block of a chunk. -/
def chunkStart : UInt32 := 1

/-- The mark of the last block of a chunk. -/
def chunkEnd : UInt32 := 2

/-- The mark of a node above two others. -/
def parentNode : UInt32 := 4

/-- The mark of the root of the tree. -/
def rootNode : UInt32 := 8

/-- The input of a compression: a chaining value, a block of sixteen words with the number of octets
in it, the number of its chunk, and its marks. -/
structure Node where
  low : Row4
  high : Row4
  message : Array UInt32
  counter : Nat
  blockLength : Nat
  marks : UInt32

/-- The chaining value of a node, under further marks. -/
def Node.compress (n : Node) (marks : UInt32) : Row4 × Row4 :=
  let start : State :=
    ⟨n.low, n.high, initialLow,
      ⟨.ofNat n.counter, .ofNat (n.counter / 4294967296), .ofNat n.blockLength, n.marks ||| marks⟩⟩
  let s := rounds 7 n.message start
  (s.a.zip (· ^^^ ·) s.c, s.b.zip (· ^^^ ·) s.d)

/-! ### Chunks -/

/-- The words of octets, four to a word, the lightest octet first. -/
def words : List UInt8 → List UInt32
  | a :: b :: c :: d :: rest =>
    (a.toUInt32 ||| (b.toUInt32 <<< 8) ||| (c.toUInt32 <<< 16) ||| (d.toUInt32 <<< 24))
      :: words rest
  | _ => []

/-- Pieces of a size, of which the last may be shorter; one empty piece of nothing. -/
def pieces (size : Nat) : Nat → List UInt8 → List (List UInt8)
  | 0, octets => [octets]
  | fuel + 1, octets =>
    match octets.drop size with
    | [] => [octets]
    | rest => octets.take size :: pieces size fuel rest

/-- The message of a block, filled up with zeros. -/
def blockMessage (block : List UInt8) : Array UInt32 :=
  (words (block ++ List.replicate (64 - block.length) 0)).toArray

/-- The last node of a chunk, given the chaining value and marks with which its blocks begin. -/
def chunkNode (counter : Nat) (low high : Row4) (marks : UInt32) : List (List UInt8) → Node
  | [] => ⟨low, high, blockMessage [], counter, 0, marks ||| chunkEnd⟩
  | [block] => ⟨low, high, blockMessage block, counter, block.length, marks ||| chunkEnd⟩
  | block :: rest =>
    let node : Node := ⟨low, high, blockMessage block, counter, block.length, marks⟩
    let (low, high) := node.compress 0
    chunkNode counter low high 0 rest

/-- The nodes of chunks, the first of which has the given number. -/
def leaves (counter : Nat) : List (List UInt8) → List Node
  | [] => []
  | chunk :: rest =>
    chunkNode counter initialLow initialHigh chunkStart (pieces 64 16 chunk)
      :: leaves (counter + 1) rest

/-! ### The tree -/

def parent (left right : Node) : Node :=
  let (a, b) := left.compress 0
  let (c, d) := right.compress 0
  ⟨initialLow, initialHigh, (a.toList ++ b.toList ++ c.toList ++ d.toList).toArray, 0, 64,
    parentNode⟩

def nextLevel : List Node → List Node
  | left :: right :: rest => parent left right :: nextLevel rest
  | nodes => nodes

/-- The root of the tree over nodes; `fuel` bounds the number of levels. -/
def root? : Nat → List Node → Option Node
  | _, [] => none
  | _, [node] => some node
  | 0, _ => none
  | fuel + 1, nodes => root? fuel (nextLevel nodes)

/-! ### Hashes -/

/-- The two hexadecimal digits of an octet. -/
def octetHex (octet : UInt8) : Text :=
  [Nat.digitChar (octet.toNat / 16), Nat.digitChar (octet.toNat % 16)]

/-- The hexadecimal digits of a word, octet by octet, the lightest first. -/
def wordHex (word : UInt32) : Text :=
  octetHex word.toUInt8 ++ octetHex (word >>> 8).toUInt8 ++ octetHex (word >>> 16).toUInt8
    ++ octetHex (word >>> 24).toUInt8

/-- The hash of octets, in hexadecimal digits. -/
def hash (octets : List UInt8) : Text :=
  let chunks := pieces 1024 octets.length octets
  match root? chunks.length (leaves 0 chunks) with
  | none => []
  | some node =>
    let (low, high) := node.compress rootNode
    (low.toList ++ high.toList).flatMap wordHex

end FilterAlgebra.Blake3
