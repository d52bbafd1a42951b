import DomainDesign.Power

/-!
# BLAKE3

The plain hash of 32 bytes, on lists of bytes.

The input is cut into chunks of 1024 bytes and each chunk into blocks of 64.  `compress` mixes a
block into a chaining value of eight words.  The blocks of a chunk are compressed one after the
other; the chunks are the leaves of a binary tree in which the left side of every node has the
largest power of two of chunks that leaves one for the right side.  A node compresses the chaining
values of its two sides.  Flags mark the first and last block of a chunk, the nodes, and the root.
-/

namespace DomainDesign.Blake3

/-! ## Words -/

/-- A chaining value: eight words. -/
abbrev Chain := List UInt32

/-- The words at the start. -/
def initial : Chain :=
  [0x6A09E667, 0xBB67AE85, 0x3C6EF372, 0xA54FF53A, 0x510E527F, 0x9B05688C, 0x1F83D9AB, 0x5BE0CD19]

/-- Marks the first block of a chunk. -/
def chunkStart : UInt32 := 1

/-- Marks the last block of a chunk. -/
def chunkEnd : UInt32 := 2

/-- Marks a node of the tree. -/
def parent : UInt32 := 4

/-- Marks the last compression of all. -/
def root : UInt32 := 8

/-- Turns a word to the right. -/
def rotate (w n : UInt32) : UInt32 :=
  (w >>> n) ||| (w <<< (32 - n))

/-- The word of four bytes, the lowest first; missing bytes are zero. -/
def word (bytes : List UInt8) : UInt32 :=
  bytes.reverse.foldl (fun w b => (w <<< 8) ||| b.toUInt32) 0

/-- The bytes of a word, the lowest first. -/
def wordBytes (w : UInt32) : List UInt8 :=
  [w.toUInt8, (w >>> 8).toUInt8, (w >>> 16).toUInt8, (w >>> 24).toUInt8]

/-- The sixteen words of a block, filled up with zeros. -/
def blockWords (bytes : List UInt8) : Array UInt32 :=
  Array.ofFn fun i : Fin 16 => word ((bytes.drop (4 * i.val)).take 4)

/-! ## Compression -/

/-- Mixes two words of a message into the four places of a state. -/
def mix (s : Array UInt32) (a b c d : Nat) (x y : UInt32) : Array UInt32 :=
  let at? (i : Nat) : UInt32 := s.getD i 0
  let a1 := at? a + at? b + x
  let d1 := rotate (at? d ^^^ a1) 16
  let c1 := at? c + d1
  let b1 := rotate (at? b ^^^ c1) 12
  let a2 := a1 + b1 + y
  let d2 := rotate (d1 ^^^ a2) 8
  let c2 := c1 + d2
  let b2 := rotate (b1 ^^^ c2) 7
  (((s.setIfInBounds a a2).setIfInBounds b b2).setIfInBounds c c2).setIfInBounds d d2

/-- The places that a round mixes: first the columns of the state, then its diagonals. -/
def places : List (Nat × Nat × Nat × Nat) :=
  [(0, 4, 8, 12), (1, 5, 9, 13), (2, 6, 10, 14), (3, 7, 11, 15),
    (0, 5, 10, 15), (1, 6, 11, 12), (2, 7, 8, 13), (3, 4, 9, 14)]

/-- One round, in which each place takes the next two words of the message. -/
def mixRound (s m : Array UInt32) : Array UInt32 :=
  places.zipIdx.foldl
    (fun s (p, i) => mix s p.1 p.2.1 p.2.2.1 p.2.2.2 (m.getD (2 * i) 0) (m.getD (2 * i + 1) 0)) s

/-- The order in which the next round takes the words of the message. -/
def schedule : List Nat :=
  [2, 6, 3, 10, 7, 0, 4, 13, 1, 11, 12, 5, 9, 14, 15, 8]

/-- The message in the order of the next round. -/
def permute (m : Array UInt32) : Array UInt32 :=
  (schedule.map fun i => m.getD i 0).toArray

/-- The given number of rounds. -/
def mixRounds : (count : Nat) → (s m : Array UInt32) → Array UInt32
  | 0, s, _ => s
  | count + 1, s, m => mixRounds count (mixRound s m) (permute m)

/-- Compresses a block of `length` bytes into a chaining value. -/
def compress (chain : Chain) (m : Array UInt32) (counter : UInt64) (length flags : UInt32) :
    Chain :=
  let start := (chain ++ initial.take 4
    ++ [counter.toUInt32, (counter >>> 32).toUInt32, length, flags]).toArray
  let s := mixRounds 7 start m
  (List.range 8).map fun i => s.getD i 0 ^^^ s.getD (i + 8) 0

/-! ## Chunks and the tree -/

/-- Compresses the blocks of a chunk; `first` marks the first one, and `last` is added to the marks
of the last one. -/
def chunkBlocks (counter : UInt64) (last : UInt32) :
    (fuel : Nat) → (first : UInt32) → (chain : Chain) → List UInt8 → Chain
  | 0, _, chain, _ => chain
  | fuel + 1, first, chain, bytes =>
    if bytes.length ≤ 64 then
      compress chain (blockWords bytes) counter bytes.length.toUInt32 (first ||| chunkEnd ||| last)
    else
      chunkBlocks counter last fuel 0
        (compress chain (blockWords (bytes.take 64)) counter 64 first) (bytes.drop 64)

/-- The chaining value of a chunk. -/
def chunk (counter : Nat) (last : UInt32) (bytes : List UInt8) : Chain :=
  chunkBlocks counter.toUInt64 last 16 chunkStart initial bytes

/-- How many of `count` chunks, which are more than one, go to the left. -/
def leftCount (count : Nat) : Nat :=
  2 ^ Nat.log2 (count - 1)

/-- The chaining value of the tree over the chunks of some bytes, of which the first has the number
`counter`.  `last` is added to the marks of the last compression. -/
def tree : (fuel : Nat) → (counter : Nat) → (last : UInt32) → List UInt8 → Chain
  | 0, counter, last, bytes => chunk counter last bytes
  | fuel + 1, counter, last, bytes =>
    if bytes.length ≤ 1024 then chunk counter last bytes
    else
      let left := leftCount ((bytes.length + 1023) / 1024)
      let below := tree fuel counter 0 (bytes.take (1024 * left))
        ++ tree fuel (counter + left) 0 (bytes.drop (1024 * left))
      compress initial below.toArray 0 64 (parent ||| last)

/-- The hash of some bytes. -/
def hash (bytes : List UInt8) : List UInt8 :=
  (tree bytes.length 0 root bytes).flatMap wordBytes

end DomainDesign.Blake3
