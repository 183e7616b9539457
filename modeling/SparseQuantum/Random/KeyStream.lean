/-!
The key stream of the ChaCha block function with six double rounds, keyed from a 64-bit seed. The
key words are the outputs of a permuted congruential generator started at the seed; blocks are
numbered from 0, and their words are taken in pairs, the low half first.
-/

namespace SparseQuantum.KeyStream

def rotateLeft (word count : UInt32) : UInt32 :=
  if count % 32 = 0 then word else (word <<< (count % 32)) ||| (word >>> (32 - count % 32))

def rotateRight (word count : UInt32) : UInt32 :=
  if count % 32 = 0 then word else (word >>> (count % 32)) ||| (word <<< (32 - count % 32))

def nextKeyState (state : UInt64) : UInt64 := state * 6364136223846793005 + 11634580027462260723

def keyWord (state : UInt64) : UInt32 :=
  let folded := (((state >>> 18) ^^^ state) >>> 27).toUInt32
  rotateRight folded (state >>> 59).toUInt32

def keyWords (state : UInt64) : Nat → List UInt32
  | 0 => []
  | count + 1 =>
      let next := nextKeyState state
      keyWord next :: keyWords next count

structure Block where
  a : UInt32 × UInt32 × UInt32 × UInt32
  b : UInt32 × UInt32 × UInt32 × UInt32
  c : UInt32 × UInt32 × UInt32 × UInt32
  d : UInt32 × UInt32 × UInt32 × UInt32

def quarterRound (a b c d : UInt32) : UInt32 × UInt32 × UInt32 × UInt32 :=
  let a := a + b
  let d := rotateLeft (d ^^^ a) 16
  let c := c + d
  let b := rotateLeft (b ^^^ c) 12
  let a := a + b
  let d := rotateLeft (d ^^^ a) 8
  let c := c + d
  let b := rotateLeft (b ^^^ c) 7
  (a, b, c, d)

def columnRound : Block → Block
  | ⟨(a0, a1, a2, a3), (b0, b1, b2, b3), (c0, c1, c2, c3), (d0, d1, d2, d3)⟩ =>
      let (a0, b0, c0, d0) := quarterRound a0 b0 c0 d0
      let (a1, b1, c1, d1) := quarterRound a1 b1 c1 d1
      let (a2, b2, c2, d2) := quarterRound a2 b2 c2 d2
      let (a3, b3, c3, d3) := quarterRound a3 b3 c3 d3
      ⟨(a0, a1, a2, a3), (b0, b1, b2, b3), (c0, c1, c2, c3), (d0, d1, d2, d3)⟩

/-- Turns the later rows, so that a column round mixes the diagonals. -/
def turnRows : Block → Block
  | ⟨a, (b0, b1, b2, b3), (c0, c1, c2, c3), (d0, d1, d2, d3)⟩ =>
      ⟨a, (b1, b2, b3, b0), (c2, c3, c0, c1), (d3, d0, d1, d2)⟩

def turnRowsBack : Block → Block
  | ⟨a, (b0, b1, b2, b3), (c0, c1, c2, c3), (d0, d1, d2, d3)⟩ =>
      ⟨a, (b3, b0, b1, b2), (c2, c3, c0, c1), (d1, d2, d3, d0)⟩

def doubleRound (block : Block) : Block :=
  turnRowsBack (columnRound (turnRows (columnRound block)))

def addRows (left right : UInt32 × UInt32 × UInt32 × UInt32) : List UInt32 :=
  [left.1 + right.1, left.2.1 + right.2.1, left.2.2.1 + right.2.2.1, left.2.2.2 + right.2.2.2]

def blockWords (key : List UInt32) (counter : UInt64) : List UInt32 :=
  let k := fun index => key[index]?.getD 0
  let start : Block :=
    ⟨(0x61707865, 0x3320646e, 0x79622d32, 0x6b206574), (k 0, k 1, k 2, k 3), (k 4, k 5, k 6, k 7),
      (counter.toUInt32, (counter >>> 32).toUInt32, 0, 0)⟩
  let mixed := Nat.repeat doubleRound 6 start
  addRows mixed.a start.a ++ addRows mixed.b start.b ++ addRows mixed.c start.c ++
    addRows mixed.d start.d

def word (seed : UInt64) (index : Nat) : UInt64 :=
  let words := blockWords (keyWords seed 8) (UInt64.ofNat (index / 8))
  let half := fun place => (words[place]?.getD 0).toUInt64
  half (2 * (index % 8)) ||| (half (2 * (index % 8) + 1) <<< 32)

end SparseQuantum.KeyStream
