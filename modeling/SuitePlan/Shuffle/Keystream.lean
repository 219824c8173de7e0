import SuitePlan.Shuffle.Key

/-!
# Keystreams

A keystream is the sequence of 32-bit words that the stream cipher ChaCha with twelve rounds gives
for a key: blocks of sixteen words, counted from zero by a 64-bit counter, with a nonce of zero.
-/

namespace SuitePlan.Shuffle

/-- The sixteen words that a block is computed in. -/
abbrev Block := Vector UInt32 16

/-- A word with its bits turned to the left by an amount below 32. -/
def rotateLeft (x amount : UInt32) : UInt32 :=
  (x <<< amount) ||| (x >>> (32 - amount))

namespace Block

/-- Adds the word at `b` to the one at `a`, and mixes the sum into the word at `d`. -/
def stir (s : Block) (a b d : Fin 16) (amount : UInt32) : Block :=
  let s := s.set a (s[a] + s[b])
  s.set d (rotateLeft (s[d] ^^^ s[a]) amount)

/-- A quarter round on four words. -/
def quarter (s : Block) : Fin 16 × Fin 16 × Fin 16 × Fin 16 → Block
  | (a, b, c, d) => (((s.stir a b d 16).stir c d b 12).stir a b d 8).stir c d b 7

/-- The words of the quarter rounds in two rounds: the columns of a square, then its diagonals. -/
def quarters : List (Fin 16 × Fin 16 × Fin 16 × Fin 16) :=
  [(0, 4, 8, 12), (1, 5, 9, 13), (2, 6, 10, 14), (3, 7, 11, 15),
    (0, 5, 10, 15), (1, 6, 11, 12), (2, 7, 8, 13), (3, 4, 9, 14)]

/-- Twice as many rounds as the given number. -/
def doubleRounds : Nat → Block → Block
  | 0, s => s
  | n + 1, s => doubleRounds n (quarters.foldl quarter s)

/-- The words that a block starts from: four constants, the key, the counter and the nonce. -/
def start (key : Key) (counter : UInt64) : Block :=
  let constants : Vector UInt32 4 := #v[0x61707865, 0x3320646e, 0x79622d32, 0x6b206574]
  constants ++ key ++ #v[counter.toUInt32, (counter >>> 32).toUInt32, 0, 0]

/-- A block of the keystream. -/
def ofCounter (key : Key) (counter : UInt64) : Block :=
  let s := start key counter
  (doubleRounds 6 s).zipWith (· + ·) s

end Block

/-- What is left of a keystream. -/
structure Keystream where
  key : Key
  /-- The number of the block that is computed next. -/
  counter : UInt64
  /-- The words of the last block that have not been taken. -/
  pending : List UInt32

namespace Keystream

/-- The keystream of a seed. -/
def ofSeed (seed : Int64) : Keystream := ⟨keyOfSeed seed.toUInt64, 0, []⟩

/-- The next word, and what is left after it. -/
def next (k : Keystream) : UInt32 × Keystream :=
  match k.pending with
  | word :: rest => (word, { k with pending := rest })
  | [] =>
    let block := Block.ofCounter k.key k.counter
    (block[0], ⟨k.key, k.counter + 1, block.toList.drop 1⟩)

end Keystream

end SuitePlan.Shuffle
