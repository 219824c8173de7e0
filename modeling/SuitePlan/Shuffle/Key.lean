/-!
# Keys from seeds

A seed of 64 bits is expanded to a key of eight 32-bit words: a linear congruential sequence runs
from the seed, and each of its states gives one word.
-/

namespace SuitePlan.Shuffle

/-- The state after another in the sequence that a key is taken from. -/
def nextState (state : UInt64) : UInt64 :=
  state * 6364136223846793005 + 11634580027462260723

/-- The state `n` places after another. -/
def stateAfter : Nat → UInt64 → UInt64
  | 0, state => state
  | n + 1, state => stateAfter n (nextState state)

/-- A word with its bits turned to the right by an amount below 32. -/
def rotateRight (x amount : UInt32) : UInt32 :=
  (x >>> amount) ||| (x <<< (32 - amount))

/-- The word that a state gives: some of its upper bits, folded and turned by the topmost five. -/
def stateWord (state : UInt64) : UInt32 :=
  rotateRight (((state >>> 18) ^^^ state) >>> 27).toUInt32 (state >>> 59).toUInt32

/-- A key. -/
abbrev Key := Vector UInt32 8

/-- The key of a seed. -/
def keyOfSeed (seed : UInt64) : Key :=
  Vector.ofFn fun i => stateWord (stateAfter (i.val + 1) seed)

end SuitePlan.Shuffle
