/-!
# Binary64 numbers

The finite magnitudes of the 64-bit binary format, held as a significand times a power of two and
computed with exact integer arithmetic: a result is the binary64 number nearest to the exact ratio,
a tie going to the even significand, and there is none above the largest finite number.

`ofDecimal?` gives a decimal literal its number. The decimal significand and the power of ten are
each taken to the nearest binary64 number first, and then their product or quotient is, so literals
of more than fifteen digits may end one unit away from the nearest number.
-/

namespace SuitePlan

/-- The magnitude `significand · 2 ^ exponent`. The significand is below `2 ^ 53`, and at least
`2 ^ 52` unless the exponent is the least one, `-1074`. -/
structure Binary64 where
  significand : Nat
  exponent : Int
  deriving DecidableEq, Repr

namespace Binary64

/-- The least exponent of the format. -/
def leastExponent : Int := -1074

/-- The greatest exponent of the format. -/
def greatestExponent : Int := 971

/-- The number zero. -/
def zero : Binary64 := ⟨0, leastExponent⟩

/-- The quotient of `num` by `den` to the nearest integer, a half going to the even one. -/
def roundDiv (num den : Nat) : Nat :=
  let floor := num / den
  let twice := 2 * (num % den)
  if twice < den then floor
  else if den < twice then floor + 1
  else if floor % 2 = 0 then floor else floor + 1

/-- The ratio `num / den` divided by `2 ^ exponent`, again as a numerator and a denominator. -/
def scaled (num den : Nat) (exponent : Int) : Nat × Nat :=
  (num * Nat.pow 2 (-exponent).toNat, den * Nat.pow 2 exponent.toNat)

/-- The exponent at which the ratio `num / den` fills a significand of 53 bits, or the least one. -/
def exponentOf (num den : Nat) : Int :=
  let low : Int := (num.log2 : Int) - den.log2 - 53
  let (n, d) := scaled num den low
  max leastExponent (if n < d * Nat.pow 2 53 then low else low + 1)

/-- The binary64 number nearest to the ratio `num / den`, if that is not beyond the largest. -/
def nearest? (num den : Nat) : Option Binary64 :=
  if num = 0 then some zero
  else
    let exponent := exponentOf num den
    let (n, d) := scaled num den exponent
    let rounded := roundDiv n d
    let result : Binary64 :=
      if rounded = Nat.pow 2 53 then ⟨Nat.pow 2 52, exponent + 1⟩ else ⟨rounded, exponent⟩
    if greatestExponent < result.exponent then none else some result

/-- The numerator of a number's exact ratio of integers. -/
def numerator (x : Binary64) : Nat :=
  x.significand * Nat.pow 2 x.exponent.toNat

/-- The denominator of a number's exact ratio of integers. -/
def denominator (x : Binary64) : Nat :=
  Nat.pow 2 (-x.exponent).toNat

/-- The number nearest to a product. -/
def mul? (x y : Binary64) : Option Binary64 :=
  nearest? (x.numerator * y.numerator) (x.denominator * y.denominator)

/-- The number nearest to a quotient by a number that is not zero. -/
def div? (x y : Binary64) : Option Binary64 :=
  nearest? (x.numerator * y.denominator) (x.denominator * y.numerator)

/-- The greatest power of ten that is not beyond the largest number. -/
def greatestTenPower : Nat := 308

/-- The number nearest to `10 ^ n`, for `n` up to the greatest power. -/
def tenPower? (n : Nat) : Option Binary64 :=
  nearest? (Nat.pow 10 n) 1

/-- The number divided by `10 ^ n`, in steps of the greatest power of ten, each rounded. -/
def shrink? (x : Binary64) (n : Nat) : Option Binary64 :=
  if n ≤ greatestTenPower then do x.div? (← tenPower? n)
  else if x.significand = 0 then some x
  else do shrink? (← x.div? (← tenPower? greatestTenPower)) (n - greatestTenPower)
termination_by n
decreasing_by simp only [greatestTenPower] at *; omega

/-- The number multiplied by `10 ^ n`, if that is not beyond the largest. -/
def grow? (x : Binary64) (n : Nat) : Option Binary64 :=
  if n ≤ greatestTenPower then do x.mul? (← tenPower? n)
  else if x.significand = 0 then some x
  else none

/-- The number that a decimal literal `significand · 10 ^ exponent` denotes, if it is not beyond
the largest. -/
def ofDecimal? (significand : Nat) (exponent : Int) : Option Binary64 := do
  let x ← nearest? significand 1
  if exponent < 0 then x.shrink? exponent.natAbs else x.grow? exponent.natAbs

end Binary64

end SuitePlan
