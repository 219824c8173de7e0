import SuitePlan.Number.Binary64

/-!
# The shortest decimal of a binary64 number

Every real number between the midpoints to the two neighbours of a binary64 number reads back as
that number, the midpoints themselves when its significand is even. Its shortest decimal is taken
from the coarsest grid of powers of ten that has a point in this interval; of two such points the
nearer one is taken, and of two equally near ones the even one.
-/

namespace SuitePlan.Binary64

/-- The interval that rounds to a number, in quarters of its unit in the last place: the lower end,
the number itself and the upper end. Below a power of two the unit is half as large. -/
def quarters (x : Binary64) : Nat × Nat × Nat :=
  let below := if x.significand = Nat.pow 2 52 ∧ leastExponent < x.exponent then 1 else 2
  (4 * x.significand - below, 4 * x.significand, 4 * x.significand + 2)

/-- The factors that compare points `c · 10 ^ grid` of a decimal grid with quarters `n` of the unit
in the last place of `x`: the one lies below the other exactly if `c * points < n * units`. -/
def factors (x : Binary64) (grid : Int) : Nat × Nat :=
  let binary := x.exponent - 2
  (Nat.pow 10 grid.toNat * Nat.pow 2 (-binary).toNat,
    Nat.pow 2 binary.toNat * Nat.pow 10 (-grid).toNat)

/-- Whether the point `c · 10 ^ grid` reads back as `x`. -/
def readsBack (x : Binary64) (grid : Int) (c : Nat) : Bool :=
  let (low, _, high) := x.quarters
  let (points, units) := x.factors grid
  if x.significand % 2 = 0 then low * units ≤ c * points && c * points ≤ high * units
  else low * units < c * points && c * points < high * units

/-- The point of the grid `10 ^ grid` that reads back as `x` and is nearest to it, if there is
one. -/
def onGrid? (x : Binary64) (grid : Int) : Option Nat :=
  let (_, value, _) := x.quarters
  let (points, units) := x.factors grid
  let down := value * units / points
  let up := down + 1
  match x.readsBack grid down, x.readsBack grid up with
  | false, false => none
  | true, false => some down
  | false, true => some up
  | true, true =>
    let twice := 2 * (value * units)
    let middle := (down + up) * points
    if twice < middle then some down
    else if middle < twice then some up
    else if down % 2 = 0 then some down else some up

/-- The first point found on the grids from `10 ^ grid` down, and its grid. -/
def firstOnGrids (x : Binary64) : Nat → Int → Nat × Int
  | 0, grid => (0, grid)
  | fuel + 1, grid =>
    match x.onGrid? grid with
    | some c => (c, grid)
    | none => firstOnGrids x fuel (grid - 1)

/-- A grid too coarse for any point but zero: `10 ^ coarsest` is above the number. -/
def coarsest (x : Binary64) : Int :=
  ((x.significand.log2 : Int) + 1 + x.exponent) * 30103 / 100000 + 2

/-- The shortest decimal that reads back as `x`: its digits as a number and the exponent of ten that
they are multiplied by. Seventeen digits always suffice, so the search ends long before its
bound. -/
def shortest (x : Binary64) : Nat × Int :=
  if x.significand = 0 then (0, 0) else x.firstOnGrids 30 x.coarsest

end SuitePlan.Binary64
