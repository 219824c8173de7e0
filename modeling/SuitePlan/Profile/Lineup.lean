import SuitePlan.Catalog.Basic

/-!
# Lineups

A lineup is a profile with everything settled: the scenarios to run, in the order in which they run.
Early runs come first and late ones last; within a placement the runs keep their order. A number of
runs that is asked for is reached by repeating the whole order, or cutting it.
-/

namespace SuitePlan

/-- One run of a scenario. -/
structure Run where
  scenario : String
  placement : Placement
  /-- The profile that lists the scenario. -/
  profile : String
  extras : Table String
  deriving DecidableEq

/-- The runs of a profile in their order. -/
structure Lineup where
  /-- The profile. -/
  name : String
  runs : List Run
  deriving DecidableEq

namespace Lineup

/-- The runs of one placement. -/
def placed (p : Placement) (runs : List Run) : List Run :=
  runs.filter fun run => run.placement == p

/-- The runs in the order of their placements. -/
def arrange (runs : List Run) : List Run :=
  placed .early runs ++ placed .middle runs ++ placed .late runs

/-- The first `count` elements of the list repeated without end. -/
def cycled (count : Nat) (xs : List α) : List α :=
  let a := xs.toArray
  if h : 0 < a.size then
    (List.range count).map fun i =>
      have := Nat.mod_lt i h
      a[i % a.size]
  else []

/-- The runs repeated or cut to a number that is asked for. -/
def fit : Option UInt64 → List Run → List Run
  | none, runs => runs
  | some count, runs => cycled count.toNat runs

/-- The scenarios of the runs. -/
def scenarioNames (l : Lineup) : List String :=
  l.runs.map Run.scenario

@[simp] theorem cycled_nil (count : Nat) : cycled count ([] : List α) = [] := by
  simp [cycled]

/-- Any number of elements is reached unless there are none to repeat. -/
theorem length_cycled (count : Nat) {xs : List α} (h : xs ≠ []) :
    (cycled count xs).length = count := by
  simp [cycled, List.length_pos_iff.mpr h]

theorem getElem?_cycled {count i : Nat} {xs : List α} (h : i < count) :
    (cycled count xs)[i]? = xs[i % xs.length]? := by
  cases xs with
  | nil => simp
  | cons x rest => simp [cycled, h]

/-- Runs are neither lost nor added when they are put in order. -/
theorem length_arrange (runs : List Run) : (arrange runs).length = runs.length := by
  induction runs with
  | nil => rfl
  | cons run rest ih =>
    simp only [arrange, placed, List.length_append, List.filter_cons] at ih ⊢
    cases run.placement <;> simp <;> omega

/-- Runs stay under a bound if the number that is asked for is under it as well. -/
theorem length_fit_le {count : Option UInt64} {runs : List Run} {bound : Nat}
    (hcount : ∀ k, count = some k → k.toNat ≤ bound) (hruns : runs.length ≤ bound) :
    (fit count runs).length ≤ bound := by
  cases count with
  | none => exact hruns
  | some k =>
    rw [fit]
    by_cases hnil : runs = []
    · rw [hnil, cycled_nil]
      exact Nat.zero_le _
    · rw [length_cycled k.toNat hnil]
      exact hcount k rfl

end Lineup

end SuitePlan
