import SuitePlan.Shuffle.Draw

/-!
# Permutations

Items are shuffled by swapping each position, from the last down to the second, with a position that
is drawn from those up to itself. The draws depend on the seed and on the number of items alone.

`permute_perm` says that items are neither lost nor added.
-/

namespace SuitePlan.Shuffle

/-- The draws for the positions from `i` down to one, put in front of `drawn` one after another, so
that the last comes first. -/
def drawOnto : Nat → Keystream → List Nat → List Nat
  | 0, _, drawn => drawn
  | i + 1, k, drawn =>
    let (j, k) := k.draw (i + 1)
    drawOnto i k (j :: drawn)

/-- The positions that the positions of `size` items, from the last down to the second, are swapped
with. -/
def draws (seed : Int64) (size : Nat) : List Nat :=
  (drawOnto (size - 1) (Keystream.ofSeed seed) []).reverse

/-- Swaps the positions from `i` down to one with the given positions. -/
def swapDown : Nat → List Nat → Array α → Array α
  | i + 1, j :: draws, items => swapDown i draws (items.swapIfInBounds (i + 1) j)
  | _, _, items => items

/-- The items in the order that a seed gives. -/
def permute (seed : Int64) (items : List α) : List α :=
  (swapDown (items.length - 1) (draws seed items.length) items.toArray).toList

theorem swapIfInBounds_perm (items : Array α) (i j : Nat) :
    (items.swapIfInBounds i j).Perm items := by
  unfold Array.swapIfInBounds
  split
  · split
    · exact Array.swap_perm _ _
    · exact Array.Perm.refl items
  · exact Array.Perm.refl items

/-- Swaps rearrange, whatever positions are drawn. -/
theorem swapDown_perm (i : Nat) (draws : List Nat) (items : Array α) :
    (swapDown i draws items).Perm items := by
  induction i generalizing draws items with
  | zero => exact Array.Perm.refl items
  | succ i ih =>
    cases draws with
    | nil => exact Array.Perm.refl items
    | cons j draws => exact (ih draws _).trans (swapIfInBounds_perm items (i + 1) j)

/-- Shuffling rearranges the items. -/
theorem permute_perm (seed : Int64) (items : List α) : (permute seed items).Perm items :=
  (swapDown_perm _ _ items.toArray).toList

end SuitePlan.Shuffle
