import SuitePlan.Proofs.Shuffle.Orders

/-!
# Swaps in bounds

Positions are drawn in words of 32 bits, whose sums wrap around, and a swap outside the items would
end the loop with nothing. With fewer items than words neither happens: what is drawn in words is
the number that the draw stands for (`Keystream.draw_eq_drawWord`), also where a second word raises
it, and the loop comes to its end (`permute_within_bounds`).
-/

namespace SuitePlan.Shuffle

/-! ## Words -/

/-- The product of two words. -/
def product (a b : UInt32) : UInt64 :=
  a.toUInt64 * b.toUInt64

/-- The upper one of the two words that a product consists of. -/
def upperWord (x : UInt64) : UInt32 :=
  (x >>> 32).toUInt32

/-- The lower one of the two words that a product consists of. -/
def lowerWord (x : UInt64) : UInt32 :=
  x.toUInt32

theorem toNat_product (a b : UInt32) : (product a b).toNat = a.toNat * b.toNat := by
  have hlt : a.toNat * b.toNat < 2 ^ 32 * 2 ^ 32 := Nat.mul_lt_mul'' a.toNat_lt b.toNat_lt
  rw [product, UInt64.toNat_mul, UInt32.toNat_toUInt64, UInt32.toNat_toUInt64]
  exact Nat.mod_eq_of_lt hlt

theorem toNat_upperWord (x : UInt64) : (upperWord x).toNat = x.toNat / wordCount := by
  have hlt : x.toNat / 2 ^ 32 < 2 ^ 32 := Nat.div_lt_of_lt_mul x.toNat_lt
  rw [upperWord, UInt64.toNat_toUInt32, UInt64.toNat_shiftRight, Nat.shiftRight_eq_div_pow]
  exact Nat.mod_eq_of_lt hlt

theorem toNat_lowerWord (x : UInt64) : (lowerWord x).toNat = x.toNat % wordCount :=
  UInt64.toNat_toUInt32 x

/-- A sum of words has wrapped around exactly if it is below a word that was added. -/
theorem add_lt_right_iff (a b : UInt32) : a + b < b ↔ wordCount ≤ a.toNat + b.toNat := by
  have ha : a.toNat < wordCount := a.toNat_lt
  have hb : b.toNat < wordCount := b.toNat_lt
  rw [UInt32.lt_iff_toNat_lt, UInt32.toNat_add]
  show (a.toNat + b.toNat) % wordCount < b.toNat ↔ _
  by_cases h : wordCount ≤ a.toNat + b.toNat
  · rw [Nat.mod_eq_sub_mod h, Nat.mod_eq_of_lt (by omega)]
    omega
  · rw [Nat.mod_eq_of_lt (by omega)]
    omega

theorem toNat_zero_sub {a : UInt32} (h : 0 < a.toNat) : (0 - a).toNat = wordCount - a.toNat := by
  have ha : a.toNat < wordCount := a.toNat_lt
  rw [UInt32.toNat_sub]
  show (wordCount - a.toNat + 0) % wordCount = _
  exact Nat.mod_eq_of_lt (by omega)

/-! ## Draws in words -/

namespace Keystream

/-- Draws a number from zero to `i` in words. -/
def drawWord (stream : Keystream) (i : UInt32) : UInt32 × Keystream :=
  let range := i + 1
  let (word, stream) := stream.next
  let scaled := product word range
  if 0 - range < lowerWord scaled then
    let (word, stream) := stream.next
    let finer := upperWord (product word range)
    (if lowerWord scaled + finer < finer then upperWord scaled + 1 else upperWord scaled, stream)
  else (upperWord scaled, stream)

theorem draw_eq_drawWord (stream : Keystream) {i : Nat} (h : i + 1 < wordCount) :
    stream.draw i =
      ((stream.drawWord (.ofNat i)).1.toNat, (stream.drawWord (.ofNat i)).2) := by
  have hrange : (UInt32.ofNat i + 1).toNat = i + 1 := by
    rw [UInt32.toNat_add, UInt32.toNat_ofNat_of_lt' (Nat.lt_of_succ_lt h)]
    exact Nat.mod_eq_of_lt h
  have hsecond : 0 - (UInt32.ofNat i + 1) < lowerWord (product stream.next.1 (.ofNat i + 1)) ↔
      wordCount - (i + 1) < stream.next.1.toNat * (i + 1) % wordCount := by
    rw [UInt32.lt_iff_toNat_lt, toNat_zero_sub (by omega), toNat_lowerWord, toNat_product, hrange]
  have hwrapped : lowerWord (product stream.next.1 (.ofNat i + 1)) +
        upperWord (product stream.next.2.next.1 (.ofNat i + 1)) <
          upperWord (product stream.next.2.next.1 (.ofNat i + 1)) ↔
      wordCount ≤ stream.next.1.toNat * (i + 1) % wordCount +
        stream.next.2.next.1.toNat * (i + 1) / wordCount := by
    rw [add_lt_right_iff, toNat_lowerWord, toNat_upperWord, toNat_product, toNat_product, hrange]
  have hupper : (upperWord (product stream.next.1 (.ofNat i + 1))).toNat =
      stream.next.1.toNat * (i + 1) / wordCount := by
    rw [toNat_upperWord, toNat_product, hrange]
  have hle := stream.draw_le i
  simp only [draw, drawWord, hsecond, hwrapped] at hle ⊢
  split_ifs at hle ⊢
  · -- The number stays below the range when it is raised, so it does not wrap around.
    rw [UInt32.toNat_add, hupper]
    exact Prod.ext (Nat.mod_eq_of_lt (Nat.lt_of_le_of_lt hle (Nat.lt_of_succ_lt h))).symm rfl
  · rw [hupper]
  · rw [hupper]

end Keystream

/-! ## The loop -/

variable {α : Type}

/-- The loop of a shuffle, for the positions from `i` down to one: a position is drawn for each and
swapped with it. It ends with nothing where the drawn position is beyond the other one, or one of
the two is outside the items. -/
def swapLoop? : Nat → Keystream → Array α → Option (Array α)
  | 0, _, items => some items
  | i + 1, stream, items =>
    let (j, stream) := stream.drawWord (.ofNat (i + 1))
    if h : j.toNat ≤ i + 1 ∧ i + 1 < items.size then
      swapLoop? i stream (items.swap (i + 1) j.toNat h.2 (Nat.lt_of_le_of_lt h.1 h.2))
    else none

/-- The induction is on the positions: a swap leaves as many items as there were, so that the
positions that remain are inside them. -/
theorem swapLoop?_eq {i : Nat} {items : Array α} (stream : Keystream) (hi : i ≤ items.size - 1)
    (hsize : items.size < wordCount) :
    swapLoop? i stream items = some (swapDown i (drawOnto i stream []).reverse items) := by
  induction i generalizing stream items with
  | zero => rfl
  | succ i ih =>
    have hdraw := stream.draw_eq_drawWord (i := i + 1) (by omega)
    have hle := stream.draw_le (i + 1)
    rw [hdraw] at hle
    have hswap : items.swapIfInBounds (i + 1) (stream.drawWord (.ofNat (i + 1))).1.toNat =
        items.swap (i + 1) (stream.drawWord (.ofNat (i + 1))).1.toNat (by omega) (by omega) := by
      rw [Array.swapIfInBounds_def, dif_pos (by omega), dif_pos (by omega)]
    simp only [swapLoop?]
    rw [dif_pos ⟨hle, by omega⟩, ih _ (by rw [Array.size_swap]; omega)
      (by rw [Array.size_swap]; omega), reverse_drawOnto_succ, swapDown, hdraw, hswap]

/-- With fewer items than words, all positions are drawn up to the ones that they are swapped with,
and thus inside the items: the loop comes to its end, and has rearranged them. -/
theorem permute_within_bounds (seed : Int64) (items : List α) (hsize : items.length < wordCount) :
    (∀ (stream : Keystream) (i : Nat), i < items.length →
      (stream.drawWord (.ofNat i)).1.toNat ≤ i ∧
      stream.draw i =
        ((stream.drawWord (.ofNat i)).1.toNat, (stream.drawWord (.ofNat i)).2)) ∧
    Admissible (items.length - 1) (draws seed items.length) ∧
    swapLoop? (items.length - 1) (.ofSeed seed) items.toArray =
      some (permute seed items).toArray ∧
    (permute seed items).Perm items ∧
    (permute seed items).length = items.length ∧
    (items.length ≤ 1 → permute seed items = items) := by
  have hperm := permute_perm seed items
  refine ⟨fun stream i hi => ?_, admissible_draws seed items.length, ?_, hperm, hperm.length_eq, ?_⟩
  · have hdraw := stream.draw_eq_drawWord (i := i) (by omega)
    have hle := stream.draw_le i
    rw [hdraw] at hle
    exact ⟨hle, hdraw⟩
  · exact swapLoop?_eq _ (le_refl _) hsize
  · intro hshort
    rw [permute, Nat.sub_eq_zero_of_le hshort]
    rfl

/-- The first word alone would give zero, but a second one raises the number to one. -/
theorem permute_within_bounds_raised :
    ["a", "b", "c"].length < wordCount ∧
    (Keystream.drawWord ⟨keyOfSeed 7, 0, [0x55555555, 0xffffffff]⟩ 2).1 = 1 ∧
    (Keystream.drawWord ⟨keyOfSeed 7, 0, [0x55555555, 0]⟩ 2).1 = 0 ∧
    (Keystream.draw ⟨keyOfSeed 7, 0, [0x55555555, 0xffffffff]⟩ 2).1 = 1 ∧
    swapLoop? 2 (.ofSeed 7) #["a", "b", "c"] = some (permute 7 ["a", "b", "c"]).toArray := by
  obtain ⟨hdraw, -, hloop, -, -, -⟩ := permute_within_bounds 7 ["a", "b", "c"] (by decide)
  refine ⟨by decide, by decide, by decide, ?_, hloop⟩
  rw [(hdraw _ 2 (by decide)).2]
  decide

end SuitePlan.Shuffle
