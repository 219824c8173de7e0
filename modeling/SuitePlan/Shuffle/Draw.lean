import SuitePlan.Shuffle.Keystream

/-!
# Draws

A number from a range is drawn by scaling a word of the keystream to the range. Where the fraction
that is cut off comes close to the next number, a second word decides whether it is reached.

`draw_le` says that a draw stays in its range.
-/

namespace SuitePlan.Shuffle

/-- The number of words that 32 bits can hold. -/
def wordCount : Nat := UInt32.size

namespace Keystream

/-- Draws a number from zero to `i`, which is below the number of words. -/
def draw (k : Keystream) (i : Nat) : Nat × Keystream :=
  let range := i + 1
  let (word, k) := k.next
  let scaled := word.toNat * range
  let number := scaled / wordCount
  let fraction := scaled % wordCount
  if wordCount - range < fraction then
    let (word, k) := k.next
    let finer := word.toNat * range / wordCount
    (if wordCount ≤ fraction + finer then number + 1 else number, k)
  else (number, k)

/-- A scaled word is far enough below the end of the range for a second word to raise it. -/
theorem scaled_add_lt (word : UInt32) {i finer : Nat} (h : finer < i + 1) :
    word.toNat * (i + 1) + finer < wordCount * (i + 1) := by
  have hw : word.toNat + 1 ≤ wordCount := word.toNat_lt
  have := Nat.mul_le_mul_right (i + 1) hw
  rw [Nat.succ_mul] at this
  omega

/-- A draw stays in its range, also when the second word raises it. -/
theorem draw_le (k : Keystream) (i : Nat) : (k.draw i).1 ≤ i := by
  have hpos : 0 < wordCount := by decide
  have hscaled : ∀ word : UInt32, word.toNat * (i + 1) / wordCount ≤ i := by
    intro word
    apply Nat.le_of_lt_succ
    rw [Nat.div_lt_iff_lt_mul hpos, Nat.mul_comm _ wordCount]
    exact scaled_add_lt word (Nat.succ_pos i)
  unfold draw
  simp only
  split
  · split
    · rename_i h
      have hlt := scaled_add_lt k.next.1 (Nat.lt_succ_of_le (hscaled k.next.2.next.1))
      have hm := Nat.div_add_mod (k.next.1.toNat * (i + 1)) wordCount
      have hi : wordCount * (i + 1) = wordCount * i + wordCount := rfl
      apply Nat.lt_of_mul_lt_mul_left (a := wordCount)
      omega
    · exact hscaled _
  · exact hscaled _

end Keystream

end SuitePlan.Shuffle
