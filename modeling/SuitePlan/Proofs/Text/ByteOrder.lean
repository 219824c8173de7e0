import SuitePlan.Table

/-!
# The order of texts by their bytes

Texts are compared character by character. That is the same as comparing their bytes in UTF-8
(`Text.utf8_lt_iff`, `Text.utf8_le_iff`), since of two different characters the lower one has the
lower bytes, and the bytes of neither start those of the other.
-/

namespace SuitePlan.Text

/-- The bytes of a text in UTF-8. -/
def utf8 (s : String) : List UInt8 := s.toUTF8.data.toList

variable {s t : String} {c d : Char} {cs ds : List Char}

theorem utf8_eq_flatMap (s : String) : utf8 s = s.toList.flatMap String.utf8EncodeChar := by
  have hbytes : s.toByteArray = s.toList.utf8Encode := by
    rw [← String.toByteArray_ofList, String.ofList_toList]
  rw [utf8, String.toUTF8, hbytes, List.utf8Encode, List.data_toByteArray]

/-- Of two numbers the lower one is lower also without the last digit to the base 64, or in that
digit alone. -/
theorem div_lt_or_mod_lt {m n : Nat} (h : m < n) :
    m / 64 < n / 64 ∨ m / 64 = n / 64 ∧ m % 64 < n % 64 := by
  omega

/-- Of two characters the lower one has the lower bytes, whatever comes after them. -/
theorem utf8EncodeChar_append_lt (h : c < d) (xs ys : List UInt8) :
    String.utf8EncodeChar c ++ xs < String.utf8EncodeChar d ++ ys := by
  have hlt : c.val.toNat < d.val.toNat := h
  have hlimit : d.val.toNat < 0x110000 := by
    have := d.valid
    simp only [UInt32.isValidChar, Nat.isValidChar] at this
    omega
  simp only [String.utf8EncodeChar]
  generalize c.val.toNat = m at hlt
  generalize d.val.toNat = n at hlt hlimit
  -- Each byte after the first holds a digit to the base 64, and the first one what is above these.
  have hdigits : ∀ k : Nat, k / 64 / 64 = k / 4096 ∧ k / 4096 / 64 = k / 262144 := by
    simp [Nat.div_div_eq_div_mul]
  have hlast := div_lt_or_mod_lt hlt
  have hthird := @div_lt_or_mod_lt (m / 64) (n / 64)
  have hsecond := @div_lt_or_mod_lt (m / 4096) (n / 4096)
  rw [(hdigits m).1, (hdigits n).1] at hthird
  rw [(hdigits m).2, (hdigits n).2] at hsecond
  repeat' split
  all_goals
    simp (disch := omega) only [List.cons_append, List.cons_lt_cons_iff, UInt8.lt_iff_toNat_lt,
      ← UInt8.toNat_inj, UInt8.toNat_ofNat', Nat.mod_eq_of_lt]
    omega

theorem flatMap_utf8EncodeChar_lt (h : cs < ds) :
    cs.flatMap String.utf8EncodeChar < ds.flatMap String.utf8EncodeChar := by
  induction cs generalizing ds with
  | nil =>
    cases ds with
    | nil => exact absurd h (List.not_lt_nil [])
    | cons d ds =>
      obtain ⟨b, bs, hbytes⟩ := List.exists_cons_of_ne_nil (@String.utf8EncodeChar_ne_nil d)
      rw [List.flatMap_cons, hbytes]
      exact List.nil_lt_cons b _
  | cons c cs ih =>
    cases ds with
    | nil => exact absurd h (List.not_lt_nil _)
    | cons d ds =>
      rw [List.flatMap_cons, List.flatMap_cons]
      rcases List.cons_lt_cons_iff.mp h with hcd | ⟨rfl, hrest⟩
      · exact utf8EncodeChar_append_lt hcd _ _
      · exact List.append_left_lt (ih hrest)

theorem utf8_lt_of_lt (h : s < t) : utf8 s < utf8 t := by
  rw [utf8_eq_flatMap, utf8_eq_flatMap]
  exact flatMap_utf8EncodeChar_lt h

/-- A text is below another exactly if its bytes are. -/
theorem utf8_lt_iff : utf8 s < utf8 t ↔ s < t := by
  refine ⟨fun h => ?_, utf8_lt_of_lt⟩
  have hne : s ≠ t := by
    intro heq
    rw [heq] at h
    exact List.lt_irrefl _ h
  apply Classical.byContradiction
  intro hnot
  exact List.lt_asymm h (utf8_lt_of_lt (Table.lt_of_not_lt_of_ne hnot hne))

theorem utf8_le_iff : utf8 s ≤ utf8 t ↔ s ≤ t := by
  rw [← List.not_lt, utf8_lt_iff, String.not_lt]

end SuitePlan.Text
