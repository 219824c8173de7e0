/-!
# Blank characters and trimming

A character is blank when it has the Unicode property White_Space. Names, numbers and switches
given as text are trimmed of blanks at both ends before they are read, and a name of blanks alone
counts as empty.

`trimmed_trimmed` says that trimming twice changes nothing more, and `trimmed_eq_nil_iff` that
exactly the texts of blanks alone are trimmed to nothing.
-/

namespace SuitePlan.Text

/-- The 25 characters of the Unicode property White_Space. -/
def isBlank (c : Char) : Bool :=
  let n := c.toNat
  (9 ≤ n && n ≤ 13) || n == 0x20 || n == 0x85 || n == 0xA0 || n == 0x1680
    || (0x2000 ≤ n && n ≤ 0x200A) || n == 0x2028 || n == 0x2029 || n == 0x202F
    || n == 0x205F || n == 0x3000

/-- What is left of `cs` without the blanks at its end. -/
def trimmedEnd (cs : List Char) : List Char :=
  (cs.reverse.dropWhile isBlank).reverse

/-- What is left of `cs` without the blanks at both ends. -/
def trimmed (cs : List Char) : List Char :=
  trimmedEnd (cs.dropWhile isBlank)

/-- `s` without the blanks at both ends. -/
def trim (s : String) : String :=
  String.ofList (trimmed s.toList)

/-- Whether nothing but blanks stands in `s`. -/
def isBlankText (s : String) : Bool :=
  s.toList.all isBlank

@[simp] theorem toList_trim (s : String) : (trim s).toList = trimmed s.toList := by
  simp [trim]

theorem isBlank_of_isDigit {c : Char} (h : c.isDigit = true) : isBlank c = false := by
  obtain ⟨hlow, hhigh⟩ := Char.isDigit_iff_toNat.mp h
  have hzero : '0'.toNat = 48 := rfl
  have hnine : '9'.toNat = 57 := rfl
  rw [hzero] at hlow
  rw [hnine] at hhigh
  simp only [isBlank, Bool.or_eq_false_iff, Bool.and_eq_false_iff, decide_eq_false_iff_not,
    beq_eq_false_iff_ne]
  omega

private theorem dropWhile_blank_eq_nil {cs : List Char} :
    cs.dropWhile isBlank = [] ↔ cs.all isBlank = true := by
  induction cs with
  | nil => simp
  | cons c rest ih => by_cases h : isBlank c = true <;> simp_all

theorem trimmedEnd_eq_nil_iff {cs : List Char} :
    trimmedEnd cs = [] ↔ cs.all isBlank = true := by
  simp only [trimmedEnd, List.reverse_eq_nil_iff, dropWhile_blank_eq_nil, List.all_reverse]

/-- Exactly the texts of blanks alone are trimmed to nothing. -/
theorem trimmed_eq_nil_iff {cs : List Char} : trimmed cs = [] ↔ cs.all isBlank = true := by
  rw [trimmed, trimmedEnd_eq_nil_iff]
  induction cs with
  | nil => simp
  | cons c rest ih => by_cases h : isBlank c = true <;> simp_all

/-- Text whose last character is not blank keeps its end. -/
theorem trimmedEnd_of_getLast {cs : List Char} (h : ∀ c ∈ cs.getLast?, isBlank c = false) :
    trimmedEnd cs = cs := by
  cases hr : cs.reverse with
  | nil => simp_all [trimmedEnd]
  | cons c rest =>
    have hc : isBlank c = false := by
      apply h; rw [List.getLast?_eq_head?_reverse, hr]; simp
    rw [trimmedEnd, hr, List.dropWhile_cons, hc]
    simp [← hr]

/-- Text that neither starts nor ends with a blank is left as it is. -/
theorem trimmed_of_ends {cs : List Char} (hd : ∀ c ∈ cs.head?, isBlank c = false)
    (hl : ∀ c ∈ cs.getLast?, isBlank c = false) : trimmed cs = cs := by
  cases cs with
  | nil => rfl
  | cons c rest =>
    have hc : isBlank c = false := hd c (by simp)
    rw [trimmed, List.dropWhile_cons, hc]
    exact trimmedEnd_of_getLast hl

private theorem head?_dropWhile_blank (cs : List Char) :
    ∀ c ∈ (cs.dropWhile isBlank).head?, isBlank c = false := by
  induction cs with
  | nil => simp
  | cons c rest ih =>
    by_cases h : isBlank c = true
    · simpa [List.dropWhile_cons, h] using ih
    · simp_all

private theorem trimmedEnd_append_blanks (cs : List Char) :
    ∃ bs, trimmedEnd cs ++ bs = cs ∧ bs.all isBlank = true := by
  refine ⟨(cs.reverse.takeWhile isBlank).reverse, ?_, ?_⟩
  · rw [trimmedEnd, ← List.reverse_append, List.takeWhile_append_dropWhile, List.reverse_reverse]
  · simp only [List.all_reverse]
    exact List.all_takeWhile

/-- Trimming twice changes nothing more. -/
@[simp] theorem trimmed_trimmed (cs : List Char) : trimmed (trimmed cs) = trimmed cs := by
  apply trimmed_of_ends
  · intro c hc
    obtain ⟨bs, hbs, -⟩ := trimmedEnd_append_blanks (cs.dropWhile isBlank)
    apply head?_dropWhile_blank cs c
    rw [← hbs, List.head?_append]
    simp only [trimmed] at hc
    simp [Option.mem_def.mp hc]
  · intro c hc
    simp only [trimmed, trimmedEnd, List.getLast?_reverse] at hc
    exact head?_dropWhile_blank _ c hc

/-- Nothing but blanks is lost at either end. -/
theorem exists_blanks_append_trimmed (cs : List Char) :
    ∃ before after, cs = before ++ trimmed cs ++ after ∧
      before.all isBlank = true ∧ after.all isBlank = true := by
  obtain ⟨after, hsplit, hafter⟩ := trimmedEnd_append_blanks (cs.dropWhile isBlank)
  refine ⟨cs.takeWhile isBlank, after, ?_, List.all_takeWhile, hafter⟩
  rw [trimmed, List.append_assoc, hsplit, List.takeWhile_append_dropWhile]

/-- What stands between blanks is left, if it neither starts nor ends with one. -/
theorem trimmed_append_blanks {before cs after : List Char} (hbefore : before.all isBlank = true)
    (hafter : after.all isBlank = true) (hd : ∀ c ∈ cs.head?, isBlank c = false)
    (hl : ∀ c ∈ cs.getLast?, isBlank c = false) : trimmed (before ++ cs ++ after) = cs := by
  have hstart : (before ++ cs ++ after).dropWhile isBlank = (cs ++ after).dropWhile isBlank := by
    rw [List.append_assoc]
    exact List.dropWhile_append_of_pos (List.all_eq_true.mp hbefore)
  have hend : trimmedEnd (cs ++ after) = trimmedEnd cs := by
    have hreverse : ∀ c ∈ after.reverse, isBlank c = true := by
      intro c hc
      exact List.all_eq_true.mp hafter c (List.mem_reverse.mp hc)
    rw [trimmedEnd, List.reverse_append, List.dropWhile_append_of_pos hreverse, ← trimmedEnd]
  rw [trimmed, hstart]
  cases cs with
  | nil =>
    rw [List.nil_append, dropWhile_blank_eq_nil.mpr hafter]
    rfl
  | cons c rest =>
    have hc : isBlank c = false := hd c rfl
    rw [List.cons_append, List.dropWhile_cons, hc, if_neg Bool.false_ne_true, ← List.cons_append,
      hend, trimmedEnd_of_getLast hl]

theorem mem_of_mem_trimmed {c : Char} {cs : List Char} (h : c ∈ trimmed cs) : c ∈ cs := by
  have hend := (List.dropWhile_suffix isBlank).subset (List.mem_reverse.mp h)
  exact (List.dropWhile_suffix isBlank).subset (List.mem_reverse.mp hend)

@[simp] theorem trim_trim (s : String) : trim (trim s) = trim s := by
  simp [trim]

/-- A text is blank exactly when trimming leaves the empty text. -/
theorem trim_eq_empty_iff {s : String} : trim s = "" ↔ isBlankText s = true := by
  rw [isBlankText, ← trimmed_eq_nil_iff, ← toList_trim]
  constructor
  · intro h; simp [h]
  · intro h; exact String.toList_injective (by simpa using h)

end SuitePlan.Text
