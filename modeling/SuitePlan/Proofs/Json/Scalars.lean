import Mathlib.Tactic.FinCases
import SuitePlan.Json.Printer
import SuitePlan.Json.Reader

/-!
# Scalars read back

A written string is read as the text it was written from, whatever characters it has
(`Text.read?_escaped`), and a written integer of 64 bits as that integer, unless the text goes on
with the number (`Number.read?_render`). So a scalar without point and exponent is read back from
its text (`Scalar.read?_render`).
-/

namespace SuitePlan.Json

/-! ## Strings -/

namespace Text

variable {c d : Char} {rest : List Char} {n : Nat}

/-- The characters whose escape is a letter or the character itself. -/
def named : List Char := ['"', '\\', '\x08', '\x0c', '\n', '\r', '\t']

theorem exists_escape_of_mem_named (h : c ∈ named) :
    ∃ d, escaped c = ['\\', d] ∧ d ≠ 'u' ∧ unescaped? d = some c := by
  fin_cases h <;> exact ⟨_, rfl, by decide, by decide⟩

theorem escaped_of_not_mem_named (h : c ∉ named) :
    escaped c = if c.toNat < 0x20 then
      ['\\', 'u', '0', '0', Nat.digitChar (c.toNat / 16), Nat.digitChar (c.toNat % 16)]
      else [c] := by
  simp only [named, List.mem_cons, List.not_mem_nil, or_false, not_or] at h
  simp [escaped, h]

theorem read?_escape (hc : c ≠ 'u') (hd : unescaped? c = some d) :
    read? ('\\' :: c :: rest) = andThen d (read? rest) := by
  rw [read?]
  · rw [hd]
  · intro a b e f rest' h
    exact absurd h hc

theorem read?_unicode {a b e f : Char} (hhex : hex? a b e f = some n)
    (hhigh : isHighSurrogate n = false) (hlow : isLowSurrogate n = false) :
    read? ('\\' :: 'u' :: a :: b :: e :: f :: rest) = andThen (Char.ofNat n) (read? rest) := by
  rw [read?.eq_def]
  simp [hhex, hhigh, hlow]

theorem read?_plain (hquote : c ≠ '"') (hslash : c ≠ '\\') (hcontrol : ¬c.toNat < 0x20) :
    read? (c :: rest) = andThen c (read? rest) := by
  rw [read?]
  · simp [hslash, hcontrol]
  · simp [hquote]
  · simp [hslash]
  · simp [hslash]

theorem hex?_control : ∀ n < 0x20,
    hex? '0' '0' (Nat.digitChar (n / 16)) (Nat.digitChar (n % 16)) = some n := by
  decide

/-- A written character is read back, whatever follows. -/
theorem read?_escaped (c : Char) (rest : List Char) :
    read? (escaped c ++ rest) = andThen c (read? rest) := by
  by_cases hnamed : c ∈ named
  · obtain ⟨d, hescaped, hd, hc⟩ := exists_escape_of_mem_named hnamed
    rw [hescaped]
    exact read?_escape hd hc
  · rw [escaped_of_not_mem_named hnamed]
    by_cases hcontrol : c.toNat < 0x20
    · have hhigh : isHighSurrogate c.toNat = false := by
        simp only [isHighSurrogate, Bool.and_eq_false_iff, decide_eq_false_iff_not]
        omega
      have hlow : isLowSurrogate c.toNat = false := by
        simp only [isLowSurrogate, Bool.and_eq_false_iff, decide_eq_false_iff_not]
        omega
      have hread := @read?_unicode rest _ _ _ _ _ (hex?_control c.toNat hcontrol) hhigh hlow
      rw [Char.ofNat_toNat] at hread
      rw [if_pos hcontrol]
      exact hread
    · rw [if_neg hcontrol]
      refine read?_plain ?_ ?_ hcontrol
      · rintro rfl
        exact hnamed (by decide)
      · rintro rfl
        exact hnamed (by decide)

/-- A written string is read back up to its closing quote. -/
theorem read?_flatMap_escaped (cs rest : List Char) :
    read? (cs.flatMap escaped ++ '"' :: rest) = some (cs, rest) := by
  induction cs with
  | nil => simp [read?]
  | cons c cs ih => rw [List.flatMap_cons, List.append_assoc, read?_escaped, ih, andThen]

theorem render_append (s : String) (rest : List Char) :
    render s ++ rest = '"' :: (s.toList.flatMap escaped ++ '"' :: rest) := by
  simp [render]

end Text

/-! ## Numbers -/

/-- A text cannot go on with a number that stands before it. -/
def EndsNumber : List Char → Prop
  | [] => True
  | c :: _ => c.isDigit = false ∧ c ≠ '.' ∧ c ≠ 'e' ∧ c ≠ 'E'

/-- The first character decides. -/
instance : (rest : List Char) → Decidable (EndsNumber rest)
  | [] => inferInstanceAs (Decidable True)
  | _ :: _ => inferInstanceAs (Decidable (_ ∧ _ ∧ _ ∧ _))

/-- A number that is written without point and exponent and fits a word of 64 bits. -/
def Number.IsWord : Number → Prop
  | .integer n => -(Nat.pow 2 63 : Nat) ≤ n ∧ n ≤ greatestSignificand
  | .binary _ _ => False

namespace Number

variable {ds rest : List Char} {n significand : Nat}

theorem takeWhile_digits (hall : ∀ c ∈ ds, c.isDigit = true) (hrest : EndsNumber rest) :
    (ds ++ rest).takeWhile Char.isDigit = ds := by
  rw [List.takeWhile_append_of_pos hall]
  cases rest with
  | nil => simp
  | cons c rest => simp [hrest.1]

theorem dropWhile_digits (hall : ∀ c ∈ ds, c.isDigit = true) (hrest : EndsNumber rest) :
    (ds ++ rest).dropWhile Char.isDigit = rest := by
  rw [List.dropWhile_append_of_pos hall]
  cases rest with
  | nil => rfl
  | cons c rest => simp [hrest.1]

theorem readFraction?_none (hrest : EndsNumber rest) : readFraction? rest = some ([], rest) := by
  cases rest with
  | nil => rfl
  | cons c rest =>
    rw [readFraction?]
    rintro more h
    exact hrest.2.1 (List.cons.inj h).1

theorem readExponent?_none (hrest : EndsNumber rest) :
    readExponent? rest = some (none, rest) := by
  cases rest with
  | nil => rfl
  | cons c rest =>
    obtain ⟨-, -, hlower, hupper⟩ := hrest
    rw [readExponent?]
    · rintro more h
      exact hlower (List.cons.inj h).1
    · rintro more h
      exact hupper (List.cons.inj h).1

theorem le_ofDigitChars (ds : List Char) (n : Nat) : n ≤ Nat.ofDigitChars 10 ds n := by
  rw [Nat.ofDigitChars_eq_ofDigitChars_zero]
  have hpos : 0 < 10 ^ ds.length := Nat.pow_pos (by decide)
  have hle : n ≤ 10 ^ ds.length * n := Nat.le_mul_of_pos_left n hpos
  omega

/-- A significand that stays within the greatest one takes all digits. -/
theorem gather_eq (hle : Nat.ofDigitChars 10 ds significand ≤ greatestSignificand) :
    gather significand ds = (Nat.ofDigitChars 10 ds significand, 0) := by
  induction ds generalizing significand with
  | nil => rfl
  | cons c rest ih =>
    rw [Nat.ofDigitChars_cons] at hle ⊢
    have hnext := Nat.le_trans (le_ofDigitChars rest _) hle
    rw [gather]
    simp only [hnext, if_true]
    exact ih hle

theorem gather_digits (hn : n ≤ greatestSignificand) :
    gather 0 (Text.Decimal.digits n) = (n, 0) := by
  have hvalue : Nat.ofDigitChars 10 (Text.Decimal.digits n) 0 = n :=
    Text.Decimal.value_digits n
  rw [gather_eq (by rw [hvalue]; exact hn), hvalue]

theorem readSign_digits (n : Nat) (rest : List Char) :
    readSign (Text.Decimal.digits n ++ rest) = (false, Text.Decimal.digits n ++ rest) := by
  obtain ⟨c, cs, hcs, hc⟩ := Text.Decimal.exists_digit n
  rw [hcs, List.cons_append, readSign]
  rintro more h
  rw [(List.cons.inj h).1] at hc
  exact absurd hc (by decide)

/-- Digits are read as the number they were written from, with the sign before them. -/
theorem read?_digits {negative : Bool} {cs : List Char}
    (hsign : readSign cs = (negative, Text.Decimal.digits n ++ rest))
    (hn : n ≤ greatestSignificand) (hrest : EndsNumber rest) :
    read? cs = (ofWhole? negative n).map fun number => (number, rest) := by
  have hall := List.all_eq_true.mp (Text.Decimal.digits_all n)
  have hwhole : ((Text.Decimal.digits n).isEmpty || ((Text.Decimal.digits n).head? == some '0' &&
      (Text.Decimal.digits n).length != 1)) = false := by
    rw [Bool.or_eq_false_iff, Bool.and_eq_false_imp, List.isEmpty_eq_false_iff, beq_iff_eq]
    refine ⟨Text.Decimal.digits_ne_nil n, fun hhead => ?_⟩
    rw [Text.Decimal.digits_of_head? hhead]
    rfl
  have hliteral : ofLiteral? negative (Text.Decimal.digits n) [] none = ofWhole? negative n := by
    rw [ofLiteral?, gather_digits hn]
    rfl
  rw [read?, hsign]
  simp only [takeWhile_digits hall hrest, dropWhile_digits hall hrest, hwhole,
    readFraction?_none hrest, Option.bind_eq_bind, Option.bind_some, readExponent?_none hrest,
    hliteral]
  cases ofWhole? negative n <;> rfl

/-- A written integer of 64 bits is read back, unless the text goes on with it. -/
theorem read?_render {number : Number} (h : number.IsWord) (hrest : EndsNumber rest) :
    read? (number.render ++ rest) = some (number, rest) := by
  cases number with
  | binary negative magnitude => exact h.elim
  | integer n =>
    obtain ⟨hlow, hhigh⟩ := h
    have hgreatest : Nat.pow 2 63 ≤ greatestSignificand := by decide
    have hsize : n.natAbs ≤ greatestSignificand := by omega
    rw [render, Text.Decimal.render]
    by_cases hn : n < 0
    · have hfits : 0 < n.natAbs ∧ n.natAbs ≤ Nat.pow 2 63 := by omega
      have hvalue : -(n.natAbs : Int) = n := by omega
      rw [if_pos hn, @read?_digits _ _ true _ rfl hsize hrest, ofWhole?, if_neg (by decide),
        if_pos hfits, hvalue, Option.map_some]
    · have hvalue : (n.natAbs : Int) = n := by omega
      rw [if_neg hn, read?_digits (readSign_digits _ rest) hsize hrest, ofWhole?,
        if_pos (show (!false) = true from rfl), hvalue, Option.map_some]

end Number

/-! ## Scalars -/

namespace Scalar

variable {s : Scalar} {rest : List Char}

/-- A scalar that is no number with a point or an exponent. -/
def IsPlain : Scalar → Prop
  | .number n => n.IsWord
  | _ => True

/-- The first characters of scalars other than numbers, and those that no scalar starts with. -/
def marks : List Char := ['n', 't', 'f', '"', '[', ']', '{', '}', ' ', '\t', '\n', '\r']

theorem exists_render_number {n : Number} (h : n.IsWord) :
    ∃ c cs, n.render = c :: cs ∧ c ∉ marks := by
  have hdigit : ∀ c, c.isDigit = true → c ∉ marks := by
    intro c hc hmem
    fin_cases hmem <;> exact absurd hc (by decide)
  cases n with
  | binary negative magnitude => exact h.elim
  | integer n =>
    rw [Number.render, Text.Decimal.render]
    by_cases hn : n < 0
    · exact ⟨'-', _, if_pos hn, by decide⟩
    · obtain ⟨c, cs, hcs, hc⟩ := Text.Decimal.exists_digit n.natAbs
      exact ⟨c, cs, by rw [if_neg hn, hcs], hdigit c hc⟩

theorem exists_render (h : s.IsPlain) :
    ∃ c cs, s.render = c :: cs ∧ isSpace c = false ∧ c ≠ '[' ∧ c ≠ '{' := by
  cases s with
  | null => exact ⟨_, _, rfl, by decide⟩
  | bool value => cases value <;> exact ⟨_, _, rfl, by decide⟩
  | string text => exact ⟨_, _, rfl, by decide⟩
  | number n =>
    obtain ⟨c, cs, hcs, hc⟩ := exists_render_number h
    simp only [marks, List.mem_cons, List.not_mem_nil, not_or] at hc
    exact ⟨c, cs, hcs, by simp [isSpace, hc], by simp [hc], by simp [hc]⟩

/-- A written scalar is read back, unless it is a number and the text goes on with it. -/
theorem read?_render (h : s.IsPlain) (hrest : EndsNumber rest) :
    read? (s.render ++ rest) = some (s, rest) := by
  cases s with
  | null => rfl
  | bool value => cases value <;> rfl
  | string text =>
    rw [render, Text.render_append, read?, Text.read?_flatMap_escaped]
    simp
  | number n =>
    obtain ⟨c, cs, hcs, hc⟩ := exists_render_number h
    have hread := Number.read?_render h hrest
    rw [render]
    rw [hcs] at hread ⊢
    simp only [marks, List.mem_cons, List.not_mem_nil, not_or] at hc
    rw [List.cons_append] at hread ⊢
    rw [read?]
    · rw [hread]
      rfl
    all_goals
      intro more heq
      simp [(List.cons.inj heq).1] at hc

end Scalar

end SuitePlan.Json
