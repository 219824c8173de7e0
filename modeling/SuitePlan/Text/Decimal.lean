/-!
# Decimal text of integers

Integers are written in decimal without leading zeros, a negative one after a minus sign. They are
read more freely: one sign of either kind and any number of leading zeros may stand in front.

`read?_render` says that a written integer reads back, and `read?_eq_some_iff` which texts are
accepted and what they denote.
-/

namespace SuitePlan.Text.Decimal

/-- The decimal digits of `n`, the highest first and without leading zeros. -/
def digits (n : Nat) : List Char :=
  Nat.toDigits 10 n

/-- The number that the digits `cs` denote. -/
def value (cs : List Char) : Nat :=
  Nat.ofDigitChars 10 cs 0

/-- The decimal characters of an integer. -/
def render (n : Int) : List Char :=
  if n < 0 then '-' :: digits n.natAbs else digits n.natAbs

/-- The decimal text of an integer. -/
def text (n : Int) : String :=
  String.ofList (render n)

/-- The number of one or more ASCII digits, if `cs` is nothing else. -/
def natural? (cs : List Char) : Option Nat :=
  if cs.isEmpty || !cs.all Char.isDigit then none else some (value cs)

/-- The integer that `cs` denotes: at most one sign, then one or more ASCII digits. -/
def read? : List Char → Option Int
  | '+' :: ds => (natural? ds).map Int.ofNat
  | '-' :: ds => (natural? ds).map Int.negOfNat
  | ds => (natural? ds).map Int.ofNat

theorem digits_ne_nil (n : Nat) : digits n ≠ [] :=
  Nat.toDigits_ne_nil

theorem digits_all (n : Nat) : (digits n).all Char.isDigit = true := by
  rw [List.all_eq_true]
  intro c hc
  exact Nat.isDigit_of_mem_toDigits (by decide) (by decide) hc

/-- A natural number is written with a digit in front. -/
theorem exists_digit (n : Nat) : ∃ c cs, digits n = c :: cs ∧ c.isDigit = true := by
  obtain ⟨c, cs, hcs⟩ := List.exists_cons_of_ne_nil (digits_ne_nil n)
  have hall := List.all_eq_true.mp (digits_all n)
  exact ⟨c, cs, hcs, hall c (by rw [hcs]; exact List.mem_cons_self)⟩

/-- Only zero is written with a zero in front. -/
theorem digits_of_head? {n : Nat} (h : (digits n).head? = some '0') : digits n = ['0'] := by
  have hzero : n = 0 := by
    induction n using Nat.strongRecOn with
    | _ n ih =>
      rw [digits, Nat.toDigits_eq_if (by decide)] at h
      by_cases hn : n < 10
      · rw [if_pos hn, List.head?_cons, Option.some.injEq] at h
        exact Nat.digitChar_eq_zero.mp h
      · obtain ⟨c, cs, hcs, -⟩ := exists_digit (n / 10)
        rw [if_neg hn, ← digits, hcs] at h
        have := ih (n / 10) (by omega) (by rw [hcs]; exact h)
        omega
  rw [hzero]
  rfl

/-- Written digits denote the number they were written from. -/
@[simp] theorem value_digits (n : Nat) : value (digits n) = n :=
  Nat.ofDigitChars_toDigits (by decide) (by decide)

@[simp] theorem natural?_digits (n : Nat) : natural? (digits n) = some n := by
  simp [natural?, digits_all, digits_ne_nil]

/-- A text that denotes a number has only digits, and at least one. -/
theorem natural?_eq_some_iff {cs : List Char} {n : Nat} :
    natural? cs = some n ↔ cs ≠ [] ∧ cs.all Char.isDigit = true ∧ value cs = n := by
  unfold natural?
  cases cs with
  | nil => simp
  | cons c rest => by_cases h : (c :: rest).all Char.isDigit = true <;> simp_all

/-- A text that starts with a digit is read as the natural number it denotes. -/
theorem read?_of_isDigit {c : Char} (h : c.isDigit = true) (cs : List Char) :
    read? (c :: cs) = (natural? (c :: cs)).map Int.ofNat := by
  unfold read?
  split
  · rename_i heq; rw [(List.cons.inj heq).1] at h; exact absurd h (by decide)
  · rename_i heq; rw [(List.cons.inj heq).1] at h; exact absurd h (by decide)
  · rfl

/-- A written integer reads back. -/
@[simp] theorem read?_render (n : Int) : read? (render n) = some n := by
  unfold render
  split
  · simp only [read?, natural?_digits, Option.map_some, Int.negOfNat_eq, Option.some.injEq,
      Int.ofNat_eq_natCast]
    omega
  · obtain ⟨c, cs, h, hc⟩ := exists_digit n.natAbs
    rw [h, read?_of_isDigit hc, ← h, natural?_digits]
    simp only [Option.map_some, Option.some.injEq, Int.ofNat_eq_natCast]
    omega

theorem text_inj {n m : Int} : text n = text m ↔ n = m := by
  constructor
  · intro h
    have hread := congrArg (fun s => read? s.toList) h
    simpa [text] using hread
  · intro h
    rw [h]

/-- Exactly the texts of one or more digits after at most one sign are read, as what they denote. -/
theorem read?_eq_some_iff {cs : List Char} {n : Int} :
    read? cs = some n ↔ ∃ ds : List Char, ds ≠ [] ∧ ds.all Char.isDigit = true ∧
      ((cs = ds ∧ n = value ds) ∨ (cs = '+' :: ds ∧ n = value ds) ∨
        (cs = '-' :: ds ∧ n = -(value ds : Int))) := by
  have hplus : Char.isDigit '+' = false := by decide
  have hminus : Char.isDigit '-' = false := by decide
  unfold read?
  split <;> simp only [Option.map_eq_some_iff, natural?_eq_some_iff, Int.negOfNat_eq,
    Int.ofNat_eq_natCast]
  · rename_i ds
    constructor
    · rintro ⟨m, ⟨h1, h2, rfl⟩, rfl⟩; exact ⟨ds, h1, h2, by simp⟩
    · rintro ⟨es, h1, h2, ⟨rfl, rfl⟩ | ⟨h, rfl⟩ | ⟨h, rfl⟩⟩
      · simp [hplus] at h2
      · obtain rfl : ds = es := by simpa using h
        exact ⟨_, ⟨h1, h2, rfl⟩, rfl⟩
      · simp at h
  · rename_i ds
    constructor
    · rintro ⟨m, ⟨h1, h2, rfl⟩, rfl⟩; exact ⟨ds, h1, h2, by simp⟩
    · rintro ⟨es, h1, h2, ⟨rfl, rfl⟩ | ⟨h, rfl⟩ | ⟨h, rfl⟩⟩
      · simp [hminus] at h2
      · simp at h
      · obtain rfl : ds = es := by simpa using h
        exact ⟨_, ⟨h1, h2, rfl⟩, rfl⟩
  · rename_i hp hm
    constructor
    · rintro ⟨m, ⟨h1, h2, rfl⟩, rfl⟩; exact ⟨cs, h1, h2, by simp⟩
    · rintro ⟨es, h1, h2, ⟨rfl, rfl⟩ | ⟨h, rfl⟩ | ⟨h, rfl⟩⟩
      · exact ⟨_, ⟨h1, h2, rfl⟩, rfl⟩
      · exact absurd h (hp es)
      · exact absurd h (hm es)

end SuitePlan.Text.Decimal
