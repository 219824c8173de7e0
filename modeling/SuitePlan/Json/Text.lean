/-!
# Strings in JSON text

Between the quotes of a JSON string a quote, a backslash and the control characters below U+0020 are
escaped and every other character is written as it is. When read, every character but those may
stand for itself, and any may be given by an escape; a character beyond U+FFFF takes a pair of
escapes.
-/

namespace SuitePlan.Json.Text

/-! ## Writing -/

/-- How `c` is written in a JSON string. -/
def escaped (c : Char) : List Char :=
  if c = '"' then ['\\', '"']
  else if c = '\\' then ['\\', '\\']
  else if c = '\x08' then ['\\', 'b']
  else if c = '\x0c' then ['\\', 'f']
  else if c = '\n' then ['\\', 'n']
  else if c = '\r' then ['\\', 'r']
  else if c = '\t' then ['\\', 't']
  else if c.toNat < 0x20 then
    ['\\', 'u', '0', '0', Nat.digitChar (c.toNat / 16), Nat.digitChar (c.toNat % 16)]
  else [c]

/-- The JSON string of a text, with its quotes. -/
def render (s : String) : List Char :=
  '"' :: s.toList.flatMap escaped ++ ['"']

/-! ## Reading -/

/-- The value of a hexadecimal digit of either case. -/
def hexValue? (c : Char) : Option Nat :=
  if '0' ≤ c ∧ c ≤ '9' then some (c.toNat - '0'.toNat)
  else if 'a' ≤ c ∧ c ≤ 'f' then some (c.toNat - 'a'.toNat + 10)
  else if 'A' ≤ c ∧ c ≤ 'F' then some (c.toNat - 'A'.toNat + 10)
  else none

/-- The value of four hexadecimal digits. -/
def hex? (a b c d : Char) : Option Nat := do
  some (((← hexValue? a) * 16 + (← hexValue? b)) * 256 + (← hexValue? c) * 16 + (← hexValue? d))

/-- The character of an escape other than a numeric one. -/
def unescaped? (c : Char) : Option Char :=
  if c = '"' ∨ c = '\\' ∨ c = '/' then some c
  else if c = 'b' then some '\x08'
  else if c = 'f' then some '\x0c'
  else if c = 'n' then some '\n'
  else if c = 'r' then some '\r'
  else if c = 't' then some '\t'
  else none

/-- Whether a 16-bit unit is the first half of a surrogate pair. -/
def isHighSurrogate (n : Nat) : Bool := 0xD800 ≤ n && n ≤ 0xDBFF

/-- Whether a 16-bit unit is the second half of a surrogate pair. -/
def isLowSurrogate (n : Nat) : Bool := 0xDC00 ≤ n && n ≤ 0xDFFF

/-- The code point of a surrogate pair. -/
def ofSurrogates (high low : Nat) : Char :=
  Char.ofNat (0x10000 + (high - 0xD800) * 0x400 + (low - 0xDC00))

/-- Puts one character before the text that was read after it. -/
def andThen (c : Char) : Option (List Char × List Char) → Option (List Char × List Char)
  | some (cs, rest) => some (c :: cs, rest)
  | none => none

/-- Reads a JSON string whose opening quote has been read already, up to and with its closing quote.
A half of a surrogate pair without the other half is refused. -/
def read? : List Char → Option (List Char × List Char)
  | [] => none
  | '"' :: rest => some ([], rest)
  | '\\' :: 'u' :: a :: b :: c :: d :: rest =>
    match hex? a b c d with
    | none => none
    | some n =>
      if isHighSurrogate n then
        match rest with
        | '\\' :: 'u' :: e :: f :: g :: h :: rest =>
          match hex? e f g h with
          | none => none
          | some m => if isLowSurrogate m then andThen (ofSurrogates n m) (read? rest) else none
        | _ => none
      else if isLowSurrogate n then none
      else andThen (Char.ofNat n) (read? rest)
  | '\\' :: c :: rest =>
    match unescaped? c with
    | none => none
    | some d => andThen d (read? rest)
  | c :: rest => if c.toNat < 0x20 ∨ c = '\\' then none else andThen c (read? rest)

theorem andThen_eq_some_iff {c : Char} {r : Option (List Char × List Char)} {s rest : List Char} :
    andThen c r = some (s, rest) ↔ ∃ t, s = c :: t ∧ r = some (t, rest) := by
  cases r with
  | none => simp [andThen]
  | some p =>
    simp only [andThen, Option.some.injEq, Prod.mk.injEq]
    constructor
    · rintro ⟨rfl, rfl⟩; exact ⟨p.1, rfl, rfl⟩
    · rintro ⟨t, rfl, h⟩; simp [h]

/-- A string that is read takes at least its closing quote. -/
theorem length_lt_of_read? {cs s rest : List Char} (h : read? cs = some (s, rest)) :
    rest.length < cs.length := by
  fun_induction read? cs generalizing s <;> simp_all [andThen_eq_some_iff] <;> grind

end SuitePlan.Json.Text
