import SuitePlan.Number.Shortest
import SuitePlan.Text.Decimal

/-!
# Numbers in JSON text

A literal without point and exponent is an integer if it fits a signed or an unsigned 64-bit word;
every other literal, and minus zero, is a binary64 number. Integers are written plainly. Binary64
numbers are written by their shortest decimal, always with a point or an exponent.
-/

namespace SuitePlan.Json

/-- A number as JSON text can hold it. -/
inductive Number where
  | integer (value : Int)
  | binary (negative : Bool) (magnitude : Binary64)
  deriving DecidableEq, Repr

namespace Number

/-! ## Writing -/

/-- How the shortest decimal of a binary64 number is set down. -/
structure Style where
  /-- The least power of ten whose number is written without an exponent. -/
  leastPlain : Int
  /-- The greatest power of ten whose number is written without an exponent. -/
  greatestPlain : Int

/-- Numbers from `1e-5` up to but not including `1e16` are written without an exponent. -/
def style : Style := ⟨-5, 15⟩

/-- The digits `ds` times `10 ^ grid` without an exponent, with at least one place after the
point. -/
def plain (ds : List Char) (grid : Int) : List Char :=
  let places := (-grid).toNat
  if 0 ≤ grid then ds ++ List.replicate grid.toNat '0' ++ ['.', '0']
  else if places < ds.length then
    ds.take (ds.length - places) ++ '.' :: ds.drop (ds.length - places)
  else ['0', '.'] ++ List.replicate (places - ds.length) '0' ++ ds

/-- The digits `ds` with a point after the first, times ten to the `power`, whose sign is always
written. -/
def withExponent (ds : List Char) (power : Int) : List Char :=
  let fraction := if ds.length ≤ 1 then [] else '.' :: ds.drop 1
  let sign := if power < 0 then '-' else '+'
  ds.take 1 ++ fraction ++ 'e' :: sign :: Text.Decimal.digits power.natAbs

/-- The text of a magnitude. -/
def renderMagnitude (x : Binary64) : List Char :=
  let (c, grid) := x.shortest
  let ds := Text.Decimal.digits c
  let power := grid + (ds.length - 1 : Nat)
  if style.leastPlain ≤ power ∧ power ≤ style.greatestPlain then plain ds grid
  else withExponent ds power

/-- The text of a number. -/
def render : Number → List Char
  | .integer n => Text.Decimal.render n
  | .binary negative x => if negative then '-' :: renderMagnitude x else renderMagnitude x

/-! ## Reading -/

/-- The greatest significand that is kept exactly while a literal is read. -/
def greatestSignificand : Nat := UInt64.size - 1

/-- Appends digits to a significand while it stays within the greatest one. Returns the significand
and how many digits were left out. -/
def gather : Nat → List Char → Nat × Nat
  | significand, [] => (significand, 0)
  | significand, c :: rest =>
    let next := 10 * significand + (c.toNat - '0'.toNat)
    if next ≤ greatestSignificand then gather next rest else (significand, rest.length + 1)

/-- The digits after a point, none if there is no point. A point needs a digit after it. -/
def readFraction? : List Char → Option (List Char × List Char)
  | '.' :: rest =>
    let ds := rest.takeWhile Char.isDigit
    if ds.isEmpty then none else some (ds, rest.dropWhile Char.isDigit)
  | rest => some ([], rest)

/-- Whether a minus sign comes first, and the text after it. -/
def readSign : List Char → Bool × List Char
  | '-' :: rest => (true, rest)
  | rest => (false, rest)

/-- The digits of an exponent with an optional sign in front. -/
def readSigned? (cs : List Char) : Option (Int × List Char) :=
  let (negative, rest) := match cs with
    | '+' :: rest => (false, rest)
    | _ => readSign cs
  let ds := rest.takeWhile Char.isDigit
  if ds.isEmpty then none
  else
    let n : Int := Text.Decimal.value ds
    some (if negative then -n else n, rest.dropWhile Char.isDigit)

/-- The exponent, if one follows. -/
def readExponent? : List Char → Option (Option Int × List Char)
  | 'e' :: rest => (readSigned? rest).map fun (n, rest) => (some n, rest)
  | 'E' :: rest => (readSigned? rest).map fun (n, rest) => (some n, rest)
  | rest => some (none, rest)

/-- The number of a literal without point and exponent that fits 64 bits. -/
def ofWhole? (negative : Bool) (n : Nat) : Option Number :=
  if !negative then some (.integer n)
  else if 0 < n ∧ n ≤ Nat.pow 2 63 then some (.integer (-n))
  else (Binary64.nearest? n 1).map (.binary true)

/-- The number that a sign, the digits before and after the point and an exponent denote, if it is
not beyond the largest. -/
def ofLiteral? (negative : Bool) (whole fraction : List Char) (exponent : Option Int) :
    Option Number :=
  let (significand, dropped) := gather 0 whole
  if fraction.isEmpty && exponent.isNone && dropped == 0 then ofWhole? negative significand
  else
    let (significand, unused) := gather significand fraction
    let power : Int := dropped - (fraction.length - unused : Nat) + exponent.getD 0
    (Binary64.ofDecimal? significand power).map (.binary negative)

/-- Reads the longest number literal at the start of `cs`. A whole part of several digits does not
start with a zero. -/
def read? (cs : List Char) : Option (Number × List Char) :=
  let (negative, rest) := readSign cs
  let whole := rest.takeWhile Char.isDigit
  if whole.isEmpty || (whole.head? == some '0' && whole.length != 1) then none
  else do
    let (fraction, rest) ← readFraction? (rest.dropWhile Char.isDigit)
    let (exponent, rest) ← readExponent? rest
    let n ← ofLiteral? negative whole fraction exponent
    some (n, rest)

/-! ## What is left after reading -/

theorem length_dropWhile_le (p : Char → Bool) (cs : List Char) :
    (cs.dropWhile p).length ≤ cs.length :=
  (List.dropWhile_suffix p).length_le

theorem length_readSign_le (cs : List Char) : (readSign cs).2.length ≤ cs.length := by
  unfold readSign
  split <;> simp

theorem length_le_of_readFraction? {cs ds rest : List Char}
    (h : readFraction? cs = some (ds, rest)) : rest.length ≤ cs.length := by
  have hd := length_dropWhile_le Char.isDigit
  unfold readFraction? at h
  simp only at h
  grind

theorem length_le_of_readSigned? {cs rest : List Char} {n : Int}
    (h : readSigned? cs = some (n, rest)) : rest.length ≤ cs.length := by
  have hd := length_dropWhile_le Char.isDigit
  have hs := length_readSign_le cs
  unfold readSigned? at h
  simp only at h
  grind

theorem length_le_of_readExponent? {cs rest : List Char} {n : Option Int}
    (h : readExponent? cs = some (n, rest)) : rest.length ≤ cs.length := by
  unfold readExponent? at h
  split at h
  · obtain ⟨p, hp, h⟩ := Option.map_eq_some_iff.mp h
    have := length_le_of_readSigned? hp
    simp_all
    omega
  · obtain ⟨p, hp, h⟩ := Option.map_eq_some_iff.mp h
    have := length_le_of_readSigned? hp
    simp_all
    omega
  · simp_all

/-- A number that is read takes at least one digit. -/
theorem length_lt_of_read? {cs rest : List Char} {n : Number} (h : read? cs = some (n, rest)) :
    rest.length < cs.length := by
  have hs := length_readSign_le cs
  unfold read? at h
  simp only at h
  split at h
  · simp at h
  · rename_i hw
    simp only [Option.bind_eq_bind, Option.bind_eq_some_iff, Prod.exists] at h
    obtain ⟨fraction, more, hf, exponent, after, he, m, -, h⟩ := h
    simp only [Option.some.injEq, Prod.mk.injEq] at h
    have hf := length_le_of_readFraction? hf
    have he := length_le_of_readExponent? he
    have hlen := congrArg List.length
      (List.takeWhile_append_dropWhile (p := Char.isDigit) (l := (readSign cs).2))
    have hpos : 0 < ((readSign cs).2.takeWhile Char.isDigit).length := by
      rw [List.length_pos_iff]
      intro h0
      simp [h0] at hw
    rw [List.length_append] at hlen
    rw [← h.2]
    omega

end Number

end SuitePlan.Json
