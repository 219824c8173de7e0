import SuitePlan.Text.Combining
import SuitePlan.Text.Unprintable

/-!
# Quoted text

Messages show a text between double quotes. A quote, a backslash and four control characters are
written with a backslash, every other character that would not show as itself is written by its
code point in hexadecimal, and all else stands as it is.
-/

namespace SuitePlan.Text

/-- The code point of `c` in lower-case hexadecimal digits without padding. -/
def hexDigits (c : Char) : List Char :=
  Nat.toDigits 16 c.toNat

/-- How `c` is written between quotes. -/
def quotedChar (c : Char) : List Char :=
  if c = '\x00' then ['\\', '0']
  else if c = '\t' then ['\\', 't']
  else if c = '\n' then ['\\', 'n']
  else if c = '\r' then ['\\', 'r']
  else if c = '"' then ['\\', '"']
  else if c = '\\' then ['\\', '\\']
  else if isCombining c || isUnprintable c then ['\\', 'u', '{'] ++ hexDigits c ++ ['}']
  else [c]

/-- The text `s` between double quotes. -/
def quoted (s : String) : String :=
  String.ofList ('"' :: s.toList.flatMap quotedChar ++ ['"'])

end SuitePlan.Text
