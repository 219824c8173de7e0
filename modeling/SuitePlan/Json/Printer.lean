import SuitePlan.Json.Text
import SuitePlan.Json.Value

/-!
# Writing JSON text

The compact form has no blanks. The indented form has one item or member a line, two blanks deeper
than the line of its bracket, and a blank after the colon; an empty array or object stays on its
line.
-/

namespace SuitePlan.Json

/-- The text of a scalar. -/
def Scalar.render : Scalar → List Char
  | .null => ['n', 'u', 'l', 'l']
  | .bool true => ['t', 'r', 'u', 'e']
  | .bool false => ['f', 'a', 'l', 's', 'e']
  | .number n => n.render
  | .string s => Text.render s

namespace Value

mutual
/-- The compact text of a value. -/
def compact : Value → List Char
  | .scalar s => s.render
  | .array items => '[' :: (compactItems items ++ [']'])
  | .object members => '{' :: (compactMembers members ++ ['}'])

/-- The compact texts of items with commas between them. -/
def compactItems : List Value → List Char
  | [] => []
  | [v] => compact v
  | v :: rest => compact v ++ ',' :: compactItems rest

/-- The compact texts of members with commas between them. -/
def compactMembers : List (String × Value) → List Char
  | [] => []
  | [(key, v)] => Text.render key ++ ':' :: compact v
  | (key, v) :: rest => Text.render key ++ ':' :: compact v ++ ',' :: compactMembers rest
end

/-- The compact text of a value, as a string. -/
def compactText (v : Value) : String := String.ofList v.compact

/-- A line break and the blanks before a line at the given depth. -/
def lineBreak (depth : Nat) : List Char :=
  '\n' :: List.replicate (2 * depth) ' '

mutual
/-- The indented text of a value whose line is at the given depth. -/
def indented (depth : Nat) : Value → List Char
  | .scalar s => s.render
  | .array [] => ['[', ']']
  | .array (v :: rest) =>
    '[' :: (indentedItems (depth + 1) (v :: rest) ++ lineBreak depth ++ [']'])
  | .object [] => ['{', '}']
  | .object (m :: rest) =>
    '{' :: (indentedMembers (depth + 1) (m :: rest) ++ lineBreak depth ++ ['}'])

/-- The lines of items at the given depth. -/
def indentedItems (depth : Nat) : List Value → List Char
  | [] => []
  | [v] => lineBreak depth ++ indented depth v
  | v :: rest => lineBreak depth ++ indented depth v ++ ',' :: indentedItems depth rest

/-- The lines of members at the given depth. -/
def indentedMembers (depth : Nat) : List (String × Value) → List Char
  | [] => []
  | [(key, v)] => lineBreak depth ++ Text.render key ++ [':', ' '] ++ indented depth v
  | (key, v) :: rest =>
    lineBreak depth ++ Text.render key ++ [':', ' '] ++ indented depth v
      ++ ',' :: indentedMembers depth rest
end

/-- The indented text of a value, as a string. -/
def indentedText (v : Value) : String := String.ofList (v.indented 0)

end Value

end SuitePlan.Json
