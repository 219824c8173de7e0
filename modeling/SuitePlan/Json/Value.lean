import SuitePlan.Json.Number
import SuitePlan.Table

/-!
# JSON values

A value keeps the members of an object in the order and number in which the text gives them. Where
an object counts as a map, `sorted` gives its members in ascending order of their names, of several
members with one name only the last.
-/

namespace SuitePlan.Json

/-- A JSON value without parts. -/
inductive Scalar where
  | null
  | bool (value : Bool)
  | number (value : Number)
  | string (value : String)
  deriving DecidableEq, Repr

/-- A JSON value. -/
inductive Value where
  | scalar (value : Scalar)
  | array (items : List Value)
  | object (members : List (String × Value))
  deriving Repr

namespace Value

/-- The value of a text. -/
def ofString (s : String) : Value := .scalar (.string s)

/-- The text of a value that is one. -/
def text? : Value → Option String
  | .scalar (.string s) => some s
  | _ => none

mutual
/-- The same value with the members of every object in ascending order of their names, of several
with one name only the last. -/
def sorted : Value → Value
  | .scalar s => .scalar s
  | .array items => .array (sortedItems items)
  | .object members => .object (Table.ofList (sortedMembers members)).entries

/-- `sorted` of each item. -/
def sortedItems : List Value → List Value
  | [] => []
  | v :: rest => sorted v :: sortedItems rest

/-- `sorted` of each member's value. -/
def sortedMembers : List (String × Value) → List (String × Value)
  | [] => []
  | (key, v) :: rest => (key, sorted v) :: sortedMembers rest
end

end Value

end SuitePlan.Json
