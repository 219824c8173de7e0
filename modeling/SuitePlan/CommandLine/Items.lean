import SuitePlan.Text.Blank
import SuitePlan.Text.Pieces

/-!
# Lists of items as text

A text lists one item a line. Blanks at the ends of a line and lines of blanks alone do not count.
Written, every item takes a line.
-/

namespace SuitePlan.CommandLine

/-- The items that a text lists. -/
def readItems (text : String) : List String :=
  let lines := (Text.pieces '\n' text.toList).map Text.trimmed
  (lines.filter fun line => !line.isEmpty).map String.ofList

/-- The text of lines. -/
def writeLines (lines : List String) : String :=
  String.join (lines.map fun line => line ++ "\n")

end SuitePlan.CommandLine
