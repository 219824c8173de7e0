import SuitePlan.Catalog.Printer
import SuitePlan.Settings.Basic

/-!
# Compositions

A composition is a list of items together with the option values that were chosen, rather than
given, while it was put together. Settings with those values pinned ask for the same composition
again.
-/

namespace SuitePlan

/-- Items in run order, and the option values chosen on the way. -/
structure Composition (α : Type) where
  items : List α
  chosen : Table String := .empty

namespace Composition

/-- The settings `s` with every chosen value pinned. -/
def replaySettings (c : Composition α) (s : Settings) : Settings :=
  s.setAll c.chosen.entries

/-- The composition followed by another one of its items: the later choice of a value counts. -/
def followedBy (c d : Composition α) : Composition α :=
  ⟨d.items, c.chosen.insertAll d.chosen.entries⟩

/-- The JSON value of a composition of texts. -/
def toValue (c : Composition String) : Json.Value :=
  .object [("items", .array (c.items.map .ofString)), ("resolved", c.chosen.toValue)]

theorem get?_replaySettings (c : Composition α) (s : Settings) (key : String) :
    (c.replaySettings s).get? key = (c.chosen.get? key).or (s.get? key) :=
  Table.get?_insertAll_entries s.options c.chosen key

theorem get?_followedBy (c d : Composition α) (key : String) :
    (c.followedBy d).chosen.get? key = (d.chosen.get? key).or (c.chosen.get? key) :=
  Table.get?_insertAll_entries c.chosen d.chosen key

/-- Before the first choice there is nothing to keep. -/
theorem followedBy_of_start (items : List α) (d : Composition α) :
    (⟨items, .empty⟩ : Composition α).followedBy d = d :=
  congrArg (Composition.mk d.items) (Table.ofList_entries d.chosen)

end Composition

end SuitePlan
