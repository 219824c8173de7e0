import Std.Data.HashMap.Lemmas
import SuitePlan.Profile.Error
import SuitePlan.Profile.Lineup

/-!
# Selection

Items are matched with scenarios by name. Each run of a lineup selects all items of its scenario, in
the order in which the items were given, and a run without any is an error.

`getElem?_index` says that the index used for the selection holds, under each name that occurs, the
items of that name in their order, and `pick_index_cons` what the first of several runs selects.
-/

namespace SuitePlan

/-- Things that can be selected by the name of a scenario. -/
class Item (α : Type) where
  scenarioName : α → String

/-- A text is its own scenario's name. -/
instance : Item String := ⟨id⟩

namespace Item

variable {α : Type} [Item α]

/-- The items of one scenario. -/
def named (name : String) (items : List α) : List α :=
  items.filter fun item => scenarioName item == name

/-- The items of each scenario. -/
def index (items : List α) : Std.HashMap String (List α) :=
  items.foldr
    (fun item index => index.insert (scenarioName item) (item :: index.getD (scenarioName item) []))
    ∅

/-- Under a name the index holds the items of that name, if there are any. -/
theorem getElem?_index (items : List α) (name : String) :
    (index items)[name]? =
      if (named name items).isEmpty then none else some (named name items) := by
  induction items with
  | nil => simp [index, named]
  | cons item rest ih =>
    have hi : index (item :: rest) = (index rest).insert (scenarioName item)
        (item :: (index rest).getD (scenarioName item) []) := rfl
    rw [hi, Std.HashMap.getElem?_insert]
    by_cases h : scenarioName item = name
    · subst h
      have hd : (index rest).getD (scenarioName item) [] = named (scenarioName item) rest := by
        rw [Std.HashMap.getD_eq_getD_getElem?, ih]
        split <;> simp_all
      simp [hd, named]
    · simp [h, ih, named]

/-- The items that runs select from an index. -/
def pick (index : Std.HashMap String (List α)) : List Run → Except ProfileError (List α)
  | [] => .ok []
  | run :: rest =>
    match index[run.scenario]? with
    | none => .error (.unknownScenario run.scenario)
    | some items => (pick index rest).map (items ++ ·)

omit [Item α] in
@[simp] theorem pick_nil (index : Std.HashMap String (List α)) : pick index [] = .ok [] := rfl

/-- The first run selects the items of its scenario, and is an error if there are none. -/
theorem pick_index_cons (items : List α) (run : Run) (rest : List Run) :
    pick (index items) (run :: rest) =
      if (named run.scenario items).isEmpty then .error (.unknownScenario run.scenario)
      else (pick (index items) rest).map (named run.scenario items ++ ·) := by
  rw [pick, getElem?_index]
  by_cases h : (named run.scenario items).isEmpty = true <;> simp [h]

end Item

/-- The items that a lineup selects, run by run. -/
def Lineup.select [Item α] (l : Lineup) (items : List α) : Except ProfileError (List α) :=
  Item.pick (Item.index items) l.runs

end SuitePlan
