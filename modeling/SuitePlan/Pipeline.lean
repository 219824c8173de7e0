import SuitePlan.Stage.Order
import SuitePlan.Stage.Standard

/-!
# Pipelines

A pipeline is a list of stages that are applied one after the other under the same settings: each
takes the items of the one before it. The first failure ends it, and the values that the stages
choose are collected, later ones counting. Each stage has a seed of its own at hand.
-/

namespace SuitePlan

/-- Stages in the order in which they are applied. -/
abbrev Pipeline (α : Type) := List (Stage α)

namespace Pipeline

variable {α : Type}

/-- The pipeline of stages of the given kinds. -/
def ofKinds [Item α] (kinds : List StageKind) : Pipeline α :=
  kinds.map Stage.ofKind

/-- The pipeline of stages in their standard order. -/
def standard [Item α] : Pipeline α :=
  ofKinds StageKind.standardOrder

/-- The pipeline that settings ask for. -/
def ofSettings [Item α] (s : Settings) : Except SettingsError (Pipeline α) :=
  (StageKind.orderOfSettings s).map ofKinds

/-- The names of the stages. -/
def stageNames (p : Pipeline α) : List String :=
  p.map Stage.name

/-- Applies stages to what was composed before them. The seed for the stage at place `i` is
`seeds i`. -/
def applyFrom (files : Files) (seeds : Nat → Int64) (s : Settings) :
    Pipeline α → Composition α → Except Failure (Composition α)
  | [], c => .ok c
  | stage :: rest, c =>
    match stage.apply ⟨files, seeds 0⟩ s c.items with
    | .error e => .error e
    | .ok d => applyFrom files (fun i => seeds (i + 1)) s rest (c.followedBy d)

/-- Applies the stages to items. -/
def compose (p : Pipeline α) (files : Files) (seeds : Nat → Int64) (s : Settings)
    (items : List α) : Except Failure (Composition α) :=
  p.applyFrom files seeds s ⟨items, .empty⟩

/-- The notes taken by `stages` stages, of which only the given ones are left. -/
def notesFrom (stages : Nat) (files : Files) (seeds : Nat → Int64) (s : Settings) :
    Pipeline α → List α → List Note
  | [], items => [.composed items.length stages]
  | stage :: rest, items =>
    let around : Surroundings := ⟨files, seeds 0⟩
    stage.notes around s items ++
      match stage.apply around s items with
      | .error _ => []
      | .ok c =>
        .applied stage.name items.length c.items.length
          :: notesFrom stages files (fun i => seeds (i + 1)) s rest c.items

/-- The notes taken while the stages are applied to items. -/
def notes (p : Pipeline α) (files : Files) (seeds : Nat → Int64) (s : Settings) (items : List α) :
    List Note :=
  notesFrom p.length files seeds s p items

end Pipeline

end SuitePlan
