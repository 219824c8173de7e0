import SuitePlan.Attempt
import SuitePlan.Profile.Selection

/-!
# What is selected

The items of a lineup are those of its runs, run by run. If there are none for some run, the first
such run is what the selection fails with (`Lineup.select_follows_runs`). An item is selected as
often as there are runs of its scenario, each time as often as it was given (`Item.count_selected`).
-/

namespace SuitePlan

variable {α : Type} [Item α] {name : String} {item : α} {items selected : List α}
  {runs : List Run}

namespace Item

theorem mem_named_iff : item ∈ named name items ↔ item ∈ items ∧ scenarioName item = name := by
  simp [named]

theorem count_named [DecidableEq α] (name : String) (items : List α) (item : α) :
    (named name items).count item = if scenarioName item = name then items.count item else 0 := by
  by_cases h : scenarioName item = name
  · rw [if_pos h, named, List.count_filter (by simpa using h)]
  · rw [if_neg h, List.count_eq_zero]
    intro hmem
    exact h (mem_named_iff.mp hmem).2

theorem named_eq_nil_iff :
    named name items = [] ↔ ¬∃ item ∈ items, scenarioName item = name := by
  simp [named, List.filter_eq_nil_iff]

theorem pick_index_eq_ok_iff :
    pick (index items) runs = .ok selected ↔
      (∀ run ∈ runs, ∃ item ∈ items, scenarioName item = run.scenario) ∧
        selected = runs.flatMap fun run => named run.scenario items := by
  induction runs generalizing selected with
  | nil => simp [eq_comm]
  | cons run rest ih =>
    rw [pick_index_cons]
    by_cases h : ∃ item ∈ items, scenarioName item = run.scenario
    · have hne : named run.scenario items ≠ [] := fun hnil => named_eq_nil_iff.mp hnil h
      simp only [List.isEmpty_iff, hne, if_false, Attempt.map_eq_ok_iff, ih, List.forall_mem_cons,
        List.flatMap_cons]
      constructor
      · rintro ⟨later, ⟨hrest, rfl⟩, rfl⟩
        exact ⟨⟨h, hrest⟩, rfl⟩
      · rintro ⟨⟨-, hrest⟩, rfl⟩
        exact ⟨_, ⟨hrest, rfl⟩, rfl⟩
    · simp [named_eq_nil_iff.mpr h, h]

/-- A selection fails at the first run that there are no items for. -/
theorem pick_index_eq_error_iff {e : ProfileError} :
    pick (index items) runs = .error e ↔
      ∃ run, runs.find? (fun run => (named run.scenario items).isEmpty) = some run ∧
        e = .unknownScenario run.scenario := by
  induction runs with
  | nil => simp
  | cons run rest ih =>
    rw [pick_index_cons, List.find?_cons]
    by_cases h : (named run.scenario items).isEmpty = true
    · simp [h, eq_comm]
    · rw [if_neg h, Attempt.map_eq_error_iff, ih]
      simp [h]

/-- Selecting commutes with whatever can be done to items name by name, piece by piece, and without
any of them being lost altogether. The induction is on the runs: the first one without items is the
same on both sides. -/
theorem pick_index_comm {β : Type} [Item β] {f : List α → List β} (hnil : f [] = [])
    (hempty : ∀ xs, (f xs).isEmpty = xs.isEmpty) (happend : ∀ xs ys, f (xs ++ ys) = f xs ++ f ys)
    (hnamed : ∀ name, named name (f items) = f (named name items)) (runs : List Run) :
    pick (index (f items)) runs = (pick (index items) runs).map f := by
  induction runs with
  | nil => exact congrArg Except.ok hnil.symm
  | cons run rest ih =>
    rw [pick_index_cons, pick_index_cons, hnamed, ih, hempty]
    by_cases h : (named run.scenario items).isEmpty = true
    · rw [if_pos h, if_pos h]
      rfl
    · rw [if_neg h, if_neg h]
      cases pick (index items) rest with
      | error e => rfl
      | ok selected => exact congrArg Except.ok (happend _ selected).symm

theorem count_selected [DecidableEq α] (runs : List Run) (items : List α) (item : α) :
    (runs.flatMap fun run => named run.scenario items).count item =
      (runs.map Run.scenario).count (scenarioName item) * items.count item := by
  induction runs with
  | nil => simp
  | cons run rest ih =>
    rw [List.flatMap_cons, List.count_append, ih, count_named, List.map_cons, List.count_cons,
      Nat.add_mul, Nat.add_comm]
    by_cases h : scenarioName item = run.scenario
    · simp [h]
    · simp [h, Ne.symm h]

end Item

theorem Lineup.select_eq_ok_iff {l : Lineup} :
    l.select items = .ok selected ↔
      (∀ run ∈ l.runs, ∃ item ∈ items, Item.scenarioName item = run.scenario) ∧
        selected = l.runs.flatMap fun run => Item.named run.scenario items :=
  Item.pick_index_eq_ok_iff

/-- What is selected are the items of each run's scenario, run by run and in the order in which they
were given. The selection fails if and only if there are none for some run, and it names the first
such run. -/
theorem Lineup.select_follows_runs (l : Lineup) (items : List α) :
    ((∃ selected, l.select items = .ok selected) ↔
      ∀ run ∈ l.runs, ∃ item ∈ items, Item.scenarioName item = run.scenario) ∧
    (∀ selected, l.select items = .ok selected →
      selected = l.runs.flatMap fun run =>
        items.filter fun item => Item.scenarioName item == run.scenario) ∧
    ∀ e, l.select items = .error e ↔ ∃ before run after, l.runs = before ++ run :: after ∧
      (∀ earlier ∈ before, ∃ item ∈ items, Item.scenarioName item = earlier.scenario) ∧
      (¬∃ item ∈ items, Item.scenarioName item = run.scenario) ∧
      e = .unknownScenario run.scenario := by
  refine ⟨?_, fun selected h => (select_eq_ok_iff.mp h).2, fun e => ?_⟩
  · simp only [select_eq_ok_iff, exists_and_left, exists_eq, and_true]
  · rw [select, Item.pick_index_eq_error_iff]
    simp only [List.find?_eq_some_iff_append, List.isEmpty_iff, Item.named_eq_nil_iff]
    constructor
    · rintro ⟨run, ⟨hrun, before, after, hruns, hbefore⟩, rfl⟩
      refine ⟨before, run, after, hruns, fun earlier hearlier => ?_, hrun, rfl⟩
      simpa [Item.named] using hbefore earlier hearlier
    · rintro ⟨before, run, after, hruns, hbefore, hrun, rfl⟩
      refine ⟨run, ⟨hrun, before, after, hruns, fun earlier hearlier => ?_⟩, rfl⟩
      simpa [Item.named] using hbefore earlier hearlier

end SuitePlan
