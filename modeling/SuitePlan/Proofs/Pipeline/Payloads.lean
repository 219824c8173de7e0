import Mathlib.Data.List.FinRange
import Mathlib.Data.List.NodupEquivFin
import SuitePlan.Proofs.Pipeline.Orders

/-!
# What items carry besides their names

Stages copy, select and move items, and nothing but the name of an item's scenario tells them what
to do with it. So items may be exchanged for others with the same names before a pipeline or after
it (`Pipeline.compose_exchanged`). Shuffling does not even look at the names: the seed and the
number of items give the order (`Shuffle.exists_order`).
-/

namespace SuitePlan

variable {α β : Type} {f : α → β} {files : Files} {s : Settings} {seeds : Nat → Int64}
  {items : List α}

/-- The composition with every item replaced by its image under `f`. -/
def Composition.map (f : α → β) (c : Composition α) : Composition β :=
  ⟨c.items.map f, c.chosen⟩

theorem Composition.map_followedBy (f : α → β) (c d : Composition α) :
    (c.followedBy d).map f = (c.map f).followedBy (d.map f) := rfl

/-! ## Shuffling -/

namespace Shuffle

theorem swapIfInBounds_map (f : α → β) (items : Array α) (i j : Nat) :
    (items.map f).swapIfInBounds i j = (items.swapIfInBounds i j).map f := by
  by_cases h : i < items.size ∧ j < items.size
  · ext k hk hk'
    · simp
    · simp only [Array.swapIfInBounds_def, Array.size_map, h, dite_true, Array.getElem_map,
        Array.getElem_swap]
      split_ifs <;> rfl
  · simp only [Array.swapIfInBounds_def, Array.size_map]
    split_ifs with hi hj
    · exact absurd ⟨hi, hj⟩ h
    · rfl
    · rfl

theorem swapDown_map (f : α → β) (i : Nat) (draws : List Nat) (items : Array α) :
    swapDown i draws (items.map f) = (swapDown i draws items).map f := by
  induction i generalizing draws items with
  | zero => rfl
  | succ i ih =>
    cases draws with
    | nil => rfl
    | cons j draws => rw [swapDown, swapIfInBounds_map, ih, swapDown]

theorem permute_map (f : α → β) (seed : Int64) (items : List α) :
    permute seed (items.map f) = (permute seed items).map f := by
  rw [permute, List.length_map, ← List.map_toArray, swapDown_map, Array.toList_map, permute]

/-- A seed has one order for all lists of a length: each place is filled from the same place of the
list, whatever stands there. -/
theorem exists_order (seed : Int64) (n : Nat) :
    ∃ order : Equiv.Perm (Fin n), ∀ (α : Type) (items : List α) (h : items.length = n),
      permute seed items = List.ofFn fun i => items[order i] := by
  -- The order is what becomes of the list of the places themselves.
  have hperm : (permute seed (List.finRange n)).Perm (List.finRange n) := permute_perm seed _
  have hlength : (permute seed (List.finRange n)).length = n := by
    rw [hperm.length_eq, List.length_finRange]
  have hnodup : (permute seed (List.finRange n)).Nodup :=
    hperm.nodup_iff.mpr (List.nodup_finRange n)
  have hall : ∀ place, place ∈ permute seed (List.finRange n) :=
    fun place => hperm.mem_iff.mpr (List.mem_finRange place)
  refine ⟨(finCongr hlength.symm).trans (hnodup.getEquivOfForallMemList _ hall), ?_⟩
  intro α items h
  subst h
  have hitems : (List.finRange items.length).map (fun place => items[place]) = items :=
    List.map_get_finRange items
  conv_lhs => rw [← hitems, permute_map]
  apply List.ext_getElem
  · simp [hlength]
  · intro i hi hi'
    simp [List.Nodup.getEquivOfForallMemList]

end Shuffle

/-! ## Repeating -/

theorem Repetition.repeated_map (f : α → β) (layout : Layout) (n : Nat) (items : List α) :
    repeated layout n (items.map f) = (repeated layout n items).map f := by
  cases layout with
  | cyclic =>
    show cyclic n (items.map f) = (cyclic n items).map f
    rw [cyclic_eq, cyclic_eq, List.map_flatten, List.map_replicate]
  | sequential =>
    show sequential n (items.map f) = (sequential n items).map f
    rw [sequential, sequential, List.flatMap_map, List.map_flatMap]
    simp only [List.map_replicate]

variable [Item α] [Item β]

/-! ## Selecting -/

namespace Item

theorem named_map (hf : ∀ item, scenarioName (f item) = scenarioName item) (name : String)
    (items : List α) : named name (items.map f) = (named name items).map f := by
  have hsame : ((fun item => scenarioName item == name) ∘ f) =
      fun item : α => scenarioName item == name := by
    funext item
    rw [Function.comp_apply, hf]
  rw [named, named, List.filter_map, hsame]

theorem pick_index_map (hf : ∀ item, scenarioName (f item) = scenarioName item)
    (items : List α) (runs : List Run) :
    pick (index (items.map f)) runs = (pick (index items) runs).map (List.map f) :=
  pick_index_comm rfl (fun _ => List.isEmpty_map) (fun _ _ => List.map_append)
    (fun name => named_map hf name items) runs

end Item

/-! ## Stages -/

/-- The profile stage does with items what a selection does with them. -/
theorem Stage.applyProfile_comm {f : List α → List β}
    (h : ∀ runs, Item.pick (Item.index (f items)) runs =
      (Item.pick (Item.index items) runs).map f) (around : Surroundings) :
    applyProfile around s (f items) =
      (applyProfile around s items).map fun d => ⟨f d.items, d.chosen⟩ := by
  rw [applyProfile, applyProfile]
  rcases s.lineup? around.files with e | _ | l
  · rfl
  · rfl
  · show (l.select (f items)).mapError Failure.profile >>= _ =
      Except.map _ ((l.select items).mapError Failure.profile >>= _)
    rw [Lineup.select, Lineup.select, h]
    cases Item.pick (Item.index items) l.runs with
    | error e => rfl
    | ok selected => rfl

theorem Stage.apply_map (hf : ∀ item, Item.scenarioName (f item) = Item.scenarioName item)
    (kind : StageKind) (around : Surroundings) :
    (ofKind kind : Stage β).apply around s (items.map f) =
      ((ofKind kind).apply around s items).map (Composition.map f) := by
  cases kind with
  | profile => exact applyProfile_comm (Item.pick_index_map hf items) around
  | iterate =>
    show applyIterate s (items.map f) = (applyIterate s items).map _
    rw [applyIterate, applyIterate]
    rcases Repetition.ofSettings s with e | ⟨n, layout⟩
    · rfl
    · show Except.ok _ = Except.ok _
      rw [Repetition.repeated_map, Composition.map]
  | shuffle =>
    show applyShuffle around s (items.map f) = (applyShuffle around s items).map _
    rw [applyShuffle, applyShuffle]
    rcases Shuffle.Request.ofSettings s with e | request
    · rfl
    · simp only [Except.mapError, bind, Except.bind]
      cases request.seed? around.seed with
      | none => rfl
      | some seed =>
        simp only [Shuffle.permute_map]
        rfl

/-! ## Pipelines -/

namespace Pipeline

theorem applyFrom_map (hf : ∀ item, Item.scenarioName (f item) = Item.scenarioName item)
    (kinds : List StageKind) (c : Composition α) :
    applyFrom files seeds s (ofKinds kinds) (c.map f) =
      (applyFrom files seeds s (ofKinds kinds) c).map (Composition.map f) := by
  induction kinds generalizing seeds c with
  | nil => rfl
  | cons kind rest ih =>
    simp only [ofKinds, List.map_cons, applyFrom]
    rw [Composition.map, Stage.apply_map hf]
    cases (Stage.ofKind kind).apply ⟨files, seeds 0⟩ s c.items with
    | error e => rfl
    | ok d =>
      show applyFrom _ _ _ _ ((c.map f).followedBy (d.map f)) = _
      rw [← Composition.map_followedBy]
      exact ih (c.followedBy d)

/-- Items may be exchanged for others of the same names before the stages or after them: with the
same result, or the same failure. For shuffling not even the names matter. -/
theorem compose_exchanged (hf : ∀ item, Item.scenarioName (f item) = Item.scenarioName item)
    (kinds : List StageKind) (files : Files) (seeds : Nat → Int64) (s : Settings)
    (items : List α) :
    (ofKinds kinds).compose files seeds s (items.map f) =
      ((ofKinds kinds).compose files seeds s items).map (Composition.map f) ∧
    (∀ (γ δ : Type) (g : γ → δ) (seed : Int64) (others : List γ),
      Shuffle.permute seed (others.map g) = (Shuffle.permute seed others).map g) ∧
    ∀ (seed : Int64) (n : Nat), ∃ order : Equiv.Perm (Fin n),
      ∀ (γ : Type) (others : List γ) (h : others.length = n),
        Shuffle.permute seed others = List.ofFn fun i => others[order i] :=
  ⟨applyFrom_map hf kinds ⟨items, .empty⟩, fun _ _ => Shuffle.permute_map, Shuffle.exists_order⟩

end Pipeline

/-- Selected among items with numbers, those named `a` come out in the places that they have when
only their names are there. -/
theorem Pipeline.compose_exchanged_numbered :
    (∀ item : Numbered, Item.scenarioName item.name = Item.scenarioName item) ∧
    ∃ r : Composition Numbered,
      (ofKinds [.iterate, .profile]).compose Files.empty (fun _ => 0) doubledSettings
        [⟨"a", 1⟩, ⟨"b", 2⟩, ⟨"a", 3⟩] = .ok r ∧ r.map Numbered.name = doubledSuite := by
  refine ⟨fun _ => rfl, ?_⟩
  obtain ⟨hcompose, -, -⟩ := compose_exchanged (f := Numbered.name) (fun _ => rfl)
    [.iterate, .profile] Files.empty (fun _ => 0) doubledSettings [⟨"a", 1⟩, ⟨"b", 2⟩, ⟨"a", 3⟩]
  rw [show [⟨"a", 1⟩, ⟨"b", 2⟩, ⟨"a", 3⟩].map Numbered.name = ["a", "b", "a"] from rfl,
    compose_doubledSettings] at hcompose
  exact Attempt.map_eq_ok_iff.mp hcompose.symm

end SuitePlan
