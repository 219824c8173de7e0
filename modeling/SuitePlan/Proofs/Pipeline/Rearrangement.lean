import Mathlib.Data.List.Sort
import SuitePlan.Proofs.Pipeline.Orders

/-!
# Shuffling before a selection

A selection looks for items by the names of their scenarios, so that it does not matter how items of
different names are arranged among each other (`Lineup.select_congr`). If no two items have a name
in common, it does not matter how they are arranged at all, and shuffling them before the items of a
profile are selected changes neither what is selected nor how this fails
(`Pipeline.shuffle_before_selection`).
-/

namespace SuitePlan

variable {α : Type} [Item α] {files : Files} {s : Settings} {items others : List α}
  {around : Surroundings} {d : Composition α} {request : Shuffle.Request}

/-! ## Selecting -/

namespace Item

theorem pick_index_congr (h : ∀ name, named name others = named name items) (runs : List Run) :
    pick (index others) runs = pick (index items) runs := by
  induction runs with
  | nil => rfl
  | cons run rest ih => rw [pick_index_cons, pick_index_cons, h, ih]

/-- Of items whose names are all different, at most one has a given name. -/
theorem named_eq_of_perm (hnames : (items.map scenarioName).Nodup) (hperm : others.Perm items)
    (name : String) : named name others = named name items := by
  have hitems : items.Pairwise fun a b => scenarioName a ≠ scenarioName b :=
    List.pairwise_map.mp hnames
  have hothers : others.Pairwise fun a b => scenarioName a ≠ scenarioName b :=
    List.pairwise_map.mp ((hperm.map scenarioName).nodup_iff.mpr hnames)
  refine List.Perm.eq_of_pairwise ?_ (hothers.filter _) (hitems.filter _) (hperm.filter _)
  intro a b ha hb hne
  exact absurd ((mem_named_iff.mp ha).2.trans (mem_named_iff.mp hb).2.symm) hne

end Item

/-- What is selected depends on the items of each name alone. -/
theorem Lineup.select_congr (h : ∀ name, Item.named name others = Item.named name items)
    (l : Lineup) : l.select others = l.select items :=
  Item.pick_index_congr h l.runs

/-! ## Stages -/

namespace Stage

theorem applyProfile_congr (hprofile : s.get? Source.option ≠ none)
    (h : ∀ name, Item.named name others = Item.named name items) :
    applyProfile around s others = applyProfile around s items := by
  rw [applyProfile, applyProfile]
  cases hl : s.lineup? around.files with
  | error e => rfl
  | ok l? =>
    cases l? with
    | none => exact absurd (Settings.lineup?_eq_none_iff.mp hl) hprofile
    | some l =>
      show (l.select others).mapError _ >>= _ = (l.select items).mapError _ >>= _
      rw [Lineup.select_congr h]

omit [Item α] in
theorem perm_of_applyShuffle (h : applyShuffle around s items = .ok d) : d.items.Perm items := by
  obtain ⟨request, -, ⟨-, rfl⟩ | ⟨seed, -, rfl⟩⟩ := applyShuffle_eq_ok_iff.mp h
  · exact .refl items
  · exact Shuffle.permute_perm seed items

end Stage

/-! ## Pipelines -/

namespace Pipeline

variable {seeds seeds' : Nat → Int64}

theorem compose_shuffle_profile (hprofile : s.get? Source.option ≠ none)
    (hrequest : Shuffle.Request.ofSettings s = .ok request)
    (hnames : (items.map Item.scenarioName).Nodup) :
    ((ofKinds [.shuffle, .profile]).compose files seeds s items).map Composition.items =
      ((ofKinds [.profile]).compose files seeds' s items).map Composition.items := by
  obtain ⟨d, hd⟩ : ∃ d, Stage.applyShuffle ⟨files, seeds 0⟩ s items = .ok d :=
    Stage.exists_apply_iff_works.mpr (show StageKind.shuffle.Works files s items from ⟨_, hrequest⟩)
  have hselected : Stage.applyProfile ⟨files, seeds 1⟩ s d.items =
      Stage.applyProfile ⟨files, seeds' 0⟩ s items :=
    Stage.applyProfile_congr hprofile
      (Item.named_eq_of_perm hnames (Stage.perm_of_applyShuffle hd))
  rw [compose_profile, ← hselected]
  simp only [compose, ofKinds, List.map_cons, List.map_nil, applyFrom, Stage.ofKind, hd,
    Composition.followedBy_of_start]
  cases Stage.applyProfile ⟨files, seeds 1⟩ s d.items <;> rfl

/-- Items of different names may be shuffled before those of a profile are selected: the same ones
are selected in the same order, or the same failure ends the composition. It is enough for this that
the items of each name stay in their order. -/
theorem shuffle_before_selection (hprofile : s.get? Source.option ≠ none)
    (hshuffle : s.getFlag Shuffle.Request.option false = .ok true)
    (hseed : s.get? Shuffle.Request.seedOption = none ∨
      ∃ seed, s.getLong? Shuffle.Request.seedOption = .ok (some seed))
    (hnames : (items.map Item.scenarioName).Nodup) :
    (∀ seeds seeds',
      ((ofKinds [.shuffle, .profile]).compose files seeds s items).map Composition.items =
        ((ofKinds [.profile]).compose files seeds' s items).map Composition.items) ∧
    (∃ p q : Pipeline α,
      ofSettings (s.set StageKind.option "shuffle,profile") = .ok p ∧
      ofSettings (s.set StageKind.option "profile") = .ok q ∧
      ∀ seeds seeds',
        (p.compose files seeds (s.set StageKind.option "shuffle,profile") items).map
            Composition.items =
          (q.compose files seeds' (s.set StageKind.option "profile") items).map
            Composition.items) ∧
    ∀ (l : Lineup) (xs ys : List α),
      (∀ name, Item.named name xs = Item.named name ys) → l.select xs = l.select ys := by
  obtain ⟨seed?, hseed?⟩ : ∃ seed?, s.getLong? Shuffle.Request.seedOption = .ok seed? := by
    rcases hseed with hnone | ⟨seed, hsome⟩
    · exact ⟨none, Settings.getLong?_eq_none_iff.mpr hnone⟩
    · exact ⟨some seed, hsome⟩
  have hrequest := Shuffle.Request.ofSettings_eq_ok_iff.mpr ⟨true, seed?, hshuffle, hseed?, rfl⟩
  have hsame : ∀ seeds seeds',
      ((ofKinds [.shuffle, .profile]).compose files seeds s items).map Composition.items =
        ((ofKinds [.profile]).compose files seeds' s items).map Composition.items :=
    fun seeds seeds' => compose_shuffle_profile hprofile hrequest hnames
  refine ⟨hsame, ⟨ofKinds [.shuffle, .profile], ofKinds [.profile],
    ofSettings_set_stages rfl (List.cons_ne_nil _ _),
    ofSettings_set_stages rfl (List.cons_ne_nil _ _), fun seeds seeds' => ?_⟩, ?_⟩
  · rw [compose_set_stages, compose_set_stages, hsame seeds seeds']
  · exact fun l xs ys h => Lineup.select_congr h l

/-- The seed 2 reverses two items, which is not to be seen in what is selected of them. -/
theorem shuffle_before_selection_plain :
    plainSettings.getFlag Shuffle.Request.option false = .ok true ∧
    plainSettings.get? Shuffle.Request.seedOption = none ∧
    Shuffle.permute 2 ["a", "b"] = ["b", "a"] ∧
    ((ofKinds [.shuffle, .profile]).compose Files.empty (fun _ => 2) plainSettings
      ["a", "b"]).map Composition.items = .ok ["a"] := by
  have hprofile : plainSettings.get? Source.option ≠ none := by decide +kernel
  have hshuffle : plainSettings.getFlag Shuffle.Request.option false = .ok true := by cbv
  have hseed : plainSettings.get? Shuffle.Request.seedOption = none := by decide +kernel
  have hnames : (["a", "b"].map Item.scenarioName).Nodup := by decide
  have hselect : (inlineLineup "p").select ["a", "b"] = .ok ["a"] :=
    Lineup.select_eq_ok_iff.mpr ⟨by decide, rfl⟩
  have happly : Stage.applyProfile ⟨Files.empty, 2⟩ plainSettings ["a", "b"] =
      .ok ⟨["a"], .ofList [(Source.nameOption, "p")]⟩ :=
    Stage.applyProfile_eq_ok_iff.mpr
      (.inr ⟨inlineLineup "p", ["a"], lineup?_plainSettings, hselect, rfl⟩)
  obtain ⟨hsame, -, -⟩ :=
    @shuffle_before_selection String _ Files.empty _ _ hprofile hshuffle (.inl hseed) hnames
  refine ⟨hshuffle, hseed, by decide +kernel, ?_⟩
  rw [hsame _ fun _ => 2, compose_profile, happly]
  rfl

end Pipeline

end SuitePlan
