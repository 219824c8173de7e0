import SuitePlan.Proofs.Pipeline.Payloads

/-!
# Repeating in place before or after a selection

Items that are repeated one by one stay next to their copies. So it makes no difference whether they
are repeated before the items of a profile are selected or afterwards: the suite is the same, and so
is the failure where there is none (`Pipeline.sequential_commutes_with_selection`).

With no repetition at all this is not so: the items that a profile selects are then missing from
what it selects from, or left out of what it has selected.
-/

namespace SuitePlan

variable {α : Type} {files : Files} {s : Settings} {items : List α} {n : Nat}

namespace Repetition

theorem sequential_append (n : Nat) (xs ys : List α) :
    sequential n (xs ++ ys) = sequential n xs ++ sequential n ys :=
  List.flatMap_append

/-- Repeated items are there exactly if there are items. -/
theorem isEmpty_sequential (hn : 1 ≤ n) (items : List α) :
    (sequential n items).isEmpty = items.isEmpty := by
  obtain ⟨m, rfl⟩ := Nat.exists_eq_add_of_le' hn
  cases items with
  | nil => rfl
  | cons item rest => rfl

theorem filter_sequential (p : α → Bool) (n : Nat) (items : List α) :
    (sequential n items).filter p = sequential n (items.filter p) := by
  induction items with
  | nil => rfl
  | cons item rest ih =>
    rw [sequential, List.flatMap_cons, List.filter_append, List.filter_replicate]
    show _ ++ (sequential n rest).filter p = _
    rw [ih, List.filter_cons]
    by_cases h : p item = true
    · rw [if_pos h, if_pos h]
      rfl
    · rw [if_neg h, if_neg h, List.nil_append]

/-- Settings that ask for repetitions in place give their number, which is one by default. -/
theorem exists_ofSettings_sequential (hlayout : Layout.ofSettings s = .ok .sequential)
    (hcount : s.get? option = none ∨ ∃ n, count s = .ok n ∧ 1 ≤ n) :
    ∃ n, 1 ≤ n ∧ ofSettings s = .ok (n, .sequential) := by
  rcases hcount with hnone | ⟨n, hn, hpos⟩
  · exact ⟨1, le_refl 1, ofSettings_eq_ok_iff.mpr ⟨count_of_get?_eq_none hnone, hlayout⟩⟩
  · exact ⟨n, hpos, ofSettings_eq_ok_iff.mpr ⟨hn, hlayout⟩⟩

end Repetition

open Repetition (sequential)

/-- The composition with every item repeated in place. -/
def Composition.repeatedInPlace (n : Nat) (c : Composition α) : Composition α :=
  ⟨sequential n c.items, c.chosen⟩

variable [Item α]

theorem Item.named_sequential (name : String) (n : Nat) (items : List α) :
    named name (sequential n items) = sequential n (named name items) :=
  Repetition.filter_sequential _ n items

theorem Stage.applyProfile_sequential (hn : 1 ≤ n) (around : Surroundings) (s : Settings)
    (items : List α) :
    applyProfile around s (sequential n items) =
      (applyProfile around s items).map (Composition.repeatedInPlace n) := by
  refine applyProfile_comm (fun runs => ?_) around
  exact Item.pick_index_comm rfl (Repetition.isEmpty_sequential hn)
    (Repetition.sequential_append n) (fun name => Item.named_sequential name n items) runs

namespace Pipeline

variable {seeds seeds' : Nat → Int64}

theorem compose_iterate_profile (hs : Repetition.ofSettings s = .ok (n, .sequential))
    (hn : 1 ≤ n) :
    (ofKinds [.iterate, .profile]).compose files seeds s items =
      (Stage.applyProfile ⟨files, seeds 1⟩ s items).map (Composition.repeatedInPlace n) := by
  have hiterate : Stage.applyIterate s items = .ok ⟨sequential n items, .empty⟩ :=
    Stage.applyIterate_eq_ok_iff.mpr ⟨n, .sequential, hs, rfl⟩
  simp only [compose, ofKinds, List.map_cons, List.map_nil, applyFrom, Stage.ofKind, hiterate,
    Composition.followedBy_of_start, Stage.applyProfile_sequential hn]
  cases Stage.applyProfile ⟨files, seeds 1⟩ s items with
  | error e => rfl
  | ok d => rfl

theorem compose_profile_iterate (hs : Repetition.ofSettings s = .ok (n, .sequential)) :
    (ofKinds [.profile, .iterate]).compose files seeds s items =
      (Stage.applyProfile ⟨files, seeds 0⟩ s items).map (Composition.repeatedInPlace n) := by
  have hiterate : ∀ given : List α, Stage.applyIterate s given =
      .ok ⟨sequential n given, .empty⟩ :=
    fun given => Stage.applyIterate_eq_ok_iff.mpr ⟨n, .sequential, hs, rfl⟩
  simp only [compose, ofKinds, List.map_cons, List.map_nil, applyFrom, Stage.ofKind]
  cases Stage.applyProfile ⟨files, seeds 0⟩ s items with
  | error e => rfl
  | ok d =>
    simp only [Composition.followedBy_of_start, hiterate]
    rfl

/-- Where items are repeated in place, and at least once, they may be repeated before the items of a
profile are selected or afterwards. What is composed is the same, and so is the failure. -/
theorem sequential_commutes_with_selection (hlayout : Layout.ofSettings s = .ok .sequential)
    (hcount : s.get? Repetition.option = none ∨ ∃ n, Repetition.count s = .ok n ∧ 1 ≤ n) :
    (∀ seeds seeds', (ofKinds [.iterate, .profile] : Pipeline α).compose files seeds s items =
      (ofKinds [.profile, .iterate]).compose files seeds' s items) ∧
    ∃ p q : Pipeline α,
      ofSettings (s.set StageKind.option "iterate,profile") = .ok p ∧
      ofSettings (s.set StageKind.option "profile,iterate") = .ok q ∧
      ∀ seeds seeds',
        p.compose files seeds (s.set StageKind.option "iterate,profile") items =
          q.compose files seeds' (s.set StageKind.option "profile,iterate") items := by
  obtain ⟨n, hn, hs⟩ := Repetition.exists_ofSettings_sequential hlayout hcount
  have hcommutes : ∀ seeds seeds',
      (ofKinds [.iterate, .profile] : Pipeline α).compose files seeds s items =
        (ofKinds [.profile, .iterate]).compose files seeds' s items := by
    intro seeds seeds'
    rw [compose_iterate_profile hs hn, compose_profile_iterate hs]
    rfl
  have horder : ∀ value kinds,
      StageKind.orderOfSettings (s.set StageKind.option value) = .ok kinds →
      ofSettings (s.set StageKind.option value) = .ok (ofKinds kinds : Pipeline α) := by
    intro value kinds h
    rw [ofSettings, h]
    rfl
  refine ⟨hcommutes, _, _, horder _ [.iterate, .profile] ?_, horder _ [.profile, .iterate] ?_, ?_⟩
  · rw [StageKind.orderOfSettings, Settings.get?_set, if_pos rfl]
    rfl
  · rw [StageKind.orderOfSettings, Settings.get?_set, if_pos rfl]
    rfl
  · intro seeds seeds'
    rw [compose_set_stages, compose_set_stages, hcommutes seeds seeds']

/-! ## Copies side by side -/

/-- Settings for a profile and for two copies of each item, one beside the other. -/
def inPlaceSettings : Settings :=
  .ofList [("profile", inlineText "p"), ("iterations", "2"), ("order", " SEQUENTIAL ")]

theorem lineup?_inPlaceSettings :
    inPlaceSettings.lineup? Files.empty = .ok (some (inlineLineup "p")) :=
  lineup?_plainText (by decide +kernel) (by cbv)

/-- The copies of each item named `a` are side by side, whichever stage comes first. -/
theorem sequential_commutes_with_selection_numbered :
    Layout.ofSettings inPlaceSettings = .ok .sequential ∧
    Repetition.count inPlaceSettings = .ok 2 ∧
    (ofKinds [.iterate, .profile]).compose Files.empty (fun _ => 0) inPlaceSettings
        [Numbered.mk "a" 1, ⟨"b", 2⟩, ⟨"a", 3⟩] =
      .ok ⟨[⟨"a", 1⟩, ⟨"a", 1⟩, ⟨"a", 3⟩, ⟨"a", 3⟩], .ofList [(Source.nameOption, "p")]⟩ := by
  have horder : inPlaceSettings.get? Layout.option = some " SEQUENTIAL " := by decide +kernel
  have hname : Layout.ofName? " SEQUENTIAL " = some .sequential := by decide +kernel
  have hlayout : Layout.ofSettings inPlaceSettings = .ok .sequential := by
    simp only [Layout.ofSettings, horder, hname]
  have hcount : Repetition.count inPlaceSettings = .ok 2 := by cbv
  have hselect : (inlineLineup "p").select [Numbered.mk "a" 1, ⟨"b", 2⟩, ⟨"a", 3⟩] =
      .ok [⟨"a", 1⟩, ⟨"a", 3⟩] :=
    Lineup.select_eq_ok_iff.mpr ⟨by decide, rfl⟩
  have hprofile : Stage.applyProfile ⟨Files.empty, 0⟩ inPlaceSettings
      [Numbered.mk "a" 1, ⟨"b", 2⟩, ⟨"a", 3⟩] =
        .ok ⟨[⟨"a", 1⟩, ⟨"a", 3⟩], .ofList [(Source.nameOption, "p")]⟩ :=
    Stage.applyProfile_eq_ok_iff.mpr
      (.inr ⟨inlineLineup "p", _, lineup?_inPlaceSettings, hselect, rfl⟩)
  have hrepetition := Repetition.ofSettings_eq_ok_iff.mpr ⟨hcount, hlayout⟩
  obtain ⟨hcommutes, -⟩ := @sequential_commutes_with_selection Numbered Files.empty inPlaceSettings
    [⟨"a", 1⟩, ⟨"b", 2⟩, ⟨"a", 3⟩] _ hlayout (.inr ⟨2, hcount, by decide⟩)
  refine ⟨hlayout, hcount, ?_⟩
  rw [hcommutes _ fun _ => 0, compose_profile_iterate hrepetition, hprofile]
  rfl

end Pipeline

end SuitePlan
