import SuitePlan.Proofs.Settings.Overrides
import SuitePlan.Stage.Order
import SuitePlan.Stage.Standard

/-!
# The options of a stage

A stage reads the options of its kind and no others (`Stage.apply_congr`), and it chooses values
only for these (`Stage.mem_options_of_chosen`). No option belongs to two kinds, and the one that
lists the stages belongs to none.
-/

namespace SuitePlan

/-- The options that stages of a kind read. -/
def StageKind.options : StageKind → List String
  | .profile => [Source.option, Source.directoryOption, Source.nameOption]
  | .iterate => [Repetition.option, Layout.option]
  | .shuffle => [Shuffle.Request.option, Shuffle.Request.seedOption]

/-- The options of a list have the same values. -/
def Settings.AgreeOn (options : List String) (s t : Settings) : Prop :=
  ∀ key ∈ options, s.get? key = t.get? key

namespace StageKind

theorem not_mem_options {kind other : StageKind} (hne : kind ≠ other) :
    ∀ key ∈ kind.options, key ∉ other.options := by
  revert hne
  cases kind <;> cases other <;> decide

theorem eq_of_mem_options {kind other : StageKind} {key : String} (h : key ∈ kind.options)
    (hother : key ∈ other.options) : kind = other := by
  by_cases heq : kind = other
  · exact heq
  · exact absurd hother (not_mem_options heq key h)

theorem option_not_mem_options (kind : StageKind) : StageKind.option ∉ kind.options := by
  cases kind <;> decide

theorem isKey_of_mem_options {kind : StageKind} {key : String} (h : key ∈ kind.options) :
    Settings.IsKey key := by
  have hall : ∀ kind : StageKind, ∀ key ∈ kind.options, Settings.IsKey key := by
    intro kind
    cases kind <;> decide
  exact hall kind key h

end StageKind

namespace Stage

variable {α : Type} [Item α] {kind : StageKind} {around : Surroundings} {s t : Settings}
  {items : List α} {d : Composition α} {key value : String}

theorem lineup?_congr {files : Files} (h : Settings.AgreeOn StageKind.profile.options s t) :
    s.lineup? files = t.lineup? files := by
  have hsource : Source.ofSettings files s = Source.ofSettings files t :=
    Source.ofSettings_congr (h Source.option (by decide)) (h Source.directoryOption (by decide))
  have hname : Source.chosenName? s = Source.chosenName? t :=
    Source.chosenName?_congr (h Source.nameOption (by decide))
  simp only [Settings.lineup?, Source.lineup, hsource, Source.entryName_congr hname]

/-- Settings that agree on the options of a kind mean the same to its stages. -/
theorem apply_congr (h : Settings.AgreeOn kind.options s t) :
    (ofKind kind : Stage α).apply around s items = (ofKind kind).apply around t items := by
  cases kind with
  | profile =>
    show applyProfile around s items = applyProfile around t items
    rw [applyProfile, applyProfile, lineup?_congr h]
  | iterate =>
    show applyIterate s items = applyIterate t items
    rw [applyIterate, applyIterate, Repetition.ofSettings_congr (h Repetition.option (by decide))
      (h Layout.option (by decide))]
  | shuffle =>
    show applyShuffle around s items = applyShuffle around t items
    rw [applyShuffle, applyShuffle, Shuffle.Request.ofSettings_congr
      (h Shuffle.Request.option (by decide)) (h Shuffle.Request.seedOption (by decide))]

/-- A stage without any of its options changes nothing. -/
theorem apply_of_unset (h : ∀ key ∈ kind.options, s.get? key = none) :
    (ofKind kind : Stage α).apply around s items = .ok ⟨items, .empty⟩ := by
  have hagree : Settings.AgreeOn kind.options s .empty := h
  rw [apply_congr hagree]
  cases kind with
  | profile => rfl
  | iterate =>
    refine applyIterate_eq_ok_iff.mpr ⟨1, .cyclic, rfl, ?_⟩
    rw [Repetition.repeated, Repetition.cyclic_eq, List.replicate_one, List.flatten_singleton]
  | shuffle => rfl

theorem mem_options_of_chosen (h : (ofKind kind).apply around s items = .ok d)
    (hchosen : d.chosen.get? key = some value) : key ∈ kind.options := by
  cases kind with
  | profile =>
    rcases applyProfile_eq_ok_iff.mp h with ⟨-, rfl⟩ | ⟨l, selected, -, -, rfl⟩
    · cases hchosen
    · obtain ⟨rfl, -⟩ := Table.get?_singleton_eq_some_iff.mp hchosen
      decide
  | iterate =>
    obtain ⟨n, layout, -, rfl⟩ := applyIterate_eq_ok_iff.mp h
    cases hchosen
  | shuffle =>
    rcases applyShuffle_eq_ok_iff.mp h with ⟨request, -, ⟨-, rfl⟩ | ⟨seed, -, rfl⟩⟩
    · cases hchosen
    · obtain ⟨rfl, -⟩ := Table.get?_singleton_eq_some_iff.mp hchosen
      decide

theorem chosen_eq_none (h : (ofKind kind).apply around s items = .ok d)
    (hkey : key ∉ kind.options) : d.chosen.get? key = none := by
  cases hchosen : d.chosen.get? key with
  | none => rfl
  | some value => exact absurd (mem_options_of_chosen h hchosen) hkey

end Stage

end SuitePlan
