import SuitePlan.Proofs.Pipeline.Options

/-!
# Stages under pinned values

Settings that pin what a stage has chosen make it do the same again, whatever seed is at hand
(`Stage.apply_pinned`). A seed is written and read back. The name of a profile is read back only if
it has no blanks at its ends (`Source.Stays`): a pinned name is trimmed like any other, and then it
names another profile. A blank one is passed over, and what led to it the first time does again.
-/

namespace SuitePlan

/-- `t` gives the options of a list the chosen values, and otherwise those that `s` does. -/
def Settings.Pins (options : List String) (chosen : Table String) (s t : Settings) : Prop :=
  ∀ key ∈ options, t.get? key = (chosen.get? key).or (s.get? key)

namespace Settings.Pins

variable {options : List String} {s t : Settings} {name key value : String}

theorem agreeOn (h : Pins options .empty s t) : AgreeOn options s t := by
  intro key hkey
  rw [h key hkey, Table.get?_empty, Option.none_or]

theorem get?_chosen (h : Pins options (.ofList [(name, value)]) s t) (hname : name ∈ options) :
    t.get? name = some value := by
  rw [h name hname, Table.get?_singleton, if_pos rfl, Option.some_or]

theorem get?_other (h : Pins options (.ofList [(name, value)]) s t) (hkey : key ∈ options)
    (hne : name ≠ key) : t.get? key = s.get? key := by
  rw [h key hkey, Table.get?_singleton, if_neg hne, Option.none_or]

end Settings.Pins

/-- A name that is blank, or the same without the blanks at its ends. -/
def Source.Stays (name : String) : Prop :=
  Text.isBlankText name = true ∨ Text.trim name = name

namespace Source

variable {s t : Settings} {source : Source} {c : Catalog} {name : String}

theorem chosenName?_of_blank (h : s.get? nameOption = some name)
    (hblank : Text.isBlankText name = true) : chosenName? s = none := by
  refine Option.eq_none_iff_forall_ne_some.mpr fun other hother => ?_
  obtain ⟨⟨value, hvalue, htrim⟩, hne⟩ := chosenName?_eq_some_iff.mp hother
  rw [h, Option.some.injEq] at hvalue
  rw [← htrim, ← hvalue] at hne
  exact hne (Text.trim_eq_empty_iff.mpr hblank)

theorem chosenName?_of_not_blank (h : s.get? nameOption = some name)
    (hblank : Text.isBlankText name = false) : chosenName? s = some (Text.trim name) := by
  refine chosenName?_eq_some_iff.mpr ⟨⟨name, h, rfl⟩, fun hempty => ?_⟩
  rw [Text.trim_eq_empty_iff.mp hempty] at hblank
  cases hblank

/-- A blank profile is never started from because settings name it. -/
theorem chosenName?_eq_none_of_blank (h : source.entryName s c = .ok name)
    (hblank : Text.isBlankText name = true) : chosenName? s = none := by
  refine Option.eq_none_iff_forall_ne_some.mpr fun other hother => ?_
  rw [entryName_of_chosenName? hother, Except.ok.injEq] at h
  obtain ⟨⟨value, -, htrim⟩, hne⟩ := chosenName?_eq_some_iff.mp hother
  have hempty := Text.trim_eq_empty_iff.mpr hblank
  rw [← h, ← htrim, Text.trim_trim, htrim] at hempty
  exact hne hempty

/-- The profile that was started from is started from again once its name is pinned. -/
theorem entryName_pinned (h : source.entryName s c = .ok name)
    (ht : t.get? nameOption = some name) (hstays : Stays name) :
    source.entryName t c = .ok name := by
  cases hblank : Text.isBlankText name with
  | true =>
    have hs : chosenName? s = none := chosenName?_eq_none_of_blank h hblank
    rw [← h]
    exact entryName_congr ((chosenName?_of_blank ht hblank).trans hs.symm)
  | false =>
    rcases hstays with htrue | htrim
    · rw [hblank] at htrue
      cases htrue
    · have hchosen := chosenName?_of_not_blank ht hblank
      rw [htrim] at hchosen
      exact entryName_of_chosenName? hchosen

end Source

theorem Shuffle.Request.ofSettings_pinned {s t : Settings} {request : Shuffle.Request}
    {generated seed : Int64} (h : ofSettings s = .ok request)
    (hseed : request.seed? generated = some seed) (hoption : t.get? option = s.get? option)
    (ht : t.get? seedOption = some (Text.Decimal.text seed.toInt)) :
    ofSettings t = .ok (.seeded seed) := by
  obtain ⟨on, given, hon, -, rfl⟩ := ofSettings_eq_ok_iff.mp h
  cases on with
  | false => cases hseed
  | true =>
    have hflag : t.getFlag option false = .ok true := by
      rw [← hon]
      exact Settings.getFlag_congr hoption false
    exact ofSettings_eq_ok_iff.mpr ⟨true, some seed, hflag, Settings.getLong?_of_text ht, rfl⟩

namespace Stage

variable {α : Type} [Item α] {files : Files} {seed seed' : Int64} {s t : Settings}
  {items : List α} {d : Composition α}

theorem applyProfile_pinned (h : applyProfile ⟨files, seed⟩ s items = .ok d)
    (hpins : Settings.Pins StageKind.profile.options d.chosen s t)
    (hstays : ∀ name, d.chosen.get? Source.nameOption = some name → Source.Stays name) :
    applyProfile ⟨files, seed'⟩ t items = .ok d := by
  rcases applyProfile_eq_ok_iff.mp h with ⟨hl, rfl⟩ | ⟨l, selected, hl, hselect, rfl⟩
  · refine applyProfile_eq_ok_iff.mpr (.inl ⟨?_, rfl⟩)
    rw [← lineup?_congr hpins.agreeOn]
    exact hl
  · have hname : Source.Stays l.name :=
      hstays l.name (Table.get?_singleton_eq_some_iff.mpr ⟨rfl, rfl⟩)
    have ht : t.get? Source.nameOption = some l.name := hpins.get?_chosen (by decide)
    have hoption : t.get? Source.option = s.get? Source.option :=
      hpins.get?_other (by decide) (by decide)
    have hdirectory : t.get? Source.directoryOption = s.get? Source.directoryOption :=
      hpins.get?_other (by decide) (by decide)
    obtain ⟨source, hsource, hlineup⟩ := Settings.lineup?_eq_some_iff.mp hl
    obtain ⟨c, hload, hentry, hlineup⟩ := Source.lineup_eq_ok_iff.mp hlineup
    have hsource' : Source.ofSettings files t = .ok (some source) := by
      rw [← hsource]
      exact Source.ofSettings_congr hoption hdirectory
    have hlineup' : source.lineup files t = .ok l :=
      Source.lineup_eq_ok_iff.mpr ⟨c, hload, Source.entryName_pinned hentry ht hname, hlineup⟩
    exact applyProfile_eq_ok_iff.mpr (.inr ⟨l, selected,
      Settings.lineup?_eq_some_iff.mpr ⟨source, hsource', hlineup'⟩, hselect, rfl⟩)

omit [Item α] in
theorem applyIterate_pinned (h : applyIterate s items = .ok d)
    (hpins : Settings.Pins StageKind.iterate.options d.chosen s t) :
    applyIterate t items = .ok d := by
  obtain ⟨n, layout, hs, rfl⟩ := applyIterate_eq_ok_iff.mp h
  have hagree := hpins.agreeOn
  rw [Repetition.ofSettings_congr (hagree Repetition.option (by decide))
    (hagree Layout.option (by decide))] at hs
  exact applyIterate_eq_ok_iff.mpr ⟨n, layout, hs, rfl⟩

omit [Item α] in
theorem applyShuffle_pinned (h : applyShuffle ⟨files, seed⟩ s items = .ok d)
    (hpins : Settings.Pins StageKind.shuffle.options d.chosen s t) :
    applyShuffle ⟨files, seed'⟩ t items = .ok d := by
  obtain ⟨request, hs, ⟨hoff, rfl⟩ | ⟨used, hused, rfl⟩⟩ := applyShuffle_eq_ok_iff.mp h
  · have hagree := hpins.agreeOn
    rw [Shuffle.Request.ofSettings_congr (hagree Shuffle.Request.option (by decide))
      (hagree Shuffle.Request.seedOption (by decide))] at hs
    refine applyShuffle_eq_ok_iff.mpr ⟨request, hs, .inl ⟨?_, rfl⟩⟩
    cases request with
    | off => rfl
    | seeded given => cases hoff
    | unseeded => cases hoff
  · have hoption : t.get? Shuffle.Request.option = s.get? Shuffle.Request.option :=
      hpins.get?_other (by decide) (by decide)
    have ht : t.get? Shuffle.Request.seedOption = some (Text.Decimal.text used.toInt) :=
      hpins.get?_chosen (by decide)
    exact applyShuffle_eq_ok_iff.mpr ⟨.seeded used,
      Shuffle.Request.ofSettings_pinned hs hused hoption ht, .inr ⟨used, rfl, rfl⟩⟩

/-- A stage does the same again where its choices are pinned, and needs no seed for it. -/
theorem apply_pinned {kind : StageKind} (h : (ofKind kind).apply ⟨files, seed⟩ s items = .ok d)
    (hpins : Settings.Pins kind.options d.chosen s t)
    (hstays : ∀ name, d.chosen.get? Source.nameOption = some name → Source.Stays name) :
    (ofKind kind).apply ⟨files, seed'⟩ t items = .ok d := by
  cases kind with
  | profile => exact applyProfile_pinned h hpins hstays
  | iterate => exact applyIterate_pinned h hpins
  | shuffle => exact applyShuffle_pinned h hpins

/-- A stage cannot choose a pinned name again if that name does not stay. -/
theorem stays_of_apply {kind : StageKind} {name : String}
    (h : (ofKind kind).apply ⟨files, seed⟩ t items = .ok d)
    (ht : t.get? Source.nameOption = some name)
    (hchosen : d.chosen.get? Source.nameOption = some name) : Source.Stays name := by
  cases hblank : Text.isBlankText name with
  | true => exact .inl hblank
  | false =>
    have hkind : kind = .profile :=
      StageKind.eq_of_mem_options (mem_options_of_chosen h hchosen) (by decide)
    subst hkind
    rcases applyProfile_eq_ok_iff.mp h with ⟨-, rfl⟩ | ⟨l, selected, hl, -, rfl⟩
    · cases hchosen
    · obtain ⟨source, -, hlineup⟩ := Settings.lineup?_eq_some_iff.mp hl
      obtain ⟨c, -, hentry, -⟩ := Source.lineup_eq_ok_iff.mp hlineup
      obtain ⟨-, rfl⟩ := Table.get?_singleton_eq_some_iff.mp hchosen
      rw [Source.entryName_of_chosenName? (Source.chosenName?_of_not_blank ht hblank),
        Except.ok.injEq] at hentry
      exact .inr hentry

end Stage

end SuitePlan
