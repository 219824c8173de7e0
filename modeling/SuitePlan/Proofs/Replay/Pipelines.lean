import Mathlib
import SuitePlan.Proofs.Pipeline.Passes
import SuitePlan.Proofs.Replay.Stages

/-!
# Replaying a composition

Items pass through stages in the same way under any settings that pin what each stage has chosen
(`Passes.pinned`). The settings of a replay pin the values that are left of all choices, which are
those of each stage where no other one has overwritten them (`Pipeline.compose_replaySettings`).

For a pipeline that settings ask for this is always so, as no kind of stage is listed twice. Such a
composition is replayed exactly if the name of its profile, where it has one, is blank or the same
without the blanks at its ends (`replay_iff`).
-/

namespace SuitePlan

variable {α : Type} [Item α] {files : Files} {seeds seeds' : Nat → Int64} {s t : Settings}
  {items : List α} {kinds : List StageKind} {r : Composition α} {steps : List (Step α)}

theorem Passes.pinned (h : Passes files s seeds items steps)
    (hpins : ∀ step ∈ steps, Settings.Pins step.kind.options step.made.chosen s t)
    (hstays : ∀ step ∈ steps, ∀ name,
      step.made.chosen.get? Source.nameOption = some name → Source.Stays name) :
    Passes files t seeds' items steps := by
  induction h generalizing seeds' with
  | nil => exact .nil
  | cons hmade _ ih =>
    refine .cons ?_ (ih ?_ ?_)
    · exact Stage.apply_pinned hmade (hpins _ List.mem_cons_self) (hstays _ List.mem_cons_self)
    · intro step hmem
      exact hpins step (List.mem_cons_of_mem _ hmem)
    · intro step hmem
      exact hstays step (List.mem_cons_of_mem _ hmem)

/-- A pipeline composes the same again where the values that are left of all choices are those of
each stage. -/
theorem Pipeline.compose_replaySettings (h : Passes files s seeds items steps)
    (hkinds : steps.map Step.kind = kinds) (hr : Step.merged ⟨items, .empty⟩ steps = r)
    (hkept : ∀ step ∈ steps, ∀ key ∈ step.kind.options,
      r.chosen.get? key = step.made.chosen.get? key)
    (hstays : ∀ name, r.chosen.get? Source.nameOption = some name → Source.Stays name) :
    (ofKinds kinds).compose files seeds' (r.replaySettings s) items = .ok r := by
  refine compose_ofKinds_eq_ok_iff.mpr ⟨steps, h.pinned ?_ ?_, hkinds, hr⟩
  · intro step hmem key hkey
    rw [Composition.get?_replaySettings, hkept step hmem key hkey]
  · intro step hmem name hname
    apply hstays name
    rw [hkept step hmem _ (h.mem_options_of_chosen hmem hname), hname]

/-- A replay has the same stages: no stage chooses which stages there are. -/
theorem orderOfSettings_replaySettings (h : (Pipeline.ofKinds kinds).compose files seeds s items =
      .ok r) : StageKind.orderOfSettings (r.replaySettings s) = StageKind.orderOfSettings s := by
  obtain ⟨steps, hpass, -, rfl⟩ := Pipeline.compose_ofKinds_eq_ok_iff.mp h
  apply StageKind.orderOfSettings_congr
  rw [Composition.get?_replaySettings, Step.get?_merged_of_forall, Table.get?_empty, Option.none_or]
  intro step hmem
  exact hpass.chosen_eq_none hmem step.kind.option_not_mem_options

/-- The suite of a pipeline that settings ask for is composed again, whatever seeds are generated
this time, exactly if the name of its profile stays as it is when it is read. -/
theorem replay_iff {p : Pipeline α} (hp : Pipeline.ofSettings s = .ok p)
    (hr : p.compose files seeds s items = .ok r) :
    (∃ q, Pipeline.ofSettings (r.replaySettings s) = .ok q ∧
      q.compose files seeds' (r.replaySettings s) items = .ok r) ↔
    ∀ name, r.chosen.get? Source.nameOption = some name →
      Text.isBlankText name = true ∨ Text.trim name = name := by
  obtain ⟨kinds, horder, rfl⟩ := Attempt.map_eq_ok_iff.mp hp
  have hsame : Pipeline.ofSettings (α := α) (r.replaySettings s) = .ok (.ofKinds kinds) := by
    rw [Pipeline.ofSettings, orderOfSettings_replaySettings hr, horder]
    rfl
  constructor
  · intro h name hname
    obtain ⟨q, hq, hagain⟩ := h
    rw [hsame, Except.ok.injEq] at hq
    subst hq
    obtain ⟨steps, hpass, -, hmerged⟩ := Pipeline.compose_ofKinds_eq_ok_iff.mp hagain
    have hchosen := hname
    rw [← hmerged] at hchosen
    rcases Step.exists_of_get?_merged hchosen with hnone | ⟨step, hmem, hstep⟩
    · cases hnone
    · obtain ⟨seed, given, hmade⟩ := hpass.exists_apply hmem
      have ht : (r.replaySettings s).get? Source.nameOption = some name := by
        rw [Composition.get?_replaySettings, hname, Option.some_or]
      exact Stage.stays_of_apply hmade ht hstep
  · intro hstays
    refine ⟨.ofKinds kinds, hsame, ?_⟩
    obtain ⟨steps, hpass, hkinds, hmerged⟩ := Pipeline.compose_ofKinds_eq_ok_iff.mp hr
    refine Pipeline.compose_replaySettings hpass hkinds hmerged ?_ hstays
    intro step hmem key hkey
    have hnodup : (steps.map Step.kind).Nodup := by
      rw [hkinds]
      exact StageKind.nodup_of_orderOfSettings horder
    rw [← hmerged]
    exact hpass.get?_merged_of_mem hnodup hmem hkey (Table.get?_empty key)

/-! ## Two names

A suite of one profile is composed from a catalog in its settings. With blanks around the name of
the profile it is not composed again, and without them it is, shuffled as before. -/

/-- The text of a catalog with one profile. -/
def inlineText (name : String) : String :=
  "\x7b\"profiles\":\x7b\"" ++ name ++
    "\":\x7b\"scenarios\":[\x7b\"scenario\":\"a\"\x7d]\x7d\x7d\x7d"

/-- The catalog that `inlineText` denotes. -/
def inlineCatalog (name : String) : Catalog where
  profiles := .ofList [(name, [.scenario ⟨"a", .middle, none, .empty⟩])]

variable {name start : String}

theorem ofText_inlineText (hname : name = " p " ∨ name = "p") :
    Catalog.ofText (inlineText name) = .ok (inlineCatalog name) := by
  have hread : ∀ name ∈ [" p ", "p"],
      (Catalog.ofText (inlineText name)).toOption = some (inlineCatalog name) := by
    decide +kernel
  have hcatalog := hread name (by simpa using hname)
  cases hc : Catalog.ofText (inlineText name) with
  | error fault =>
    rw [hc] at hcatalog
    cases hcatalog
  | ok c =>
    rw [hc] at hcatalog
    rw [Option.some.inj hcatalog]

theorem ofSettings_inlineText (hname : name = " p " ∨ name = "p")
    (hs : s.get? Source.option = some (inlineText name)) :
    Source.ofSettings Files.empty s = .ok (some (.inline (inlineText name))) := by
  have hshape : ∀ name ∈ [" p ", "p"], Text.trim (inlineText name) = inlineText name ∧
      (inlineText name).isEmpty = false ∧ (inlineText name).toList.head? = some '{' := by
    decide +kernel
  obtain ⟨htrim, hempty, hhead⟩ := hshape name (by simpa using hname)
  simp only [Source.ofSettings, hs, htrim, hempty, hhead, Bool.false_eq_true, if_false, if_true]

theorem lineup?_inlineText (hname : name = " p " ∨ name = "p")
    (hs : s.get? Source.option = some (inlineText name))
    (hstart : (Source.inline (inlineText name)).entryName s (inlineCatalog name) = .ok start) :
    s.lineup? Files.empty = ((inlineCatalog name).lineup start).map some := by
  have hload : (Source.inline (inlineText name)).load Files.empty = .ok (inlineCatalog name) := by
    rw [Source.load, Source.text]
    show (Catalog.ofText (inlineText name)).mapError _ = _
    rw [ofText_inlineText hname]
    rfl
  have hlineup : (Source.inline (inlineText name)).lineup Files.empty s =
      (inlineCatalog name).lineup start := by
    rw [Source.lineup, hload]
    show ((Source.inline (inlineText name)).entryName s (inlineCatalog name)).mapError _ >>= _ = _
    rw [hstart]
    rfl
  simp only [Settings.lineup?, ofSettings_inlineText hname hs, hlineup]

theorem entryName_inlineText (h : Source.chosenName? s = none) (name : String) :
    (Source.inline (inlineText name)).entryName s (inlineCatalog name) = .ok name := by
  simp only [Source.entryName, h]
  rfl

/-- The lineup of `inlineCatalog`. -/
def inlineLineup (name : String) : Lineup :=
  ⟨name, [⟨"a", .middle, name, .empty⟩]⟩

theorem lineup?_plainText (hs : s.get? Source.option = some (inlineText "p"))
    (hchosen : Source.chosenName? s = none) :
    s.lineup? Files.empty = .ok (some (inlineLineup "p")) := by
  rw [lineup?_inlineText (.inr rfl) hs (entryName_inlineText hchosen "p")]
  cbv

/-- Of items that all have the name of the only scenario, all are selected. -/
theorem select_inlineLineup (hne : items ≠ []) (h : ∀ item ∈ items, Item.scenarioName item = "a")
    (name : String) : (inlineLineup name).select items = .ok items := by
  have hnamed : Item.named "a" items = items :=
    List.filter_eq_self.mpr fun item hitem => by simp [h item hitem]
  have hsome : ¬items.isEmpty = true := by simpa using hne
  rw [Lineup.select, inlineLineup, Item.pick_index_cons, hnamed, if_neg hsome, Item.pick_nil]
  exact congrArg Except.ok (List.append_nil items)

/-- Settings with blanks around the name of the profile. -/
def spacedSettings : Settings :=
  .ofList [("profile", inlineText " p ")]

/-- The suite that these settings compose from the item `a`. -/
def spacedSuite : Composition String :=
  ⟨["a"], .ofList [("profile-name", " p ")]⟩

theorem compose_spacedSettings :
    Pipeline.standard.compose Files.empty (fun _ => 0) spacedSettings ["a"] = .ok spacedSuite := by
  have hlineup : spacedSettings.lineup? Files.empty = .ok (some (inlineLineup " p ")) := by
    have hchosen : Source.chosenName? spacedSettings = none := by cbv
    rw [lineup?_inlineText (.inl rfl) (by decide +kernel) (entryName_inlineText hchosen " p ")]
    cbv
  have hprofile : Stage.applyProfile ⟨Files.empty, 0⟩ spacedSettings ["a"] = .ok spacedSuite :=
    Stage.applyProfile_eq_ok_iff.mpr (.inr ⟨inlineLineup " p ", ["a"], hlineup,
      select_inlineLineup (by decide) (by decide) " p ", rfl⟩)
  have hiterate : Stage.applyIterate spacedSettings ["a"] = .ok ⟨["a"], .empty⟩ := by cbv
  have hshuffle : Stage.applyShuffle ⟨Files.empty, 0⟩ spacedSettings ["a"] =
      .ok ⟨["a"], .empty⟩ := by
    cbv
  exact Pipeline.compose_ofKinds_eq_ok_iff.mpr ⟨[⟨.profile, _⟩, ⟨.iterate, _⟩, ⟨.shuffle, _⟩],
    .cons hprofile (.cons hiterate (.cons hshuffle .nil)), rfl, by cbv⟩

/-- The pinned name is read without its blanks, and there is no profile of that name. -/
theorem replay_spacedSuite_fails :
    Pipeline.ofSettings spacedSettings = .ok (Pipeline.standard : Pipeline String) ∧
    Pipeline.standard.compose Files.empty (fun _ => 0) spacedSettings ["a"] = .ok spacedSuite ∧
    Pipeline.ofSettings (spacedSuite.replaySettings spacedSettings) =
      .ok (Pipeline.standard : Pipeline String) ∧
    Pipeline.standard.compose Files.empty (fun _ => 0) (spacedSuite.replaySettings spacedSettings)
      ["a"] = .error (.profile (.undefined "p" .settings)) := by
  refine ⟨by cbv, compose_spacedSettings, by cbv, ?_⟩
  have hlineup : (spacedSuite.replaySettings spacedSettings).lineup? Files.empty =
      .error (.profile (.undefined "p" .settings)) := by
    have hchosen : Source.chosenName? (spacedSuite.replaySettings spacedSettings) = some "p" := by
      cbv
    rw [lineup?_inlineText (.inl rfl) (by decide +kernel) (Source.entryName_of_chosenName? hchosen)]
    cbv
  have hprofile : (Stage.ofKind .profile).apply ⟨Files.empty, 0⟩
      (spacedSuite.replaySettings spacedSettings) ["a"] =
        .error (.profile (.undefined "p" .settings)) := by
    show Stage.applyProfile _ _ _ = _
    rw [Stage.applyProfile, hlineup]
    rfl
  rw [Pipeline.compose, Pipeline.standard, Pipeline.ofKinds, StageKind.standardOrder,
    List.map_cons, Pipeline.applyFrom, hprofile]

/-- Settings without blanks around that name, which ask for shuffling but give no seed. -/
def plainSettings : Settings :=
  .ofList [("profile", inlineText "p"), ("shuffle", "true")]

/-- Items of one name, told apart by a number. -/
structure Numbered where
  name : String
  number : Nat
  deriving DecidableEq

/-- The number has no part in the choice of an item. -/
instance : Item Numbered := ⟨Numbered.name⟩

/-- Two items of the only scenario. -/
def twoItems : List Numbered := [⟨"a", 1⟩, ⟨"a", 2⟩]

/-- The suite that `plainSettings` compose from these items with the seed 2, which reverses them. -/
def plainSuite : Composition Numbered :=
  ⟨[⟨"a", 2⟩, ⟨"a", 1⟩], .ofList [("profile-name", "p"), ("seed", "2")]⟩

theorem lineup?_plainSettings : plainSettings.lineup? Files.empty = .ok (some (inlineLineup "p")) :=
  lineup?_plainText (by decide +kernel) (by cbv)

theorem compose_plainSettings :
    Pipeline.standard.compose Files.empty (fun _ => 2) plainSettings twoItems = .ok plainSuite := by
  have hprofile : Stage.applyProfile ⟨Files.empty, 2⟩ plainSettings twoItems =
      .ok ⟨twoItems, .ofList [(Source.nameOption, "p")]⟩ :=
    Stage.applyProfile_eq_ok_iff.mpr (.inr ⟨inlineLineup "p", twoItems, lineup?_plainSettings,
      select_inlineLineup (by decide) (by decide) "p", rfl⟩)
  have hiterate : Stage.applyIterate plainSettings twoItems = .ok ⟨twoItems, .empty⟩ := by cbv
  have hrequest : Shuffle.Request.ofSettings plainSettings = .ok .unseeded := by cbv
  have hseed : Text.Decimal.text (2 : Int64).toInt = "2" := by cbv
  have hreversed : Shuffle.permute 2 twoItems = plainSuite.items := by decide +kernel
  have hshuffle : Stage.applyShuffle ⟨Files.empty, 2⟩ plainSettings twoItems =
      .ok ⟨plainSuite.items, .ofList [(Shuffle.Request.seedOption, "2")]⟩ :=
    Stage.applyShuffle_eq_ok_iff.mpr
      ⟨.unseeded, hrequest, .inr ⟨2, rfl, by rw [hseed, hreversed]⟩⟩
  refine Pipeline.compose_ofKinds_eq_ok_iff.mpr ⟨[⟨.profile, _⟩, ⟨.iterate, _⟩, ⟨.shuffle, _⟩],
    .cons hprofile (.cons hiterate (.cons hshuffle .nil)), rfl, ?_⟩
  have hchosen : ((Table.empty.insertAll (Table.ofList [("profile-name", "p")]).entries).insertAll
      Table.empty.entries).insertAll (Table.ofList [("seed", "2")]).entries =
        Table.ofList [("profile-name", "p"), ("seed", "2")] := by
    decide +kernel
  rw [plainSuite, ← hchosen]
  rfl

/-- The seed 1, which would leave the items as they are, has no part in the replay. -/
theorem replay_plainSuite :
    Shuffle.permute 1 twoItems = twoItems ∧
    ∃ q, Pipeline.ofSettings (plainSuite.replaySettings plainSettings) = .ok q ∧
      q.compose Files.empty (fun _ => 1) (plainSuite.replaySettings plainSettings) twoItems =
        .ok plainSuite := by
  have hp : Pipeline.ofSettings plainSettings = .ok (Pipeline.standard : Pipeline Numbered) := by
    cbv
  refine ⟨by decide +kernel, (replay_iff hp compose_plainSettings).mpr ?_⟩
  intro name hname
  have hplain : plainSuite.chosen.get? Source.nameOption = some "p" := by decide +kernel
  rw [hplain, Option.some.injEq] at hname
  subst hname
  exact .inr (by decide +kernel)

end SuitePlan
