import Mathlib
import SuitePlan.CommandLine.Run
import SuitePlan.Proofs.CommandLine.Words
import SuitePlan.Proofs.Pipeline.Passes
import SuitePlan.Proofs.Pipeline.Selection

/-!
# What `resolve` says of `compose`

The command `resolve` tells beforehand what `compose` does with a profile as its only stage. The
overrides for that (`ResolveRequest.overrides`) set the same options as the request, so that both
resolve the same profile. If it cannot be resolved, both fail for the same reason; if it can, and
the items are all different and hold the scenarios of the profile, `compose` prints the scenarios
in the order in which `resolve` does (`resolve_predicts_compose`).
-/

namespace SuitePlan.CommandLine

variable {t : Terminal} {r : ResolveRequest} {words : List String} {path text : String}
  {s : Settings} {f : Failure} {l : Lineup} {items : List String}

/-! ## Settings -/

namespace ResolveRequest

/-- The options that a request sets, with their values. -/
def pairs (r : ResolveRequest) : List (String × String) :=
  [(Source.option, r.profile)]
    ++ (r.directory.map fun directory => (Source.directoryOption, directory)).toList
    ++ (r.name.map fun name => (Source.nameOption, name)).toList

/-- The overrides that ask `compose` for the profile of a request and for nothing else. -/
def overrides (r : ResolveRequest) : List String :=
  ((StageKind.option, StageKind.profile.name) :: r.pairs).map fun p => p.1 ++ "=" ++ p.2

/-- The settings that these overrides give. -/
def settings (r : ResolveRequest) : Settings :=
  Settings.empty.setAll ((StageKind.option, StageKind.profile.name) :: r.pairs)

theorem mem_options_of_mem_pairs {p : String × String} (h : p ∈ r.pairs) :
    p.1 ∈ StageKind.profile.options := by
  rcases List.mem_append.mp h with h | h
  · rcases List.mem_append.mp h with h | h
    · simp [List.mem_singleton.mp h, StageKind.options]
    · obtain ⟨directory, -, rfl⟩ := Option.map_eq_some_iff.mp (Option.mem_toList.mp h)
      simp [StageKind.options]
  · obtain ⟨name, -, rfl⟩ := Option.map_eq_some_iff.mp (Option.mem_toList.mp h)
    simp [StageKind.options]

/-- The overrides are read as the settings they were written for. -/
theorem override_overrides (r : ResolveRequest) :
    Settings.empty.override r.overrides = .ok r.settings := by
  apply Settings.override_eq_setAll
  intro p hp
  rcases List.mem_cons.mp hp with rfl | hp
  · decide
  · exact StageKind.isKey_of_mem_options (mem_options_of_mem_pairs hp)

theorem get?_settings (r : ResolveRequest) (key : String) :
    r.settings.get? key = ((resolveSettings r).get? key).or
      (if StageKind.option = key then some StageKind.profile.name else none) := by
  have hresolve : (resolveSettings r).get? key = Table.lookup key r.pairs.reverse :=
    Table.get?_ofList r.pairs key
  rw [hresolve]
  show ((Table.empty.insert StageKind.option StageKind.profile.name).insertAll r.pairs).get? key = _
  rw [Table.get?_insertAll, Table.get?_insert, Table.get?_empty]

theorem get?_resolveSettings_option (r : ResolveRequest) :
    (resolveSettings r).get? StageKind.option = none := by
  show (Table.ofList r.pairs).get? StageKind.option = none
  rw [Table.get?_ofList]
  cases hvalue : Table.lookup StageKind.option r.pairs.reverse with
  | none => rfl
  | some value =>
    obtain ⟨p, hp, heq⟩ := List.mem_map.mp (Table.mem_map_fst_of_lookup hvalue)
    have hmem := mem_options_of_mem_pairs (List.mem_reverse.mp hp)
    rw [heq] at hmem
    exact absurd hmem (StageKind.option_not_mem_options _)

theorem lineup?_settings (r : ResolveRequest) (files : Files) :
    r.settings.lineup? files = (resolveSettings r).lineup? files := by
  apply Stage.lineup?_congr
  intro key hkey
  have hne : StageKind.option ≠ key := by
    rintro rfl
    exact StageKind.option_not_mem_options _ hkey
  rw [get?_settings, if_neg hne, Option.or_none]

theorem ofSettings_settings (r : ResolveRequest) :
    Pipeline.ofSettings r.settings = .ok (.ofKinds [.profile] : Pipeline String) := by
  have hvalue : r.settings.get? StageKind.option = some StageKind.profile.name := by
    rw [get?_settings, get?_resolveSettings_option, if_pos rfl, Option.none_or]
  have horder : StageKind.orderOfSettings r.settings = .ok [.profile] := by
    rw [StageKind.orderOfSettings, hvalue]
    cbv
  rw [Pipeline.ofSettings, horder]
  rfl

theorem lineup?_ne_none (r : ResolveRequest) (files : Files) :
    (resolveSettings r).lineup? files ≠ .ok none := by
  intro hnone
  have hunset := Settings.lineup?_eq_none_iff.mp hnone
  have hmem : (Source.option, r.profile) ∈ r.pairs :=
    List.mem_append_left _ (List.mem_append_left _ List.mem_cons_self)
  have hkey : Source.option ∈ r.pairs.reverse.map Prod.fst :=
    List.mem_map.mpr ⟨_, List.mem_reverse.mpr hmem, rfl⟩
  obtain ⟨value, hvalue⟩ := Table.lookup_of_mem_map_fst hkey
  rw [← Table.get?_ofList] at hvalue
  exact Option.some_ne_none value (hvalue.symm.trans hunset)

/-- No override looks like an option. -/
theorem head?_of_mem_overrides {pair : String} (h : pair ∈ r.overrides) :
    pair.toList.head? ≠ some '-' := by
  obtain ⟨p, hp, rfl⟩ := List.mem_map.mp h
  have hkeys : ∀ key ∈ StageKind.option :: StageKind.profile.options,
      ∃ c rest, key.toList = c :: rest ∧ c ≠ '-' := by
    intro key hkey
    fin_cases hkey <;> exact ⟨_, _, rfl, by decide⟩
  have hkey : p.1 ∈ StageKind.option :: StageKind.profile.options := by
    rcases List.mem_cons.mp hp with rfl | hp
    · exact List.mem_cons_self
    · exact List.mem_cons_of_mem _ (mem_options_of_mem_pairs hp)
  obtain ⟨c, rest, hlist, hc⟩ := hkeys p.1 hkey
  simp [hlist, hc]

end ResolveRequest

/-! ## The stage alone -/

theorem named_of_nodup {name : String} (hnodup : items.Nodup) (h : name ∈ items) :
    Item.named name items = [name] := by
  show items.filter (fun item => item == name) = [name]
  rw [List.filter_beq, List.count_eq_one_of_mem hnodup h, List.replicate_one]

theorem select_eq_scenarioNames (hnodup : items.Nodup)
    (h : ∀ run ∈ l.runs, run.scenario ∈ items) : l.select items = .ok l.scenarioNames := by
  refine Lineup.select_eq_ok_iff.mpr ⟨fun run hrun => ⟨run.scenario, h run hrun, rfl⟩, ?_⟩
  rw [Lineup.scenarioNames, List.map_eq_flatMap]
  apply List.flatMap_congr
  intro run hrun
  exact (named_of_nodup hnodup (h run hrun)).symm

/-! ## The two commands -/

theorem ofWords_overrides (hpath : path ≠ "") :
    Invocation.ofWords (composeWords path r.overrides) =
      .compose { items := path, overrides := r.overrides } :=
  ofWords_composeWords hpath fun _ => ResolveRequest.head?_of_mem_overrides

theorem prepareSettings_overrides (t : Terminal) (path : String) :
    prepareSettings t { items := path, overrides := r.overrides } = .ok r.settings := by
  show (Settings.empty.override r.overrides).mapError _ = .ok r.settings
  rw [r.override_overrides]
  rfl

theorem prepare_overrides (hread : itemsText t path = .ok text) :
    prepare t { items := path, overrides := r.overrides } =
      .ok (r.settings, .ofKinds [.profile], readItems text) := by
  rw [prepare, prepareSettings_overrides, hread]
  show ((Pipeline.ofSettings r.settings).mapError _ >>= _) = _
  rw [r.ofSettings_settings]
  rfl

theorem run_composeWords (hpath : path ≠ "") (hread : itemsText t path = .ok text) :
    run t (.ofWords (composeWords path r.overrides)) =
      let notes := (Pipeline.ofKinds [.profile]).notes t.files t.seeds r.settings (readItems text)
      match (Pipeline.ofKinds [.profile]).compose t.files t.seeds r.settings (readItems text) with
      | .error f => .failed .compose (.failure f) notes
      | .ok c => .done (writeLines c.items) notes := by
  rw [ofWords_overrides hpath]
  show compose t _ = _
  rw [compose, prepare_overrides hread]
  rfl

theorem run_composeWords_of_error (hpath : path ≠ "") (hread : itemsText t path = .ok text)
    (hf : r.settings.lineup? t.files = .error f) :
    ∃ notes, run t (.ofWords (composeWords path r.overrides)) =
      .failed .compose (.failure f) notes := by
  have hcompose : (Pipeline.ofKinds [.profile] : Pipeline String).compose t.files t.seeds
      r.settings (readItems text) = .error f := by
    rw [Pipeline.compose_profile, Stage.applyProfile, hf]
    rfl
  rw [run_composeWords hpath hread, hcompose]
  exact ⟨_, rfl⟩

theorem run_composeWords_of_lineup (hpath : path ≠ "") (hread : itemsText t path = .ok text)
    (hl : r.settings.lineup? t.files = .ok (some l)) (hnodup : (readItems text).Nodup)
    (hmem : ∀ run ∈ l.runs, run.scenario ∈ readItems text) :
    ∃ notes, run t (.ofWords (composeWords path r.overrides)) =
      .done (writeLines l.scenarioNames) notes := by
  have happly : Stage.applyProfile ⟨t.files, t.seeds 0⟩ r.settings (readItems text) =
      .ok ⟨l.scenarioNames, .ofList [(Source.nameOption, l.name)]⟩ :=
    Stage.applyProfile_eq_ok_iff.mpr
      (.inr ⟨l, l.scenarioNames, hl, select_eq_scenarioNames hnodup hmem, rfl⟩)
  rw [run_composeWords hpath hread, Pipeline.compose_profile, happly]
  exact ⟨_, rfl⟩

theorem run_resolve (t : Terminal) (r : ResolveRequest) :
    (∃ f notes, r.settings.lineup? t.files = .error f ∧
      run t (.resolve r) = .failed .resolve (.failure f) notes) ∨
    ∃ l notes, r.settings.lineup? t.files = .ok (some l) ∧
      run t (.resolve r) = .done (resolveOutput r.json l) notes := by
  simp only [run, resolve, r.lineup?_settings]
  cases hl : (resolveSettings r).lineup? t.files with
  | error f => exact .inl ⟨f, _, rfl, rfl⟩
  | ok l? =>
    cases l? with
    | none => exact absurd hl (r.lineup?_ne_none t.files)
    | some l => exact .inr ⟨l, _, rfl, rfl⟩

/-- `resolve` tells what `compose` does with the same profile as its only stage: it fails exactly if
the profile cannot be resolved there, and both for the same reason; otherwise `compose` prints the
scenarios that `resolve` prints, if the items are all different and hold them. -/
theorem resolve_predicts_compose (hwords : Invocation.ofWords words = .resolve r)
    (hpath : path ≠ "") (hread : itemsText t path = .ok text) :
    let resolved := run t (.ofWords words)
    let composed := run t (.ofWords (composeWords path r.overrides))
    ∃ request s, Invocation.ofWords (composeWords path r.overrides) = .compose request ∧
      prepareSettings t request = .ok s ∧
      (resolved.code = 1 ↔ ∃ f, s.lineup? t.files = .error f) ∧
      (resolved.code = 1 → composed.code = 1 ∧
        ∀ json, ∃ causes, resolved.chain json = Step.resolve.text :: causes ∧
          composed.chain json = Step.compose.text :: causes) ∧
      (resolved.code ≠ 1 → resolved.code = 0 ∧
        ∃ l, s.lineup? t.files = .ok (some l) ∧ resolved.output = resolveOutput r.json l ∧
          ((readItems text).Nodup → (∀ name ∈ l.scenarioNames, name ∈ readItems text) →
            composed.code = 0 ∧ composed.output = writeLines l.scenarioNames)) := by
  intro resolved composed
  have hresolved : resolved = run t (.resolve r) := by
    show run t (.ofWords words) = _
    rw [hwords]
  refine ⟨_, r.settings, ofWords_overrides hpath, prepareSettings_overrides t path, ?_⟩
  rcases run_resolve t r with ⟨f, notes, hf, hrun⟩ | ⟨l, notes, hl, hrun⟩
  · obtain ⟨_, hcomposed⟩ : ∃ notes, composed = .failed .compose (.failure f) notes :=
      run_composeWords_of_error hpath hread hf
    rw [hresolved, hrun, hcomposed]
    exact ⟨iff_of_true rfl ⟨f, hf⟩, fun _ => ⟨rfl, fun json => ⟨f.chain json, rfl, rfl⟩⟩,
      fun h => absurd rfl h⟩
  · have hfails : ¬∃ f, r.settings.lineup? t.files = .error f := by
      rintro ⟨f, hf⟩
      rw [hl] at hf
      cases hf
    rw [hresolved, hrun]
    refine ⟨iff_of_false Nat.zero_ne_one hfails, fun h => absurd h Nat.zero_ne_one, fun _ => ?_⟩
    refine ⟨rfl, l, hl, rfl, fun hnodup hmem => ?_⟩
    obtain ⟨_, hcomposed⟩ : ∃ notes, composed = .done (writeLines l.scenarioNames) notes :=
      run_composeWords_of_lineup hpath hread hl hnodup fun run hrun =>
        hmem _ (List.mem_map_of_mem hrun)
    rw [hcomposed]
    exact ⟨rfl, rfl⟩

theorem eq_settings_of_prepared {request : ComposeRequest} (hpath : path ≠ "")
    (hcompose : Invocation.ofWords (composeWords path r.overrides) = .compose request)
    (hs : prepareSettings t request = .ok s) : s = r.settings := by
  rw [ofWords_overrides hpath, Invocation.compose.injEq] at hcompose
  rw [← hcompose, prepareSettings_overrides] at hs
  exact (Except.ok.inj hs).symm

/-! ## A catalog in the command line and one in a locked file

The text of the one is the value of `--profile`, with an equals sign and blanks in the name of its
profile. The file of the other is there, but must not be read. The items are read from the standard
input. -/

/-- A catalog with one profile of two scenarios, of which the second one is scheduled early. -/
def equationText : String :=
  "\x7b\"profiles\":\x7b\"a = b\":\x7b\"scenarios\":[\x7b\"scenario\":\"b\"\x7d,"
    ++ "\x7b\"scenario\":\"a\",\"schedule\":\"early\"\x7d]\x7d\x7d\x7d"

/-- The words that ask for a profile. -/
def resolveWords (profile : String) : List String :=
  ["resolve", "--profile", profile]

/-- The request that these words make. -/
def resolveRequest (profile : String) : ResolveRequest := { profile }

/-- A terminal with three items on its standard input. -/
def threeItems (files : Files) : Terminal where
  files
  input := .ok "b\na\nc\n".toUTF8
  seeds _ := 0

/-- The lineup of the profile: the early scenario comes first. -/
def equationLineup : Lineup where
  name := "a = b"
  runs := [⟨"a", .early, "a = b", .empty⟩, ⟨"b", .middle, "a = b", .empty⟩]

/-- The catalog that the text denotes. -/
def equationCatalog : Catalog where
  profiles := .ofList
    [("a = b", [.scenario ⟨"b", .middle, none, .empty⟩, .scenario ⟨"a", .early, none, .empty⟩])]

/-- A file `p.json` that is there, but must not be read. -/
def lockedFiles : Files where
  read _ := .error .permissionDenied
  isFile path := path = "p.json"

theorem itemsText_threeItems (files : Files) :
    itemsText (threeItems files) "-" = .ok "b\na\nc\n" := by
  show (readUtf8 "b\na\nc\n".toUTF8).mapError (fun fault => (Step.readInput, Cause.file fault)) = _
  rw [readUtf8_toUTF8]
  rfl

theorem ofText_equationText : Catalog.ofText equationText = .ok equationCatalog :=
  Attempt.toOption_eq_some_iff.mp (by decide +kernel)

theorem lineup?_equationText (files : Files) :
    (resolveRequest equationText).settings.lineup? files = .ok (some equationLineup) := by
  have hsource : Source.ofSettings files (resolveRequest equationText).settings =
      .ok (some (.inline equationText)) :=
    Source.ofSettings_text (by decide +kernel) (by decide +kernel) (by decide +kernel)
  have hchosen : Source.chosenName? (resolveRequest equationText).settings = none := by
    decide +kernel
  have hentry : (Source.inline equationText).entryName (resolveRequest equationText).settings
      equationCatalog = .ok "a = b" := by
    simp only [Source.entryName, hchosen]
    rfl
  have hlineup : equationCatalog.lineup "a = b" = .ok equationLineup := by cbv
  rw [Settings.lineup?_of_source hsource, Source.lineup_eq rfl, ofText_equationText]
  simp only [hentry, hlineup]
  rfl

theorem lineup?_lockedFiles :
    (resolveRequest "p.json").settings.lineup? lockedFiles =
      .error (.profile (.unreadable "p.json" .permissionDenied)) := by
  have hsource : Source.ofSettings lockedFiles (resolveRequest "p.json").settings =
      .ok (some (.file "p.json")) := by
    cbv
  rw [Settings.lineup?_of_source hsource]
  rfl

/-- `compose` prints what `resolve` does for the profile in the command line, and fails as
`resolve` does for the one in the file. -/
theorem resolve_predicts_compose_equation :
    Invocation.ofWords (resolveWords equationText) = .resolve (resolveRequest equationText) ∧
    itemsText (threeItems .empty) "-" = .ok "b\na\nc\n" ∧
    (run (threeItems .empty) (.ofWords (resolveWords equationText))).output =
      "a\tearly\ta = b\nb\tnone\ta = b\n" ∧
    (run (threeItems .empty)
      (.ofWords (composeWords "-" (resolveRequest equationText).overrides))).output = "a\nb\n" ∧
    Invocation.ofWords (resolveWords "p.json") = .resolve (resolveRequest "p.json") ∧
    itemsText (threeItems lockedFiles) "-" = .ok "b\na\nc\n" ∧
    ∀ json, (run (threeItems lockedFiles)
      (.ofWords (composeWords "-" (resolveRequest "p.json").overrides))).chain json =
        ["compose suite", "read profile document p.json", "Permission denied (os error 13)"] := by
  have hwords : Invocation.ofWords (resolveWords equationText) =
      .resolve (resolveRequest equationText) := by decide +kernel
  have hlocked : Invocation.ofWords (resolveWords "p.json") =
      .resolve (resolveRequest "p.json") := by
    decide +kernel
  obtain ⟨hoprinted, hcprinted⟩ :
      (run (threeItems .empty) (.ofWords (resolveWords equationText))).output =
        resolveOutput false equationLineup ∧
      (run (threeItems .empty)
        (.ofWords (composeWords "-" (resolveRequest equationText).overrides))).output =
          writeLines equationLineup.scenarioNames := by
    obtain ⟨request, s, hcompose, hs, hfails, -, hdone⟩ :=
      resolve_predicts_compose hwords (by decide) (itemsText_threeItems .empty)
    have hlineup := lineup?_equationText (threeItems .empty).files
    rw [eq_settings_of_prepared (by decide) hcompose hs] at hfails hdone
    have hcode : (run (threeItems .empty) (.ofWords (resolveWords equationText))).code ≠ 1 := by
      intro hcode
      obtain ⟨f, hf⟩ := hfails.mp hcode
      rw [hlineup] at hf
      cases hf
    obtain ⟨-, l, hl, hresolved, hcomposed⟩ := hdone hcode
    rw [hlineup, Except.ok.injEq, Option.some.injEq] at hl
    subst hl
    exact ⟨hresolved, (hcomposed (by decide +kernel) (by decide +kernel)).2⟩
  refine ⟨hwords, itemsText_threeItems _, hoprinted.trans (by decide +kernel),
    hcprinted.trans (by decide +kernel), hlocked, itemsText_threeItems _, fun json => ?_⟩
  obtain ⟨request, s, hcompose, hs, hfails, hsame, -⟩ :=
    resolve_predicts_compose hlocked (by decide) (itemsText_threeItems lockedFiles)
  rw [eq_settings_of_prepared (by decide) hcompose hs] at hfails
  obtain ⟨causes, hresolved, hcomposed⟩ := (hsame (hfails.mpr ⟨_, lineup?_lockedFiles⟩)).2 json
  have hchain : (run (threeItems lockedFiles) (.ofWords (resolveWords "p.json"))).chain json =
      Step.resolve.text ::
        ["read profile document p.json", "Permission denied (os error 13)"] := by
    rcases run_resolve (threeItems lockedFiles) (resolveRequest "p.json") with
      ⟨f, notes, hf, hrun⟩ | ⟨l, notes, hl, -⟩
    · cases lineup?_lockedFiles.symm.trans hf
      rw [hlocked, hrun]
      rfl
    · cases lineup?_lockedFiles.symm.trans hl
  rw [hcomposed, ← (List.cons.inj (hresolved.symm.trans hchain)).2]
  rfl

end SuitePlan.CommandLine
