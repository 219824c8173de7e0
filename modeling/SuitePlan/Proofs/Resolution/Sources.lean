import SuitePlan.Proofs.Expansion.Cycles
import SuitePlan.Proofs.Replay.Stages

/-!
# The same catalog from different sources

The text of a catalog may stand in the settings, in a file that they name by its path, or in the
file of a named profile. Once it is read, a source counts for no more than what a message calls it
and, for a named profile, the profile to start from. So all three come to the same lineup or to the
same failure, apart from the origin that a message gives (`Settings.sources_agree`).
-/

namespace SuitePlan

/-- The failure with its error of a profile replaced by the image under `f`. -/
def Failure.onProfile (f : ProfileError → ProfileError) : Failure → Failure
  | .profile e => .profile (f e)
  | failure => failure

namespace ProfileError

/-- The error, if the text that cannot be understood came from `origin`. -/
def parsedAt (origin : String) : ProfileError → ProfileError
  | .unparsable _ text fault => .unparsable origin text fault
  | e => e

/-- The error, if the catalog came from `origin`. -/
def foundAt (origin : String) : ProfileError → ProfileError
  | .noEntry _ => .noEntry origin
  | e => e.parsedAt origin

end ProfileError

/-- A value of the option `profile` that is a path or a name as it stands. -/
structure Source.IsReference (value : String) : Prop where
  trimmed : Text.trim value = value
  nonempty : value ≠ ""
  no_brace : value.toList.head? ≠ some '{'

variable {files : Files} {s t : Settings} {source other : Source} {c : Catalog}
  {name origin text value : String} {e : ProfileError} {φ : ProfileError → ProfileError}

/-! ## What settings mean -/

namespace Source

theorem ofSettings_reference (hs : s.get? option = some value) (hvalue : IsReference value) :
    ofSettings files s = .ok (some
      (if files.isFile value then .file value
        else .named (s.getText directoryOption defaultDirectory) value)) := by
  have hempty : value.isEmpty = false := by
    rw [← Bool.not_eq_true, String.isEmpty_iff]
    exact hvalue.nonempty
  simp only [ofSettings, hs, hvalue.trimmed, hempty, hvalue.no_brace, Bool.false_eq_true, if_false]
  cases files.isFile value <;> rfl

end Source

/-! ## Reading, choosing and expanding -/

/-- An expansion fails for a reason that has nothing to do with the origin of the catalog. -/
theorem Catalog.foundAt_of_lineup (h : c.lineup name = .error (.profile e)) (origin : String) :
    e.foundAt origin = e := by
  by_cases hcount : c.CountFits
  · obtain ⟨call, -, hfails⟩ := exists_call_of_lineup_eq_error hcount h
    cases hfails with
    | undefined => rfl
    | entry => rfl
  · rw [CountFits, not_forall] at hcount
    obtain ⟨count, hcount⟩ := hcount
    rw [Classical.not_imp, Nat.not_le] at hcount
    rw [lineup_of_count hcount.1 hcount.2] at h
    cases h
    rfl

theorem Catalog.parsedAt_of_lineup (h : c.lineup name = .error (.profile e)) (origin : String) :
    e.parsedAt origin = e := by
  have hfound := foundAt_of_lineup h origin
  cases e with
  | noEntry place => rfl
  | _ => exact hfound

/-- Sources of one text come to the same, up to a change of errors that leaves those of an expansion
alone, if they start from the same profile up to that change. -/
theorem Source.lineup_eq_mapError (hsource : source.text files = .ok text)
    (hother : other.text files = .ok text)
    (hparse : ∀ origin fault,
      φ (.unparsable origin text fault) = .unparsable other.origin text fault)
    (hexpand : ∀ (c : Catalog) name e, c.lineup name = .error (.profile e) → φ e = e)
    (hentry : ∀ c, other.entryName t c = (source.entryName s c).mapError φ) :
    other.lineup files t = (source.lineup files s).mapError (.onProfile φ) := by
  rw [lineup_eq hsource, lineup_eq hother]
  cases Catalog.ofText text with
  | error fault =>
    show _ = Except.error (Failure.profile (φ _))
    rw [hparse]
  | ok c =>
    simp only [hentry]
    cases source.entryName s c with
    | error e => rfl
    | ok name =>
      show c.lineup name = (c.lineup name).mapError _
      cases hlineup : c.lineup name with
      | ok l => rfl
      | error failure =>
        cases failure with
        | profile e =>
          show _ = Except.error (Failure.profile (φ e))
          rw [hexpand c name e hlineup]
        | settings e => rfl
        | cycle names => rfl

/-- With a name in the settings the source has no say in what is expanded. -/
theorem Source.lineup_parsedAt (hsource : source.text files = .ok text)
    (hother : other.text files = .ok text)
    (hentry : ∀ c, source.entryName s c = .ok name ∧ other.entryName t c = .ok name) :
    other.lineup files t =
      (source.lineup files s).mapError (.onProfile (.parsedAt other.origin)) := by
  refine lineup_eq_mapError hsource hother (fun _ _ => rfl) ?_ ?_
  · intro c name e h
    exact Catalog.parsedAt_of_lineup h _
  · intro c
    rw [(hentry c).1, (hentry c).2]
    rfl

/-- Without one, a text and a file start from what the catalog names. -/
theorem Source.lineup_foundAt {path : String} (hfile : files.readText path = .ok text)
    (hs : chosenName? s = none) (ht : chosenName? t = none) :
    (file path).lineup files t =
      ((inline text).lineup files s).mapError (.onProfile (.foundAt path)) := by
  have hread : (file path).text files = .ok text := by
    rw [Source.text, readText, hfile]
    rfl
  have htext : (inline text).text files = .ok text := rfl
  refine lineup_eq_mapError htext hread (fun _ _ => rfl) ?_ ?_
  · intro c name e h
    exact Catalog.foundAt_of_lineup h _
  · intro c
    simp only [entryName, hs, ht]
    cases c.entry with
    | some name => rfl
    | none => rcases c.profiles.entries with _ | ⟨first, _ | ⟨second, rest⟩⟩ <;> rfl

/-! ## Three ways to give one text -/

/-- The file in which settings look for a named profile. -/
def Settings.profilePath (s : Settings) (name : String) : String :=
  Source.namedPath (s.getText Source.directoryOption Source.defaultDirectory) name

/-- A text, the path of a file that holds it, and the name of a profile whose file holds it. Both
can be read, and the name itself leads to no file. -/
structure Settings.GiveText (files : Files) (s : Settings) (text path name : String) : Prop where
  trimmed : Text.trim text = text
  brace : text.toList.head? = some '{'
  path_reference : Source.IsReference path
  name_reference : Source.IsReference name
  path_file : files.isFile path = true
  path_text : files.readText path = .ok text
  name_no_file : files.isFile name = false
  name_text : files.readText (s.profilePath name) = .ok text

namespace Settings

/-- What is known of the lineup of a source is known of what settings ask for. -/
theorem lineup?_eq_mapError {f : Failure → Failure}
    (hs : Source.ofSettings files s = .ok (some source))
    (ht : Source.ofSettings files t = .ok (some other))
    (h : other.lineup files t = (source.lineup files s).mapError f) :
    t.lineup? files = (s.lineup? files).mapError f := by
  rw [lineup?_of_source hs, lineup?_of_source ht, h]
  cases source.lineup files s with
  | error failure => rfl
  | ok l => rfl

theorem chosenName?_set_option (s : Settings) (value : String) :
    Source.chosenName? (s.set Source.option value) = Source.chosenName? s := by
  apply Source.chosenName?_congr
  rw [get?_set, if_neg (by decide)]

namespace GiveText

variable {path : String}

theorem inline_source (h : GiveText files s text path name)
    (ht : t.get? Source.option = some text) :
    Source.ofSettings files t = .ok (some (.inline text)) :=
  Source.ofSettings_text ht h.trimmed h.brace

theorem file_source (h : GiveText files s text path name) :
    Source.ofSettings files (s.set Source.option path) = .ok (some (.file path)) := by
  rw [Source.ofSettings_reference (by simp) h.path_reference, if_pos h.path_file]

theorem named_source (h : GiveText files s text path name) :
    Source.ofSettings files (s.set Source.option name) =
      .ok (some (.named (s.getText Source.directoryOption Source.defaultDirectory) name)) := by
  have hdirectory : (s.set Source.option name).getText Source.directoryOption
      Source.defaultDirectory = s.getText Source.directoryOption Source.defaultDirectory := by
    rw [getText, get?_set, if_neg (by decide), getText]
  rw [Source.ofSettings_reference (by simp) h.name_reference, if_neg (by simp [h.name_no_file]),
    hdirectory]

theorem text_file (h : GiveText files s text path name) :
    (Source.file path).text files = .ok text := by
  rw [Source.text, Source.readText, h.path_text]
  rfl

theorem text_named (h : GiveText files s text path name) :
    (Source.named (s.getText Source.directoryOption Source.defaultDirectory) name).text files =
      .ok text := by
  rw [Source.text, Source.readText]
  show (files.readText (s.profilePath name)).mapError _ = _
  rw [h.name_text]
  rfl

theorem agree_of_chosenName? {chosen : String} (h : GiveText files s text path name)
    (hchosen : Source.chosenName? s = some chosen) :
    (s.set Source.option path).lineup? files =
      ((s.set Source.option text).lineup? files).mapError (.onProfile (.parsedAt path)) ∧
    (s.set Source.option name).lineup? files =
      ((s.set Source.option text).lineup? files).mapError
        (.onProfile (.parsedAt (s.profilePath name))) := by
  have hall : ∀ (source : Source) value c,
      source.entryName (s.set Source.option value) c = .ok chosen := by
    intro source value c
    apply Source.entryName_of_chosenName?
    rw [chosenName?_set_option, hchosen]
  constructor
  · exact lineup?_eq_mapError (h.inline_source (by simp)) h.file_source
      (Source.lineup_parsedAt rfl h.text_file fun c => ⟨hall _ _ c, hall _ _ c⟩)
  · exact lineup?_eq_mapError (h.inline_source (by simp)) h.named_source
      (Source.lineup_parsedAt rfl h.text_named fun c => ⟨hall _ _ c, hall _ _ c⟩)

theorem agree_of_unchosen (h : GiveText files s text path name)
    (hchosen : Source.chosenName? s = none) :
    (s.set Source.option path).lineup? files =
      ((s.set Source.option text).lineup? files).mapError (.onProfile (.foundAt path)) ∧
    (s.set Source.option name).lineup? files =
      (((s.set Source.option text).set Source.nameOption name).lineup? files).mapError
        (.onProfile (.parsedAt (s.profilePath name))) := by
  have hall : ∀ value, Source.chosenName? (s.set Source.option value) = none := by
    intro value
    rw [chosenName?_set_option, hchosen]
  constructor
  · exact lineup?_eq_mapError (h.inline_source (by simp)) h.file_source
      (Source.lineup_foundAt h.path_text (hall text) (hall path))
  · -- The one starts from the name because its file was looked up, the other because it is given.
    have hlooked : ∀ c, (Source.named (s.getText Source.directoryOption Source.defaultDirectory)
        name).entryName (s.set Source.option name) c = .ok name := by
      intro c
      simp only [Source.entryName, hall]
    have hgiven : Source.chosenName? ((s.set Source.option text).set Source.nameOption name) =
        some name :=
      Source.chosenName?_eq_some_iff.mpr
        ⟨⟨name, by rw [get?_set, if_pos rfl], h.name_reference.trimmed⟩,
          h.name_reference.nonempty⟩
    have htext : ((s.set Source.option text).set Source.nameOption name).get? Source.option =
        some text := by
      rw [get?_set, if_neg (by decide), get?_set, if_pos rfl]
    exact lineup?_eq_mapError (h.inline_source htext) h.named_source
      (Source.lineup_parsedAt rfl h.text_named fun c =>
        ⟨Source.entryName_of_chosenName? hgiven, hlooked c⟩)

end GiveText

/-- If settings name the profile to start from, a text, a file and a named profile with that text
come to the same. Else the text and the file do, and the named profile comes to what the text does
when its name is given. Only the origin in a message differs. -/
theorem sources_agree {path : String} (h : GiveText files s text path name) :
    (∀ chosen, s.get? Source.nameOption = some chosen → Text.isBlankText chosen = false →
      (s.set Source.option path).lineup? files =
        ((s.set Source.option text).lineup? files).mapError (.onProfile (.parsedAt path)) ∧
      (s.set Source.option name).lineup? files =
        ((s.set Source.option text).lineup? files).mapError
          (.onProfile (.parsedAt (s.profilePath name)))) ∧
    ((∀ chosen, s.get? Source.nameOption = some chosen → Text.isBlankText chosen = true) →
      (s.set Source.option path).lineup? files =
        ((s.set Source.option text).lineup? files).mapError (.onProfile (.foundAt path)) ∧
      (s.set Source.option name).lineup? files =
        (((s.set Source.option text).set Source.nameOption name).lineup? files).mapError
          (.onProfile (.parsedAt (s.profilePath name)))) := by
  constructor
  · intro chosen hget hblank
    exact h.agree_of_chosenName? (Source.chosenName?_of_not_blank hget hblank)
  · intro hblank
    refine h.agree_of_unchosen ?_
    cases hget : s.get? Source.nameOption with
    | none =>
      rw [Source.chosenName?, hget]
      rfl
    | some chosen => exact Source.chosenName?_of_blank hget (hblank chosen hget)

/-! ## A catalog of two profiles

Nothing in the text says which of its profiles to start from. -/

/-- Two profiles, of which `daily` has one scenario and `nightly` none. -/
def twoProfilesText : String :=
  "\x7b\"profiles\":\x7b\"daily\":\x7b\"scenarios\":[\x7b\"scenario\":\"a\"\x7d]\x7d,"
    ++ "\"nightly\":\x7b\x7d\x7d\x7d"

/-- The text in a file of its own and in the file of the profile `daily`. -/
def twoProfilesFiles : Files where
  read path :=
    if path = "suite.json" ∨ path = "plans/daily.json" then .ok twoProfilesText.toUTF8
    else .error .notFound
  isFile path := path = "suite.json" ∨ path = "plans/daily.json"

/-- Settings that look for profiles in the directory `plans`. -/
def plansSettings : Settings :=
  .ofList [("profile-dir", "plans")]

theorem readText_twoProfilesFiles {path : String}
    (h : path = "suite.json" ∨ path = "plans/daily.json") :
    twoProfilesFiles.readText path = .ok twoProfilesText := by
  have hread : twoProfilesFiles.read path = .ok twoProfilesText.toUTF8 := if_pos h
  rw [Files.readText, hread]
  exact readUtf8_toUTF8 twoProfilesText

/-- The catalog that the text gives. -/
def twoProfiles : Catalog where
  profiles := .ofList
    [("daily", [.scenario ⟨"a", .middle, none, .empty⟩]), ("nightly", [])]

theorem ofText_twoProfilesText : Catalog.ofText twoProfilesText = .ok twoProfiles :=
  Attempt.toOption_eq_some_iff.mp (by decide +kernel)

theorem giveText_twoProfiles :
    GiveText twoProfilesFiles plansSettings twoProfilesText "suite.json" "daily" where
  trimmed := by decide +kernel
  brace := by decide +kernel
  path_reference := ⟨by decide +kernel, by decide, by decide +kernel⟩
  name_reference := ⟨by decide +kernel, by decide, by decide +kernel⟩
  path_file := by decide
  path_text := readText_twoProfilesFiles (.inl rfl)
  name_no_file := by decide
  name_text := readText_twoProfilesFiles (.inr (by decide +kernel))

/-- The text and the file do not say where to start; the name does. -/
theorem sources_agree_twoProfiles :
    GiveText twoProfilesFiles plansSettings twoProfilesText "suite.json" "daily" ∧
    (plansSettings.set Source.option "suite.json").lineup? twoProfilesFiles =
      .error (.profile (.noEntry "suite.json")) ∧
    (plansSettings.set Source.option "daily").lineup? twoProfilesFiles =
      .ok (some ⟨"daily", [⟨"a", .middle, "daily", .empty⟩]⟩) := by
  have hunset : ∀ chosen, plansSettings.get? Source.nameOption = some chosen →
      Text.isBlankText chosen = true := by
    intro chosen hchosen
    rw [show plansSettings.get? Source.nameOption = none by decide +kernel] at hchosen
    cases hchosen
  obtain ⟨hpath, hname⟩ := (sources_agree giveText_twoProfiles).2 hunset
  refine ⟨giveText_twoProfiles, ?_, ?_⟩
  · rw [hpath, lineup?_of_source (giveText_twoProfiles.inline_source (by simp)),
      Source.lineup_eq rfl, ofText_twoProfilesText]
    cbv
  · have hchosen : Source.chosenName?
        ((plansSettings.set Source.option twoProfilesText).set Source.nameOption "daily") =
          some "daily" := by
      decide +kernel
    have hlineup : twoProfiles.lineup "daily" =
        .ok ⟨"daily", [⟨"a", .middle, "daily", .empty⟩]⟩ := by
      cbv
    rw [hname, lineup?_of_source (giveText_twoProfiles.inline_source (by decide +kernel)),
      Source.lineup_eq rfl, ofText_twoProfilesText]
    simp only [Source.entryName_of_chosenName? hchosen, hlineup]
    rfl

end Settings

end SuitePlan
