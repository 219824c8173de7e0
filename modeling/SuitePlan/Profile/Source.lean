import SuitePlan.Catalog.Reader
import SuitePlan.Profile.Error
import SuitePlan.Settings.Basic

/-!
# Sources of profiles

The option `profile` holds the text of a catalog, the path of a file with one, or a name, which
stands for the file of that name in the directory of profiles.
-/

namespace SuitePlan

/-- Where a catalog comes from. -/
inductive Source where
  | inline (text : String)
  | file (path : String)
  | named (directory name : String)
  deriving DecidableEq, Repr

namespace Source

/-- The option that says where the catalog is. -/
def option : String := "profile"

/-- The option that names the directory of profiles. -/
def directoryOption : String := "profile-dir"

/-- The option that names the profile to start from. -/
def nameOption : String := "profile-name"

/-- The directory of profiles, if no other is named. -/
def defaultDirectory : String := "profiles"

/-- The source that settings ask for, if they ask for one. Text that starts with a brace is a
catalog, and the path of a file is that file. -/
def ofSettings (files : Files) (s : Settings) : Except ProfileError (Option Source) :=
  match s.get? option with
  | none => .ok none
  | some value =>
    let value := Text.trim value
    if value.isEmpty then .error .blankSource
    else if value.toList.head? = some '{' then .ok (some (.inline value))
    else if files.isFile value then .ok (some (.file value))
    else .ok (some (.named (s.getText directoryOption defaultDirectory) value))

/-- The path of the file of a named profile. -/
def namedPath (directory name : String) : String :=
  Files.join directory (name ++ ".json")

/-- The files in which settings may ask to look for a catalog. -/
def paths (s : Settings) : List String :=
  match s.get? option with
  | none => []
  | some value =>
    let value := Text.trim value
    [value, namedPath (s.getText directoryOption defaultDirectory) value]

/-- How a message calls a source. -/
def origin : Source → String
  | .inline _ => "inline profile"
  | .file path => path
  | .named directory name => namedPath directory name

/-- The text of a file that holds a catalog. -/
def readText (files : Files) (path : String) : Except ProfileError String :=
  (files.readText path).mapError (.unreadable path)

/-- The text of the catalog. -/
def text (files : Files) : Source → Except ProfileError String
  | .inline text => .ok text
  | .file path => readText files path
  | .named directory name => readText files (namedPath directory name)

/-- The catalog. -/
def load (files : Files) (source : Source) : Except ProfileError Catalog := do
  let text ← source.text files
  (Catalog.ofText text).mapError (.unparsable source.origin text)

/-- The name that settings give for the profile to start from, unless it is blank. -/
def chosenName? (s : Settings) : Option String :=
  ((s.get? nameOption).map Text.trim).filter fun name => !name.isEmpty

/-- The profile to start from: the one that the settings name, else the one whose file was looked
up, else the one that the catalog names, else its only one. -/
def entryName (source : Source) (s : Settings) (c : Catalog) : Except ProfileError String :=
  match chosenName? s, source, c.entry, c.profiles.entries with
  | some name, _, _, _ => .ok name
  | none, .named _ name, _, _ => .ok name
  | none, _, some name, _ => .ok name
  | none, _, none, [(name, _)] => .ok name
  | none, _, none, _ => .error (.noEntry source.origin)

variable {files : Files} {s t : Settings} {source : Source} {c : Catalog} {name text : String}

theorem ofSettings_congr (hoption : s.get? option = t.get? option)
    (hdirectory : s.get? directoryOption = t.get? directoryOption) :
    ofSettings files s = ofSettings files t := by
  simp only [ofSettings, Settings.getText, hoption, hdirectory]

theorem ofSettings_eq_none_iff : ofSettings files s = .ok none ↔ s.get? option = none := by
  cases hvalue : s.get? option with
  | none => simp [ofSettings, hvalue]
  | some value =>
    simp only [ofSettings, hvalue, reduceCtorEq, iff_false]
    split
    · simp
    · split
      · simp
      · split <;> simp

theorem ofSettings_text (hs : s.get? option = some text) (htrim : Text.trim text = text)
    (hbrace : text.toList.head? = some '{') : ofSettings files s = .ok (some (inline text)) := by
  have hempty : text.isEmpty = false := by
    rw [← Bool.not_eq_true, String.isEmpty_iff]
    intro hempty
    rw [hempty] at hbrace
    cases hbrace
  simp only [ofSettings, hs, htrim, hempty, hbrace, Bool.false_eq_true, if_false, if_true]

theorem chosenName?_congr (h : s.get? nameOption = t.get? nameOption) :
    chosenName? s = chosenName? t := by
  rw [chosenName?, chosenName?, h]

theorem entryName_congr (h : chosenName? s = chosenName? t) :
    source.entryName s c = source.entryName t c := by
  simp only [entryName, h]

theorem chosenName?_eq_some_iff :
    chosenName? s = some name ↔
      (∃ value, s.get? nameOption = some value ∧ Text.trim value = name) ∧ name ≠ "" := by
  rw [chosenName?, Option.filter_eq_some_iff, Option.map_eq_some_iff]
  simp

/-- A name that settings give comes before all others. -/
theorem entryName_of_chosenName? (h : chosenName? s = some name) :
    source.entryName s c = .ok name := by
  simp only [entryName, h]

end Source

end SuitePlan
