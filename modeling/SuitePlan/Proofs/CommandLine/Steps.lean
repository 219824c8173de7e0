import SuitePlan.CommandLine.Run
import SuitePlan.Proofs.Settings.Overrides
import SuitePlan.Proofs.Settings.RoundTrip

/-!
# The steps of `compose`

A request is worked on in five steps, each of which needs what the ones before it gave: the settings
are loaded, the overrides applied to them, the items read, the pipeline built, and the suite
composed. Either all of them succeed (`Composes`) or there is a first one that fails (`FailsFirst`).
The program tells just these two apart, and a request that fails prints nothing but the name of that
step and its error (`compose_stops_at_first_failure`).
-/

namespace SuitePlan.CommandLine

/-- The settings that a request starts from: those of its file, or none. -/
def Loads (t : Terminal) (r : ComposeRequest) (base : Settings) : Prop :=
  match r.config with
  | none => base = .empty
  | some path => Settings.load t.files path = .ok base

/-- The settings that the overrides of a request make of those that it starts from. -/
def Merges (t : Terminal) (r : ComposeRequest) (s : Settings) : Prop :=
  ∃ base, Loads t r base ∧ base.override r.overrides = .ok s

/-- The bytes at a path, or those of the standard input where the path stands for it, are the text
in UTF-8. -/
def Holds (t : Terminal) (path text : String) : Prop :=
  if isInput path then t.input = .ok text.toUTF8 else t.files.read path = .ok text.toUTF8

/-- All steps of a request succeed, and the composition is what the last one gives. -/
structure Composes (t : Terminal) (r : ComposeRequest) (s : Settings) (p : Pipeline String)
    (items : List String) (c : Composition String) : Prop where
  merges : Merges t r s
  lists : ∃ text, Holds t r.items text ∧ readItems text = items
  builds : Pipeline.ofSettings s = .ok p
  composes : p.compose t.files t.seeds s items = .ok c

/-- A step of a request fails, for the given causes, and none before it does. What the causes say of
a text that is no JSON is what `json` says of it. -/
inductive FailsFirst (json : Json.Diagnostics) (t : Terminal) (r : ComposeRequest) :
    Step → List String → Prop
  | loading {path : String} {e : SettingsError} :
      r.config = some path → Settings.load t.files path = .error e →
      FailsFirst json t r (.loadSettings path) (e.chain json)
  /-- Of the overrides that cannot be read, the first one is reported. -/
  | overriding {base : Settings} {before after : List String} {pair : String}
      {e : SettingsError} :
      Loads t r base → r.overrides = before ++ pair :: after →
      (∀ o ∈ before, ∃ p, Settings.readOverride o = .ok p) →
      Settings.readOverride pair = .error e →
      FailsFirst json t r .override (e.chain json)
  | readingInput {s : Settings} {fault : ReadFault} :
      Merges t r s → isInput r.items = true → t.inputText = .error fault →
      FailsFirst json t r .readInput [fault.message]
  | readingFile {s : Settings} {fault : ReadFault} :
      Merges t r s → isInput r.items = false → t.files.readText r.items = .error fault →
      FailsFirst json t r (.readItems r.items) [fault.message]
  | building {s : Settings} {text : String} {e : SettingsError} :
      Merges t r s → Holds t r.items text →
      (Pipeline.ofSettings s : Except SettingsError (Pipeline String)) = .error e →
      FailsFirst json t r .buildPipeline (e.chain json)
  | composing {s : Settings} {text : String} {p : Pipeline String} {f : Failure} :
      Merges t r s → Holds t r.items text → Pipeline.ofSettings s = .ok p →
      p.compose t.files t.seeds s (readItems text) = .error f →
      FailsFirst json t r .compose (f.chain json)

variable {json : Json.Diagnostics} {t : Terminal} {r : ComposeRequest} {words : List String}
  {base s : Settings} {p : Pipeline String} {items : List String} {c : Composition String}
  {path text : String} {step : Step} {causes : List String}

/-! ## Single steps -/

theorem readUtf8_eq_ok_iff {bytes : ByteArray} :
    readUtf8 bytes = .ok text ↔ bytes = text.toUTF8 := by
  constructor
  · intro h
    unfold readUtf8 String.fromUTF8? at h
    split at h
    · rename_i s hs
      rw [Except.ok.injEq] at h
      subst h
      split at hs
      · cases hs
        rfl
      · cases hs
    · cases h
  · intro h
    rw [h, readUtf8_toUTF8]

theorem readText_eq_ok_iff {files : Files} :
    files.readText path = .ok text ↔ files.read path = .ok text.toUTF8 := by
  simp only [Files.readText, Attempt.bind_eq_ok_iff, readUtf8_eq_ok_iff, exists_eq_right]

theorem inputText_eq_ok_iff : t.inputText = .ok text ↔ t.input = .ok text.toUTF8 := by
  simp only [Terminal.inputText, Attempt.bind_eq_ok_iff, readUtf8_eq_ok_iff, exists_eq_right]

theorem itemsText_eq_ok_iff : itemsText t path = .ok text ↔ Holds t path text := by
  by_cases hinput : isInput path = true
  · rw [itemsText, Holds, if_pos hinput, if_pos hinput, Attempt.mapError_eq_ok_iff,
      inputText_eq_ok_iff]
  · rw [itemsText, Holds, if_neg hinput, if_neg hinput, Attempt.mapError_eq_ok_iff,
      readText_eq_ok_iff]

theorem baseSettings_eq_ok_iff : baseSettings t r.config = .ok base ↔ Loads t r base := by
  unfold baseSettings Loads
  cases r.config with
  | none => simp [eq_comm]
  | some path => exact Attempt.mapError_eq_ok_iff

theorem prepareSettings_eq_ok_iff : prepareSettings t r = .ok s ↔ Merges t r s := by
  simp only [prepareSettings, Merges, Attempt.bind_eq_ok_iff, Attempt.mapError_eq_ok_iff,
    baseSettings_eq_ok_iff]

/-! ## The work as a whole -/

theorem prepare_eq (hs : Merges t r s) (htext : Holds t r.items text) :
    prepare t r =
      ((Pipeline.ofSettings s).mapError fun e => (.buildPipeline, .failure (.settings e))).map
        fun p => (s, p, readItems text) := by
  rw [prepare, prepareSettings_eq_ok_iff.mpr hs, itemsText_eq_ok_iff.mpr htext]
  rfl

theorem compose_eq_of_composes (h : Composes t r s p items c) :
    compose t r = .done (composeOutput r.json c) (p.notes t.files t.seeds s items) := by
  obtain ⟨text, htext, rfl⟩ := h.lists
  have hprepare : prepare t r = .ok (s, p, readItems text) := by
    rw [prepare_eq h.merges htext, h.builds]
    rfl
  rw [compose, hprepare]
  simp only [h.composes]

theorem compose_eq_of_prepare {cause : Cause} (h : prepare t r = .error (step, cause)) :
    compose t r = .failed step cause [] := by
  rw [compose, h]

/-- A request fails with the step that is the first to fail. -/
theorem compose_eq_of_failsFirst (h : FailsFirst json t r step causes) :
    ∃ cause notes, cause.chain json = causes ∧ compose t r = .failed step cause notes := by
  cases h with
  | @loading path e hconfig hload =>
    refine ⟨.failure (.settings e), [], rfl, compose_eq_of_prepare ?_⟩
    have hbase : baseSettings t r.config = .error (.loadSettings path, .failure (.settings e)) := by
      rw [hconfig, baseSettings, hload]
      rfl
    rw [prepare, prepareSettings, hbase]
    rfl
  | @overriding base before after pair e hbase hsplit hbefore hpair =>
    refine ⟨.failure (.settings e), [], rfl, compose_eq_of_prepare ?_⟩
    have hoverride : base.override r.overrides = .error e :=
      Settings.override_eq_error_iff.mpr ⟨before, pair, after, hsplit, hbefore, hpair⟩
    rw [prepare, prepareSettings, baseSettings_eq_ok_iff.mpr hbase]
    show ((base.override r.overrides).mapError _ >>= _) = _
    rw [hoverride]
    rfl
  | readingInput hs hinput hread =>
    refine ⟨.file _, [], rfl, compose_eq_of_prepare ?_⟩
    rw [prepare, prepareSettings_eq_ok_iff.mpr hs, itemsText, if_pos hinput, hread]
    rfl
  | readingFile hs hinput hread =>
    refine ⟨.file _, [], rfl, compose_eq_of_prepare ?_⟩
    have hfile : ¬isInput r.items = true := by rw [hinput]; exact Bool.false_ne_true
    rw [prepare, prepareSettings_eq_ok_iff.mpr hs, itemsText, if_neg hfile, hread]
    rfl
  | building hs htext hp =>
    refine ⟨.failure (.settings _), [], rfl, compose_eq_of_prepare ?_⟩
    rw [prepare_eq hs htext, hp]
    rfl
  | @composing s text p f hs htext hp hf =>
    refine ⟨.failure f, p.notes t.files t.seeds s (readItems text), rfl, ?_⟩
    have hprepare : prepare t r = .ok (s, p, readItems text) := by
      rw [prepare_eq hs htext, hp]
      rfl
    rw [compose, hprepare]
    simp only [hf]

/-! ## One of the two -/

theorem merges_or_failsFirst (json : Json.Diagnostics) (t : Terminal) (r : ComposeRequest) :
    (∃ s, Merges t r s) ∨ ∃ step causes, FailsFirst json t r step causes := by
  cases hbase : baseSettings t r.config with
  | error fault =>
    cases hconfig : r.config with
    | none =>
      rw [hconfig] at hbase
      cases hbase
    | some path =>
      cases hload : Settings.load t.files path with
      | error e => exact .inr ⟨_, _, .loading hconfig hload⟩
      | ok base =>
        rw [hconfig, baseSettings, hload] at hbase
        cases hbase
  | ok base =>
    rw [baseSettings_eq_ok_iff] at hbase
    cases hs : base.override r.overrides with
    | error e =>
      obtain ⟨before, pair, after, hsplit, hbefore, hpair⟩ :=
        Settings.override_eq_error_iff.mp hs
      exact .inr ⟨_, _, .overriding hbase hsplit hbefore hpair⟩
    | ok s => exact .inl ⟨s, base, hbase, hs⟩

theorem holds_or_failsFirst (hs : Merges t r s) :
    (∃ text, Holds t r.items text) ∨ ∃ step causes, FailsFirst json t r step causes := by
  cases hinput : isInput r.items with
  | true =>
    cases hread : t.inputText with
    | error fault => exact .inr ⟨_, _, .readingInput hs hinput hread⟩
    | ok text => exact .inl ⟨text, by rw [Holds, if_pos hinput, inputText_eq_ok_iff.mp hread]⟩
  | false =>
    cases hread : t.files.readText r.items with
    | error fault => exact .inr ⟨_, _, .readingFile hs hinput hread⟩
    | ok text => exact .inl ⟨text, by simp [Holds, hinput, readText_eq_ok_iff.mp hread]⟩

/-- Every request is composed, or has a step that is the first to fail. -/
theorem composes_or_failsFirst (json : Json.Diagnostics) (t : Terminal) (r : ComposeRequest) :
    (∃ s p items c, Composes t r s p items c) ∨ ∃ step causes, FailsFirst json t r step causes := by
  rcases merges_or_failsFirst json t r with ⟨s, hs⟩ | hfails
  · rcases holds_or_failsFirst hs with ⟨text, htext⟩ | hfails
    · cases hp : (Pipeline.ofSettings s : Except SettingsError (Pipeline String)) with
      | error e => exact .inr ⟨_, _, .building hs htext hp⟩
      | ok p =>
        cases hc : p.compose t.files t.seeds s (readItems text) with
        | error f => exact .inr ⟨_, _, .composing hs htext hp hc⟩
        | ok c => exact .inl ⟨s, p, readItems text, c, hs, ⟨text, htext, rfl⟩, hp, hc⟩
    · exact .inr hfails
  · exact .inr hfails

/-- A request that is asked for succeeds exactly if all of its steps do. Otherwise nothing is
printed as a result, and the error is that of the first step that fails, below the name of that
step. -/
theorem compose_stops_at_first_failure (json : Json.Diagnostics)
    (hwords : Invocation.ofWords words = .compose r) :
    let o := run t (.ofWords words)
    (o.code = 0 ↔ ∃ s p items c, Composes t r s p items c) ∧
    (o.code ≠ 0 → o.code = 1 ∧ o.output = "" ∧
      ∃ step causes, FailsFirst json t r step causes ∧ o.chain json = step.text :: causes) ∧
    ∀ step causes, FailsFirst json t r step causes →
      o.code = 1 ∧ o.output = "" ∧ o.chain json = step.text :: causes := by
  intro o
  have hrun : o = compose t r := by
    show run t (.ofWords words) = _
    rw [hwords, run]
  have hfailed : ∀ step causes, FailsFirst json t r step causes →
      o.code = 1 ∧ o.output = "" ∧ o.chain json = step.text :: causes := by
    intro step causes h
    obtain ⟨cause, notes, rfl, heq⟩ := compose_eq_of_failsFirst h
    rw [hrun, heq]
    exact ⟨rfl, rfl, rfl⟩
  have hdone : ∀ s p items c, Composes t r s p items c → o.code = 0 := by
    intro s p items c h
    rw [hrun, compose_eq_of_composes h]
    rfl
  rcases composes_or_failsFirst json t r with ⟨s, p, items, c, h⟩ | ⟨step, causes, h⟩
  · have hcode := hdone s p items c h
    exact ⟨iff_of_true hcode ⟨s, p, items, c, h⟩, fun hne => absurd hcode hne, hfailed⟩
  · obtain ⟨hcode, houtput, hchain⟩ := hfailed step causes h
    refine ⟨?_, fun _ => ⟨hcode, houtput, step, causes, h, hchain⟩, hfailed⟩
    rw [hcode]
    refine iff_of_false Nat.one_ne_zero fun hcomposes => ?_
    obtain ⟨s, p, items, c, hc⟩ := hcomposes
    have hzero := hdone s p items c hc
    rw [hcode] at hzero
    cases hzero

/-! ## Five faults

The second override has no equals sign, and the third no key. The stages that the file asks for are
unknown, and the standard input is no text. None of this is noticed where the file is no JSON. -/

/-- The words of a request with two overrides that cannot be read. -/
def stumblingWords : List String :=
  ["compose", "--config", "c.json", "--items", "-",
    "--set", "seed=1", "--set", "oops", "--set", "=1"]

/-- The request that these words make. -/
def stumblingRequest : ComposeRequest where
  items := "-"
  config := some "c.json"
  overrides := ["seed=1", "oops", "=1"]

/-- Settings that ask for a stage that does not exist. -/
def unknownStages : Settings :=
  .ofList [("stages", "repeat")]

/-- A terminal whose files all hold the same text, and whose standard input is no text. -/
def stumblingTerminal (text : String) : Terminal where
  files := { read := fun _ => .ok text.toUTF8, isFile := fun _ => true }
  input := .ok ⟨#[0xFF]⟩
  seeds _ := 0

/-- Whatever is no JSON is said to lack a value at its start. -/
def missesValue : Json.Diagnostics where
  ofBytes _ := ⟨"expected value", some (1, 1)⟩
  ofCatalog _ := ⟨"expected value", some (1, 1)⟩

theorem compose_stops_at_first_failure_stumbling :
    Invocation.ofWords stumblingWords = .compose stumblingRequest ∧
    FailsFirst missesValue (stumblingTerminal unknownStages.toText) stumblingRequest .override
      ["invalid configuration: override \"oops\" must be key=value"] ∧
    (let o := run (stumblingTerminal unknownStages.toText) (.ofWords stumblingWords)
    o.code = 1 ∧ o.output = "" ∧ o.chain missesValue =
      ["apply --set overrides", "invalid configuration: override \"oops\" must be key=value"]) ∧
    (run (stumblingTerminal "oops") (.ofWords stumblingWords)).chain missesValue =
      ["load config c.json",
        "invalid configuration: parse configuration JSON: expected value at line 1 column 1"] := by
  have hwords : Invocation.ofWords stumblingWords = .compose stumblingRequest := by
    decide +kernel
  have hload : Loads (stumblingTerminal unknownStages.toText) stumblingRequest unknownStages := by
    show Settings.ofBytes unknownStages.toText.toUTF8 = _
    rw [Settings.ofBytes_toUTF8, Settings.ofText_written (.inl rfl)]
  have hkey : Settings.IsKey "seed" := by decide
  have hfirst : ∃ p, Settings.readOverride "seed=1" = .ok p :=
    ⟨("seed", "1"), Settings.readOverride_of_isKey hkey "1"⟩
  have hsplit : stumblingRequest.overrides = ["seed=1"] ++ "oops" :: ["=1"] := rfl
  have hoverride : FailsFirst missesValue (stumblingTerminal unknownStages.toText)
      stumblingRequest .override ((SettingsError.noEqualsSign "oops").chain missesValue) :=
    .overriding hload hsplit (by simpa using hfirst) rfl
  have hbroken : Settings.load (stumblingTerminal "oops").files "c.json" =
      .error (.notJson "oops".toUTF8) := by
    have hparse : Json.Value.parse? "oops".toList = none := by decide +kernel
    show Settings.ofBytes "oops".toUTF8 = _
    rw [Settings.ofBytes_toUTF8, Settings.ofText, hparse]
  have hloading : FailsFirst missesValue (stumblingTerminal "oops") stumblingRequest
      (.loadSettings "c.json") ((SettingsError.notJson "oops".toUTF8).chain missesValue) :=
    .loading rfl hbroken
  refine ⟨hwords, hoverride, ?_, ?_⟩
  · exact (compose_stops_at_first_failure missesValue hwords).2.2 _ _ hoverride
  · exact ((compose_stops_at_first_failure missesValue hwords).2.2 _ _ hloading).2.2

end SuitePlan.CommandLine
