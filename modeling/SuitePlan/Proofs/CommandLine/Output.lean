import SuitePlan.Proofs.CommandLine.Items
import SuitePlan.Proofs.CommandLine.Steps
import SuitePlan.Proofs.CommandLine.Words
import SuitePlan.Proofs.Replay.Seeds

/-!
# What is printed of a suite

The whole composition can be had from what `compose` prints: its items from the lines, and its
items and its chosen values from the JSON text. Lines that were printed are themselves a list of
items, and without any options they are printed again as they are (`output_carries_composition`).
-/

namespace SuitePlan

open Json (Value)

/-- The composition that a JSON value reports. -/
def Composition.ofValue? : Value → Option (Composition String)
  | .object members => do
    let items ← match Table.lookup "items" members with
      | some (.array items) => items.mapM Value.text?
      | _ => none
    let chosen ← (Table.lookup "resolved" members).bind Scenario.extrasOfValue?
    some ⟨items, chosen⟩
  | _ => none

variable {c : Composition String}

theorem Json.Value.mapM_text?_ofString (items : List String) :
    (items.map Value.ofString).mapM Value.text? = some items := by
  induction items with
  | nil => rfl
  | cons item rest ih =>
    rw [List.map_cons, List.mapM_cons, ih]
    rfl

theorem Composition.ofValue?_toValue (c : Composition String) : ofValue? c.toValue = some c := by
  have hitems : Table.lookup "items" [("items", Value.array (c.items.map .ofString)),
      ("resolved", c.chosen.toValue)] = some (.array (c.items.map .ofString)) := by
    simp [Table.lookup]
  have hchosen : Table.lookup "resolved" [("items", Value.array (c.items.map .ofString)),
      ("resolved", c.chosen.toValue)] = some c.chosen.toValue := by
    simp [Table.lookup]
  rw [toValue, ofValue?, hitems, hchosen]
  simp only [Value.mapM_text?_ofString, Option.bind_some, Scenario.extrasOfValue?_toValue,
    Option.bind_eq_bind]

theorem Composition.isReadable_toValue (c : Composition String) :
    c.toValue.IsReadable Json.Draft.depthLimit := by
  refine .object fun m hm => ?_
  simp only [List.mem_cons, List.not_mem_nil, or_false] at hm
  rcases hm with rfl | rfl
  · refine .array fun v hv => ?_
    obtain ⟨item, -, rfl⟩ := List.mem_map.mp hv
    exact Value.isReadable_ofString item
  · exact c.chosen.isReadable_toValue

namespace CommandLine

/-- The composition that a JSON text reports. -/
def readReport? (output : String) : Option (Composition String) :=
  (Value.parse? output.toList).bind Composition.ofValue?

/-- The items that an output reports, be it lines or a JSON text. -/
def reportedItems? (json : Bool) (output : String) : Option (List String) :=
  if json then (readReport? output).map Composition.items else some (readItems output)

variable {t : Terminal} {r : ComposeRequest} {words : List String} {s : Settings}
  {p : Pipeline String} {kinds : List StageKind} {items : List String} {json : Bool}

theorem readReport?_jsonOutput (c : Composition String) :
    readReport? (jsonOutput c.toValue) = some c := by
  have hbreak : Json.Blanks ['\n'] := by simp [Json.Blanks, Json.isSpace]
  have htext : (jsonOutput c.toValue).toList = c.toValue.indented 0 ++ ['\n'] := by
    simp [jsonOutput, Value.indentedText]
  have hparse : Value.parse? (jsonOutput c.toValue).toList = some c.toValue := by
    rw [htext]
    exact Value.parse?_append_of_reads (Value.reads_indented c.isReadable_toValue 0) hbreak
  rw [readReport?, hparse, Option.bind_some, Composition.ofValue?_toValue]

/-- Either output reports the items of the composition, if each can stand on a line. -/
theorem reportedItems?_composeOutput (h : ∀ item ∈ c.items, IsItem item) :
    reportedItems? json (composeOutput json c) = some c.items := by
  cases json with
  | false => exact congrArg some (readItems_writeLines h)
  | true =>
    rw [reportedItems?, if_pos rfl, composeOutput, if_pos rfl, readReport?_jsonOutput,
      Option.map_some]

/-! ## Requests that succeed -/

theorem composes_of_code_eq_zero (hcode : (compose t r).code = 0) :
    ∃ s kinds items c, StageKind.orderOfSettings s = .ok kinds ∧
      Composes t r s (.ofKinds kinds) items c := by
  rcases composes_or_failsFirst default t r with ⟨s, p, items, c, hc⟩ | ⟨step, causes, hfails⟩
  · obtain ⟨kinds, hkinds, rfl⟩ := Attempt.map_eq_ok_iff.mp hc.builds
    exact ⟨s, kinds, items, c, hkinds, hc⟩
  · obtain ⟨cause, notes, -, hfailed⟩ := compose_eq_of_failsFirst hfails
    rw [hfailed] at hcode
    cases hcode

/-- All items of a composition were read from the text, so that each can stand on a line. -/
theorem Composes.isItem (h : Composes t r s (.ofKinds kinds) items c) :
    ∀ item ∈ c.items, IsItem item := by
  obtain ⟨text, -, rfl⟩ := h.lists
  intro item hitem
  exact isItem_of_mem_readItems (Pipeline.mem_of_mem_composed h.composes hitem)

/-- Without options the items are composed as they are. -/
theorem composes_plain {path text : String} (htext : Holds t path text) :
    Composes t { items := path } .empty (.ofKinds StageKind.standardOrder) (readItems text)
      ⟨readItems text, .empty⟩ where
  merges := ⟨.empty, rfl, rfl⟩
  lists := ⟨text, htext, rfl⟩
  builds := rfl
  composes := Pipeline.compose_of_unset fun _ _ _ _ => rfl

/-- The same is composed for lines as for JSON, and whatever seeds are generated, unless one of them
is used. -/
theorem Composes.withJson (h : Composes t r s (.ofKinds kinds) items c)
    (hseed : .shuffle ∉ kinds ∨ s.get? Shuffle.Request.seedOption ≠ none ∨
      s.getFlag Shuffle.Request.option false ≠ .ok true) (json : Bool) (seeds : Nat → Int64) :
    Composes { t with seeds } { r with json } s (.ofKinds kinds) items c where
  merges := h.merges
  lists := h.lists
  builds := h.builds
  composes := by
    show (Pipeline.ofKinds kinds).compose t.files seeds s items = _
    rw [← h.composes]
    refine Pipeline.compose_seeds_congr fun hshuffle hunseeded => ?_
    obtain ⟨hon, hnone⟩ := Shuffle.Request.ofSettings_eq_unseeded_iff.mp hunseeded
    rcases hseed with hno | hsome | hoff
    · exact hno hshuffle
    · exact hsome hnone
    · exact hoff hon

/-- The output of a request that succeeds holds the whole composition. Lines can be given back as
the items of another request, which prints the same if nothing else is asked for. Where no seed is
generated, lines and JSON report the same items. -/
theorem output_carries_composition (hwords : Invocation.ofWords words = .compose r)
    (hcode : (run t (.ofWords words)).code = 0) :
    let output := (run t (.ofWords words)).output
    ∃ s kinds items c, StageKind.orderOfSettings s = .ok kinds ∧
      Composes t r s (.ofKinds kinds) items c ∧
      (r.json = false → readItems output = c.items ∧
        ∀ t' words' path, Invocation.ofWords words' = .compose { items := path } →
          Holds t' path output →
            (run t' (.ofWords words')).code = 0 ∧ (run t' (.ofWords words')).output = output) ∧
      (r.json = true → readReport? output = some c) ∧
      ((.shuffle ∉ kinds ∨ s.get? Shuffle.Request.seedOption ≠ none ∨
          s.getFlag Shuffle.Request.option false ≠ .ok true) →
        ∀ words' seeds, Invocation.ofWords words' = .compose { r with json := !r.json } →
          let other := run { t with seeds } (.ofWords words')
          other.code = 0 ∧ reportedItems? r.json output = some c.items ∧
            reportedItems? (!r.json) other.output = some c.items) := by
  intro output
  have hrun : run t (.ofWords words) = compose t r := by
    rw [hwords, run]
  rw [hrun] at hcode
  obtain ⟨s, kinds, items, c, hkinds, hc⟩ := composes_of_code_eq_zero hcode
  have houtput : output = composeOutput r.json c := by
    show (run t (.ofWords words)).output = _
    rw [hrun, compose_eq_of_composes hc]
    rfl
  rw [houtput]
  refine ⟨s, kinds, items, c, hkinds, hc, ?_, ?_, ?_⟩
  · intro hjson
    have hread : readItems (writeLines c.items) = c.items := readItems_writeLines hc.isItem
    rw [hjson]
    refine ⟨hread, fun t' words' path hwords' hholds => ?_⟩
    have hagain := composes_plain hholds
    rw [hwords', run, compose_eq_of_composes hagain]
    refine ⟨rfl, ?_⟩
    show writeLines (readItems (writeLines c.items)) = writeLines c.items
    rw [hread]
  · intro hjson
    rw [hjson]
    exact readReport?_jsonOutput c
  · intro hseed words' seeds hwords'
    rw [hwords', run, compose_eq_of_composes (hc.withJson hseed (!r.json) seeds)]
    exact ⟨rfl, reportedItems?_composeOutput hc.isItem, reportedItems?_composeOutput hc.isItem⟩

/-! ## Two items shuffled

They are read from lines with blanks and without a break after the last one. -/

/-- The words that ask for the items of the standard input to be shuffled with the seed 2. -/
def shuffledWords : List String :=
  composeWords "-" ["shuffle=true", "seed=2"]

/-- The request that these words make. -/
def shuffledRequest : ComposeRequest where
  items := "-"
  overrides := ["shuffle=true", "seed=2"]

/-- A terminal where a text is given on the standard input. -/
def typed (text : String) : Terminal where
  files := Files.empty
  input := .ok text.toUTF8
  seeds _ := 0

/-- The settings that it composes under. -/
def shuffledSettings : Settings :=
  .ofList [("shuffle", "true"), ("seed", "2")]

/-- The suite that it composes from `a` and `b`: the seed reverses them. -/
def shuffledSuite : Composition String :=
  ⟨["b", "a"], .ofList [(Shuffle.Request.seedOption, Text.Decimal.text (2 : Int64).toInt)]⟩

theorem holds_typed (text : String) : Holds (typed text) "-" text := by
  have hinput : isInput "-" = true := by decide
  rw [Holds, if_pos hinput, typed]

theorem compose_shuffledSettings :
    (Pipeline.ofKinds StageKind.standardOrder).compose Files.empty (fun _ => 0) shuffledSettings
      ["a", "b"] = .ok shuffledSuite := by
  have hrequest : Shuffle.Request.ofSettings shuffledSettings = .ok (.seeded 2) := by cbv
  have hshuffle : Stage.applyShuffle ⟨Files.empty, 0⟩ shuffledSettings ["a", "b"] =
      .ok shuffledSuite := by
    refine Stage.applyShuffle_eq_ok_iff.mpr ⟨.seeded 2, hrequest, .inr ⟨2, rfl, ?_⟩⟩
    rw [permute_two, shuffledSuite]
  exact Pipeline.compose_ofKinds_eq_ok_iff.mpr ⟨[⟨.profile, _⟩, ⟨.iterate, _⟩, ⟨.shuffle, _⟩],
    .cons (Stage.apply_of_unset (by decide +kernel))
      (.cons (Stage.apply_of_unset (by decide +kernel)) (.cons hshuffle .nil)),
    rfl, by cbv⟩

theorem composes_shuffledRequest :
    Composes (typed " a \r\n\n b") shuffledRequest shuffledSettings
      (.ofKinds StageKind.standardOrder) ["a", "b"] shuffledSuite where
  merges := ⟨.empty, rfl, Attempt.toOption_eq_some_iff.mp (by decide +kernel)⟩
  lists := ⟨" a \r\n\n b", holds_typed _, by decide +kernel⟩
  builds := rfl
  composes := compose_shuffledSettings

theorem output_carries_composition_shuffled :
    Invocation.ofWords shuffledWords = .compose shuffledRequest ∧
    (run (typed " a \r\n\n b") (.ofWords shuffledWords)).code = 0 ∧
    (run (typed " a \r\n\n b") (.ofWords shuffledWords)).output = "b\na\n" ∧
    (run (typed "b\na\n") (.ofWords (composeWords "-" []))).output = "b\na\n" ∧
    reportedItems? true
      (run (typed " a \r\n\n b") (.ofWords (shuffledWords ++ ["--json"]))).output =
        some ["b", "a"] := by
  have hwords : Invocation.ofWords shuffledWords = .compose shuffledRequest :=
    ofWords_composeWords (by decide) (by decide)
  have hplain : Invocation.ofWords (composeWords "-" []) = .compose { items := "-" } :=
    ofWords_composeWords (by decide) (by simp)
  have hjson : Invocation.ofWords (shuffledWords ++ ["--json"]) =
      .compose { shuffledRequest with json := true } := by
    decide +kernel
  have hrun : run (typed " a \r\n\n b") (.ofWords shuffledWords) =
      .done "b\na\n" (Pipeline.notes (.ofKinds StageKind.standardOrder) Files.empty (fun _ => 0)
        shuffledSettings ["a", "b"]) := by
    rw [hwords, run, compose_eq_of_composes composes_shuffledRequest]
    rfl
  have hcode : (run (typed " a \r\n\n b") (.ofWords shuffledWords)).code = 0 := by
    rw [hrun]
    rfl
  obtain ⟨s, kinds, items, c, hkinds, hc, hlines, -, hmodes⟩ :=
    output_carries_composition hwords hcode
  obtain ⟨hread, hagain⟩ := hlines rfl
  rw [hrun] at hread hagain ⊢
  obtain ⟨-, hprinted⟩ := hagain (typed "b\na\n") _ _ hplain (holds_typed _)
  have hseed : s.get? Shuffle.Request.seedOption ≠ none := by
    obtain ⟨base, rfl, hs⟩ := hc.merges
    obtain ⟨base', rfl, hs'⟩ := composes_shuffledRequest.merges
    rw [hs', Except.ok.injEq] at hs
    rw [← hs]
    decide +kernel
  obtain ⟨-, -, hreported⟩ := hmodes (.inr (.inl hseed)) _ (fun _ => 0) hjson
  have hitems : c.items = ["b", "a"] := by
    rw [← hread]
    show readItems "b\na\n" = _
    decide +kernel
  rw [hitems] at hreported
  exact ⟨hwords, rfl, rfl, hprinted, hreported⟩

end CommandLine

end SuitePlan
