import Mathlib
import SuitePlan.Pipeline

/-!
# Stages that are listed

The value of the option `stages` lists names between commas. Blanks around a name and the case of
its letters do not matter, and where nothing stands between two commas, no name is listed
(`StageKind.namesIn`).

The names make an order if there are any, each is the name of a kind, and none is listed twice. If
they do not, the first name that cannot follow those before it says why
(`StageKind.order_follows_names`).
-/

namespace SuitePlan

theorem Text.pieces_eq_splitOn (separator : Char) (cs : List Char) :
    pieces separator cs = cs.splitOn separator := by
  induction cs with
  | nil => rw [pieces, List.splitOn_nil]
  | cons c rest ih =>
    rw [pieces, ih, List.splitOn, List.splitOn, List.splitOnP_cons_eq_if_modifyHead]
    simp only [beq_iff_eq]
    split
    · rfl
    · cases hrest : List.splitOnP (fun x => x == separator) rest with
      | nil => exact absurd hrest (List.splitOn_ne_nil separator rest)
      | cons piece more => rfl

namespace StageKind

/-- The names between the commas of a value: what is left there without blanks at the ends, in lower
case, unless that is nothing. -/
def namesIn (value : String) : List String :=
  ((value.toList.splitOn ',').map fun piece => (Text.trim (String.ofList piece)).toLower).filter
    fun name => name ≠ ""

/-- Why a name cannot follow the stages that are listed before it. -/
inductive Offends (value : String) (listed : List StageKind) : String → SettingsError → Prop
  | unknown {name : String} : ofName? name = none →
      Offends value listed name (.malformed option value .stages)
  | repeated {kind : StageKind} : kind ∈ listed →
      Offends value listed kind.name (.repeatedStage kind)

variable {s : Settings} {value name : String} {names : List String}
  {listed kinds more : List StageKind} {e : SettingsError}

/-! ## Names -/

theorem listedNames_eq_namesIn (value : String) : listedNames value = namesIn value := by
  have hlower : ∀ piece, (Text.trim (String.ofList piece)).toLower =
      String.ofList (Settings.lowered (Text.trimmed piece)) := by
    intro piece
    apply String.toList_injective
    simp [String.toLower, Settings.lowered]
  have hempty : ∀ name : List Char,
      decide (String.ofList (Settings.lowered name) ≠ "") = !name.isEmpty := by
    intro name
    cases name with
    | nil => rfl
    | cons c rest => simp [Settings.lowered, ← String.toList_inj]
  rw [listedNames, namesIn, Text.pieces_eq_splitOn]
  simp only [hlower, List.filter_map, List.map_map, Function.comp_def, hempty]

theorem name_injective : Function.Injective StageKind.name := by
  intro kind other h
  rw [← Option.some.injEq, ← ofName?_name kind, ← ofName?_name other, h]

theorem exists_name_iff :
    (∃ kind : StageKind, kind.name = name) ↔ name ∈ ["profile", "iterate", "shuffle"] := by
  constructor
  · intro h
    obtain ⟨kind, rfl⟩ := h
    cases kind <;> simp [StageKind.name]
  · intro h
    simp only [List.mem_cons, List.not_mem_nil, or_false] at h
    rcases h with rfl | rfl | rfl
    · exact ⟨.profile, rfl⟩
    · exact ⟨.iterate, rfl⟩
    · exact ⟨.shuffle, rfl⟩

theorem ofName?_eq_none_iff : ofName? name = none ↔ name ∉ ["profile", "iterate", "shuffle"] := by
  rw [← exists_name_iff, Option.eq_none_iff_forall_ne_some, not_exists]
  refine forall_congr' fun kind => ?_
  rw [Ne, ofName?_eq_some_iff, eq_comm]

theorem exists_map_name_iff : (∃ kinds : List StageKind, kinds.map StageKind.name = names) ↔
    ∀ name ∈ names, name ∈ ["profile", "iterate", "shuffle"] := by
  simp only [← exists_name_iff]
  show names ∈ Set.range (List.map StageKind.name) ↔ _
  rw [Set.range_list_map]
  rfl

/-! ## Reading -/

/-- Names of kinds are added to those before them if none is listed twice. -/
theorem readNames_map_append (h : (listed ++ more).Nodup) (rest : List String) :
    readNames value listed (more.map StageKind.name ++ rest) =
      readNames value (listed ++ more) rest := by
  induction more generalizing listed with
  | nil => rw [List.append_nil, List.map_nil, List.nil_append]
  | cons kind more ih =>
    have hnew : kind ∉ listed := by
      intro hmem
      exact (List.nodup_cons.mp (List.nodup_middle.mp h)).1 (List.mem_append_left _ hmem)
    rw [List.append_cons] at h ⊢
    rw [List.map_cons, List.cons_append, readNames, ofName?_name]
    simp only [hnew, if_false]
    exact ih h

theorem Offends.readNames_cons (h : Offends value listed name e) (rest : List String) :
    readNames value listed (name :: rest) = .error e := by
  cases h with
  | unknown hname => rw [readNames, hname]
  | repeated hmem =>
    rw [readNames, ofName?_name]
    exact if_pos hmem

/-- Names are those of distinct kinds, or there is a first one that cannot follow the others. -/
theorem distinct_or_offends (value : String) (hlisted : listed.Nodup) (names : List String) :
    (∃ more, names = more.map StageKind.name ∧ (listed ++ more).Nodup) ∨
      ∃ before name after e, names = before.map StageKind.name ++ name :: after ∧
        (listed ++ before).Nodup ∧ Offends value (listed ++ before) name e := by
  induction names generalizing listed with
  | nil => exact .inl ⟨[], rfl, by rwa [List.append_nil]⟩
  | cons name rest ih =>
    cases hkind : ofName? name with
    | none =>
      exact .inr ⟨[], name, rest, _, rfl, by rwa [List.append_nil], .unknown hkind⟩
    | some kind =>
      obtain rfl := ofName?_eq_some_iff.mp hkind
      by_cases hmem : kind ∈ listed
      · refine .inr ⟨[], kind.name, rest, _, rfl, by rwa [List.append_nil], .repeated ?_⟩
        rwa [List.append_nil]
      · have hnext : (listed ++ [kind]).Nodup := by
          rw [← List.concat_eq_append, List.nodup_concat]
          exact ⟨hmem, hlisted⟩
        rcases ih hnext with ⟨more, rfl, hmore⟩ | hoffends
        · rw [← List.append_cons] at hmore
          exact .inl ⟨kind :: more, rfl, hmore⟩
        · obtain ⟨before, name, after, e, rfl, hbefore, hname⟩ := hoffends
          rw [← List.append_cons] at hbefore hname
          exact .inr ⟨kind :: before, name, after, e, rfl, hbefore, hname⟩

theorem readNames_append (h : listed.Nodup) (rest : List String) :
    readNames value [] (listed.map StageKind.name ++ rest) = readNames value listed rest := by
  have hlisted : ([] ++ listed).Nodup := h
  exact readNames_map_append hlisted rest

theorem readNames_map (h : kinds.Nodup) :
    readNames value [] (kinds.map StageKind.name) = .ok kinds := by
  rw [← List.append_nil (kinds.map StageKind.name), readNames_append h, readNames]

theorem Offends.readNames_append (h : Offends value listed name e) (hlisted : listed.Nodup)
    (after : List String) :
    readNames value [] (listed.map StageKind.name ++ name :: after) = .error e := by
  rw [StageKind.readNames_append hlisted]
  exact h.readNames_cons after

theorem readNames_eq_ok_iff :
    readNames value [] names = .ok kinds ↔ names = kinds.map StageKind.name ∧ kinds.Nodup := by
  constructor
  · intro h
    rcases distinct_or_offends value List.nodup_nil names with ⟨more, rfl, hmore⟩ | hoffends
    · rw [List.nil_append] at hmore
      rw [readNames_map hmore] at h
      cases h
      exact ⟨rfl, hmore⟩
    · obtain ⟨before, name, after, e, rfl, hbefore, hname⟩ := hoffends
      rw [List.nil_append] at hbefore hname
      rw [hname.readNames_append hbefore] at h
      cases h
  · intro h
    obtain ⟨rfl, hkinds⟩ := h
    exact readNames_map hkinds

theorem readNames_eq_error_iff :
    readNames value [] names = .error e ↔
      ∃ before name after, names = before.map StageKind.name ++ name :: after ∧ before.Nodup ∧
        Offends value before name e := by
  constructor
  · intro h
    rcases distinct_or_offends value List.nodup_nil names with ⟨more, rfl, hmore⟩ | hoffends
    · rw [List.nil_append] at hmore
      rw [readNames_map hmore] at h
      cases h
    · obtain ⟨before, name, after, e', rfl, hbefore, hname⟩ := hoffends
      rw [List.nil_append] at hbefore hname
      rw [hname.readNames_append hbefore] at h
      cases h
      exact ⟨before, name, after, rfl, hbefore, hname⟩
  · intro h
    obtain ⟨before, name, after, rfl, hbefore, hname⟩ := h
    exact hname.readNames_append hbefore after

/-! ## The order -/

theorem orderOfSettings_of_get? (h : s.get? option = some value) :
    orderOfSettings s = (readNames value [] (namesIn value)).bind fun order =>
      if order.isEmpty then .error .noStage else .ok order := by
  rw [orderOfSettings, h, ← listedNames_eq_namesIn]
  rfl

/-- The order is that of the names, if there are any. -/
theorem orderOfSettings_eq_ok_iff (h : s.get? option = some value) :
    orderOfSettings s = .ok kinds ↔
      kinds ≠ [] ∧ namesIn value = kinds.map StageKind.name ∧ kinds.Nodup := by
  rw [orderOfSettings_of_get? h, ← readNames_eq_ok_iff]
  cases readNames value [] (namesIn value) with
  | error e => simp [Except.bind]
  | ok order =>
    cases order with
    | nil => simp [Except.bind, eq_comm]
    | cons kind more => simp +contextual [Except.bind, eq_comm]

theorem orderOfSettings_eq_error_iff (h : s.get? option = some value) :
    orderOfSettings s = .error e ↔
      (namesIn value = [] ∧ e = .noStage) ∨
        ∃ before name after, namesIn value = before.map StageKind.name ++ name :: after ∧
          before.Nodup ∧ Offends value before name e := by
  rw [orderOfSettings_of_get? h, ← readNames_eq_error_iff]
  cases hread : readNames value [] (namesIn value) with
  | error e' =>
    obtain ⟨before, name, after, hnames, -⟩ := readNames_eq_error_iff.mp hread
    simp [Except.bind, hnames]
  | ok order =>
    have hnames := (readNames_eq_ok_iff.mp hread).1
    cases order with
    | nil => simp [Except.bind, hnames, eq_comm]
    | cons kind more => simp [Except.bind, hnames]

/-- Stages that are asked for make the pipeline of their kinds. -/
theorem stageNames_ofKinds {α : Type} [Item α] (kinds : List StageKind) :
    (Pipeline.ofKinds kinds : Pipeline α).stageNames = kinds.map StageKind.name := by
  rw [Pipeline.stageNames, Pipeline.ofKinds, List.map_map]
  rfl

theorem message_repeatedStage (kind : StageKind) (json : Json.Diagnostics) :
    (SettingsError.repeatedStage kind).message json =
      "invalid configuration: stage " ++ kind.name ++ " listed more than once in \"stages\"" := by
  cases kind <;> rfl

/-- A value makes an order exactly if it lists a name, all names are those of kinds, and none is
listed twice. The stages then stand in the order of their names. Otherwise the first name decides
that is unknown or stands among those before it, and that there is a name if there is none. -/
theorem order_follows_names (hvalue : s.get? "stages" = some value) :
    ((∃ kinds, orderOfSettings s = .ok kinds) ↔
      namesIn value ≠ [] ∧ (∀ name ∈ namesIn value, name ∈ ["profile", "iterate", "shuffle"]) ∧
        (namesIn value).Nodup) ∧
    (∀ kinds, orderOfSettings s = .ok kinds →
      kinds.map StageKind.name = namesIn value ∧
      ∀ (α : Type) [Item α], ∃ p : Pipeline α, Pipeline.ofSettings s = .ok p ∧
        p.stageNames = namesIn value ∧ p.stageNames.Nodup) ∧
    ∀ e, orderOfSettings s = .error e ↔
      (namesIn value = [] ∧ e = .noStage ∧
        ∀ json, e.message json = "invalid configuration: \"stages\" is set but names no stage") ∨
      ∃ before name after, namesIn value = before ++ name :: after ∧
        (∀ other ∈ before, other ∈ ["profile", "iterate", "shuffle"]) ∧ before.Nodup ∧
        ((name ∉ ["profile", "iterate", "shuffle"] ∧ e = .malformed "stages" value .stages) ∨
          (name ∈ before ∧ (∃ kind, kind.name = name ∧ e = .repeatedStage kind) ∧
            ∀ json, e.message json = "invalid configuration: stage " ++ name ++
              " listed more than once in \"stages\"")) := by
  refine ⟨?_, fun kinds h => ?_, fun e => ?_⟩
  · simp only [orderOfSettings_eq_ok_iff hvalue, ← exists_map_name_iff]
    constructor
    · intro h
      obtain ⟨kinds, hne, hnames, hkinds⟩ := h
      rw [hnames]
      exact ⟨fun hnil => hne (List.map_eq_nil_iff.mp hnil), ⟨kinds, rfl⟩,
        hkinds.map name_injective⟩
    · intro h
      obtain ⟨hne, ⟨kinds, hnames⟩, hnodup⟩ := h
      rw [← hnames] at hne hnodup
      exact ⟨kinds, fun hnil => hne (List.map_eq_nil_iff.mpr hnil), hnames.symm,
        hnodup.of_map StageKind.name⟩
  · obtain ⟨-, hnames, hkinds⟩ := (orderOfSettings_eq_ok_iff hvalue).mp h
    refine ⟨hnames.symm, fun α _ => ⟨Pipeline.ofKinds kinds, ?_, ?_, ?_⟩⟩
    · rw [Pipeline.ofSettings, h]
      rfl
    · rw [stageNames_ofKinds, hnames]
    · rw [stageNames_ofKinds]
      exact hkinds.map name_injective
  · rw [orderOfSettings_eq_error_iff hvalue]
    constructor
    · intro h
      rcases h with ⟨hnil, rfl⟩ | ⟨before, name, after, hnames, hbefore, hname⟩
      · exact .inl ⟨hnil, rfl, fun _ => rfl⟩
      · refine .inr ⟨_, name, after, hnames, exists_map_name_iff.mp ⟨before, rfl⟩,
          hbefore.map name_injective, ?_⟩
        cases hname with
        | unknown hunknown => exact .inl ⟨ofName?_eq_none_iff.mp hunknown, rfl⟩
        | @repeated kind hmem =>
          exact .inr ⟨List.mem_map_of_mem hmem, ⟨kind, rfl, rfl⟩, message_repeatedStage kind⟩
    · intro h
      rcases h with ⟨hnil, rfl, -⟩ | ⟨before, name, after, hnames, hbefore, hnodup, hname⟩
      · exact .inl ⟨hnil, rfl⟩
      · obtain ⟨kinds, rfl⟩ := exists_map_name_iff.mpr hbefore
        refine .inr ⟨kinds, name, after, hnames, hnodup.of_map StageKind.name, ?_⟩
        rcases hname with ⟨hunknown, rfl⟩ | ⟨hmem, ⟨kind, rfl, rfl⟩, -⟩
        · exact .unknown (ofName?_eq_none_iff.mpr hunknown)
        · obtain ⟨other, hother, hsame⟩ := List.mem_map.mp hmem
          exact .repeated (name_injective hsame ▸ hother)

/-- Settings that ask for the stages in a value. -/
def listing (value : String) : Settings := .ofList [("stages", value)]

theorem order_follows_names_spelled :
    (listing " Shuffle ,,iterate").get? "stages" = some " Shuffle ,,iterate" ∧
    (∃ kinds, orderOfSettings (listing " Shuffle ,,iterate") = .ok kinds ∧
      kinds.map StageKind.name = ["shuffle", "iterate"]) ∧
    (listing "iterate, ITERATE,repeat").get? "stages" = some "iterate, ITERATE,repeat" ∧
    orderOfSettings (listing "iterate, ITERATE,repeat") = .error (.repeatedStage .iterate) := by
  have hget : ∀ value, (listing value).get? "stages" = some value := fun value => rfl
  have hgood : namesIn " Shuffle ,,iterate" = ["shuffle", "iterate"] := by cbv
  have hbad : namesIn "iterate, ITERATE,repeat" = ["iterate", "iterate", "repeat"] := by cbv
  obtain ⟨hexists, horder, -⟩ := order_follows_names (hget " Shuffle ,,iterate")
  obtain ⟨-, -, herror⟩ := order_follows_names (hget "iterate, ITERATE,repeat")
  rw [hgood] at hexists horder
  obtain ⟨kinds, hkinds⟩ := hexists.mpr ⟨by simp, by simp, by simp⟩
  refine ⟨hget _, ⟨kinds, hkinds, (horder kinds hkinds).1⟩, hget _, ?_⟩
  refine (herror _).mpr (.inr ⟨["iterate"], "iterate", ["repeat"], hbad, by simp, by simp, .inr ?_⟩)
  exact ⟨List.mem_singleton_self _, ⟨.iterate, rfl, rfl⟩, fun _ => rfl⟩

end StageKind

end SuitePlan
