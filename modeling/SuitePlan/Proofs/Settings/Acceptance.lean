import SuitePlan.Attempt
import SuitePlan.Proofs.Settings.RoundTrip
import SuitePlan.Proofs.Text.ByteOrder

/-!
# JSON texts that give settings

A JSON text gives settings if it is an object whose members give each name a string, a number or a
boolean last, whatever they give it before. Then the options are the names, and their values the
texts of what is given last. Any other JSON text is refused; where it is an object, the error names
the least of the names that are given something else last (`Settings.ofBytes_accepts`).
-/

namespace SuitePlan

open Json (Value)

variable {v u : Value} {text : String} {bytes : ByteArray}

/-- The bytes are those of a JSON text that is read as the value. -/
def HoldJson (bytes : ByteArray) (v : Value) : Prop :=
  ∃ text, String.fromUTF8? bytes = some text ∧ Value.parse? text.toList = some v

theorem holdJson_written (hv : v.IsReadable Json.Draft.depthLimit)
    (h : text = v.compactText ∨ text = v.indentedText) : HoldJson text.toUTF8 v := by
  refine ⟨text, fromUTF8?_toUTF8 text, ?_⟩
  rcases h with rfl | rfl
  · rw [Value.compactText, String.toList_ofList]
    exact Value.parse?_of_reads (Value.reads_compact hv)
  · rw [Value.indentedText, String.toList_ofList]
    exact Value.parse?_of_reads (Value.reads_indented hv 0)

namespace SettingsError

/-- The message says that what was given is no configuration. -/
def IsInvalid (e : SettingsError) : Prop :=
  ∀ json, ∃ detail, e.message json = "invalid configuration: " ++ detail

theorem message_notScalar (key : String) (v : Value) (json : Json.Diagnostics) :
    (notScalar key v).message json = "invalid configuration: option " ++ Text.quoted key ++
      " must be a string, number, or boolean (got " ++ v.compactText ++ ")" := by
  have hwords : " must be a string, number, or boolean (got " =
      " must be a string, number, or boolean " ++ "(got " := by decide
  rw [hwords]
  unfold message
  simp only [String.append_assoc, toString]

theorem isInvalid_notScalar (key : String) (v : Value) : (notScalar key v).IsInvalid := by
  have hwords : "invalid configuration: option " = "invalid configuration: " ++ "option " := by
    decide
  intro json
  rw [message_notScalar, hwords]
  simp only [String.append_assoc]
  exact ⟨_, rfl⟩

end SettingsError

namespace Settings

variable {members entries : List (String × Value)} {pairs : List (String × String)}
  {s : Settings} {e : SettingsError} {key : String}

/-- What a JSON value gives as the value of an option: a string itself, a number its JSON text, and
a boolean its word. Nothing is given by null, arrays and objects. -/
inductive Gives : Value → String → Prop
  | string (text : String) : Gives (.ofString text) text
  | number (n : Json.Number) : Gives (.scalar (.number n)) (Value.scalar (.number n)).compactText
  | true : Gives (.scalar (.bool true)) "true"
  | false : Gives (.scalar (.bool false)) "false"

theorem valueOf?_eq_some_iff : valueOf? v = some text ↔ Gives v text := by
  constructor
  · intro h
    unfold valueOf? at h
    split at h
    · cases h
      exact .string text
    · cases h
      exact .number _
    · rename_i flag
      cases flag <;> cases h
      · exact .false
      · exact .true
    · cases h
  · intro h
    cases h <;> rfl

theorem valueOf?_eq_none_iff : valueOf? v = none ↔ ∀ text, ¬Gives v text := by
  simp only [Option.eq_none_iff_forall_ne_some, ne_eq, valueOf?_eq_some_iff]

/-! ## Members -/

/-- Members that give values are read under their names, each as what it gives. -/
theorem readMembers_eq_ok (h : readMembers entries = .ok pairs) :
    pairs.map Prod.fst = entries.map Prod.fst ∧
      ∀ key, Table.lookup key pairs = (Table.lookup key entries).bind valueOf? := by
  induction entries generalizing pairs with
  | nil =>
    cases h
    exact ⟨rfl, fun key => rfl⟩
  | cons m rest ih =>
    obtain ⟨name, v⟩ := m
    rw [readMembers] at h
    cases hv : valueOf? v with
    | none =>
      rw [hv] at h
      cases h
    | some value =>
      rw [hv] at h
      obtain ⟨more, hmore, h⟩ := Attempt.bind_eq_ok_iff.mp h
      cases h
      obtain ⟨hnames, hlookup⟩ := ih hmore
      refine ⟨congrArg (name :: ·) hnames, fun key => ?_⟩
      by_cases hname : name = key
      · simp [Table.lookup, hname, hv]
      · simp [Table.lookup, hname, hlookup]

/-- Members are refused for the first one that gives no value. -/
theorem readMembers_eq_error_iff :
    readMembers entries = .error e ↔
      ∃ before m after, entries = before ++ m :: after ∧
        (∀ m ∈ before, ¬valueOf? m.2 = none) ∧ valueOf? m.2 = none ∧
          e = .notScalar m.1 m.2.sorted := by
  induction entries with
  | nil => simp [readMembers]
  | cons m rest ih =>
    obtain ⟨name, v⟩ := m
    rw [readMembers]
    cases hv : valueOf? v with
    | none =>
      constructor
      · intro h
        cases h
        exact ⟨[], (name, v), rest, rfl, by simp, hv, rfl⟩
      · intro h
        obtain ⟨before, m, after, hsplit, hbefore, -, rfl⟩ := h
        cases before with
        | nil =>
          cases hsplit
          rfl
        | cons m' before =>
          cases hsplit
          exact absurd hv (hbefore (name, v) List.mem_cons_self)
    | some value =>
      have hstep : (do return (name, value) :: (← readMembers rest) :
          Except SettingsError (List (String × String))) = .error e ↔
            readMembers rest = .error e := by
        cases readMembers rest <;> simp [bind, Except.bind, pure, Except.pure]
      rw [hstep, ih]
      constructor
      · intro h
        obtain ⟨before, m, after, rfl, hbefore, hm⟩ := h
        refine ⟨(name, v) :: before, m, after, rfl, ?_, hm⟩
        exact List.forall_mem_cons.mpr ⟨by simp [hv], hbefore⟩
      · intro h
        obtain ⟨before, m, after, hsplit, hbefore, hm, rfl⟩ := h
        cases before with
        | nil =>
          cases hsplit
          rw [hv] at hm
          cases hm
        | cons m' before =>
          cases hsplit
          exact ⟨before, m, after, rfl, (List.forall_mem_cons.mp hbefore).2, hm, rfl⟩

/-! ## Objects -/

theorem ofValue_object_eq_ok_iff :
    ofValue (.object members) = .ok s ↔
      ∃ pairs, readMembers (Table.ofList members).entries = .ok pairs ∧ ofList pairs = s := by
  rw [ofValue, Attempt.bind_eq_ok_iff]
  simp only [pure, Except.pure, Except.ok.injEq]

theorem ofValue_object_eq_error_iff :
    ofValue (.object members) = .error e ↔
      readMembers (Table.ofList members).entries = .error e := by
  rw [ofValue]
  cases readMembers (Table.ofList members).entries <;> simp [bind, Except.bind, pure, Except.pure]

/-- The options are the names of the members, and the value of each is what its last member
gives. -/
theorem keys_get?_of_ofValue (h : ofValue (.object members) = .ok s) :
    s.options.keys = (Table.ofList members).keys ∧
      ∀ key, s.get? key = ((Table.ofList members).get? key).bind valueOf? := by
  obtain ⟨pairs, hpairs, rfl⟩ := ofValue_object_eq_ok_iff.mp h
  obtain ⟨hnames, hlookup⟩ := readMembers_eq_ok hpairs
  have hascending : pairs.Pairwise fun a b => a.1 < b.1 := by
    rw [← List.pairwise_map (f := Prod.fst) (R := (· < ·)), hnames, List.pairwise_map]
    exact (Table.ofList members).ascending
  have hoptions : (ofList pairs).options = ⟨pairs, hascending⟩ := Table.ofList_entries ⟨pairs, _⟩
  refine ⟨?_, fun key => ?_⟩
  · rw [hoptions]
    exact hnames
  · rw [get?, hoptions]
    exact hlookup key

theorem contains_iff_of_ofValue (h : ofValue (.object members) = .ok s) :
    s.contains key = true ↔ key ∈ members.map Prod.fst := by
  rw [contains, Table.contains, Option.isSome_iff_exists, ← Table.mem_keys_iff,
    (keys_get?_of_ofValue h).1, Table.mem_keys_iff]
  simp only [Table.get?_ofList_eq_some_iff, Table.exists_givesLast_iff]

theorem get?_eq_some_iff_of_ofValue (h : ofValue (.object members) = .ok s) :
    s.get? key = some text ↔ ∃ u, Table.GivesLast members key u ∧ Gives u text := by
  simp only [(keys_get?_of_ofValue h).2, Option.bind_eq_some_iff, Table.get?_ofList_eq_some_iff,
    valueOf?_eq_some_iff]

/-- An object is refused for the least of the names that are given no value last. -/
theorem ofValue_object_eq_error_iff_least :
    ofValue (.object members) = .error e ↔
      ∃ key u, Table.GivesLast members key u ∧ (∀ text, ¬Gives u text) ∧
        (∀ key' u', Table.GivesLast members key' u' → (∀ text, ¬Gives u' text) → key ≤ key') ∧
        e = .notScalar key u.sorted := by
  have hleast : ∀ m : String × Value,
      (∃ before after, (Table.ofList members).entries = before ++ m :: after ∧
        (∀ m ∈ before, ¬valueOf? m.2 = none) ∧ valueOf? m.2 = none) ↔
      Table.GivesLast members m.1 m.2 ∧ (∀ text, ¬Gives m.2 text) ∧
        ∀ key' u', Table.GivesLast members key' u' → (∀ text, ¬Gives u' text) → m.1 ≤ key' := by
    intro m
    obtain ⟨key, u⟩ := m
    rw [Table.first_iff_least (P := fun m => valueOf? m.2 = none)]
    simp only [Prod.forall, Table.mem_entries_iff, Table.get?_ofList_eq_some_iff,
      valueOf?_eq_none_iff]
  rw [ofValue_object_eq_error_iff, readMembers_eq_error_iff]
  constructor
  · intro h
    obtain ⟨before, m, after, hsplit, hbefore, hm, rfl⟩ := h
    obtain ⟨hlast, hgives, hle⟩ := (hleast m).mp ⟨before, after, hsplit, hbefore, hm⟩
    exact ⟨m.1, m.2, hlast, hgives, hle, rfl⟩
  · intro h
    obtain ⟨key, u, hlast, hgives, hle, rfl⟩ := h
    obtain ⟨before, after, hsplit, hbefore, hm⟩ := (hleast (key, u)).mpr ⟨hlast, hgives, hle⟩
    exact ⟨before, (key, u), after, hsplit, hbefore, hm, rfl⟩

theorem exists_ofValue_object_iff :
    (∃ s, ofValue (.object members) = .ok s) ↔
      ∀ key u, Table.GivesLast members key u → ∃ text, Gives u text := by
  constructor
  · intro h key u hlast
    obtain ⟨s, hs⟩ := h
    have hcontains : s.contains key = true :=
      (contains_iff_of_ofValue hs).mpr (Table.exists_givesLast_iff.mp ⟨u, hlast⟩)
    obtain ⟨text, htext⟩ := Option.isSome_iff_exists.mp hcontains
    obtain ⟨u', hlast', hgives⟩ := (get?_eq_some_iff_of_ofValue hs).mp htext
    rw [← Table.get?_ofList_eq_some_iff] at hlast hlast'
    rw [hlast, Option.some.injEq] at hlast'
    exact ⟨text, hlast' ▸ hgives⟩
  · intro h
    cases hs : ofValue (.object members) with
    | ok s => exact ⟨s, rfl⟩
    | error e =>
      obtain ⟨key, u, hlast, hgives, -, -⟩ := ofValue_object_eq_error_iff_least.mp hs
      obtain ⟨text, htext⟩ := h key u hlast
      exact absurd htext (hgives text)

/-- A member that gives a value sets its option, where no later one has the name. -/
theorem ofValue_append_cons {before after : List (String × Value)}
    (h : ofValue (.object (before ++ after)) = .ok s) (hkey : key ∉ after.map Prod.fst)
    (hu : Gives u text) :
    ofValue (.object (before ++ (key, u) :: after)) = .ok (s.set key text) := by
  have htable := Table.ofList_append_cons before u hkey
  have hgives : ∀ key' u', Table.GivesLast (before ++ (key, u) :: after) key' u' →
      ∃ text, Gives u' text := by
    intro key' u' hlast
    rw [← Table.get?_ofList_eq_some_iff, htable, Table.get?_insert] at hlast
    by_cases hkey' : key = key'
    · rw [if_pos hkey', Option.some.injEq] at hlast
      exact ⟨text, hlast ▸ hu⟩
    · rw [if_neg hkey', Table.get?_ofList_eq_some_iff] at hlast
      exact exists_ofValue_object_iff.mp ⟨s, h⟩ key' u' hlast
  obtain ⟨t, ht⟩ := exists_ofValue_object_iff.mpr hgives
  have hsame : t = s.set key text := by
    apply ext_get?
    intro key'
    rw [(keys_get?_of_ofValue ht).2, htable, Table.get?_insert, get?_set]
    by_cases hkey' : key = key'
    · rw [if_pos hkey', if_pos hkey', Option.bind_some, valueOf?_eq_some_iff.mpr hu]
    · rw [if_neg hkey', if_neg hkey', (keys_get?_of_ofValue h).2]
  rw [ht, hsame]

theorem ofValue_of_notObject (h : ∀ members, v ≠ .object members) :
    ofValue v = .error .notObject := by
  cases v with
  | object members => exact absurd rfl (h members)
  | scalar _ => rfl
  | array _ => rfl

theorem isInvalid_of_ofValue (h : ofValue v = .error e) : e.IsInvalid := by
  by_cases hv : ∃ members, v = .object members
  · obtain ⟨members, rfl⟩ := hv
    obtain ⟨key, u, -, -, -, rfl⟩ := ofValue_object_eq_error_iff_least.mp h
    exact SettingsError.isInvalid_notScalar key u.sorted
  · rw [ofValue_of_notObject fun members hmembers => hv ⟨members, hmembers⟩] at h
    cases h
    exact fun _ => ⟨"configuration JSON must be an object", rfl⟩

/-! ## Texts -/

theorem ofBytes_of_holdJson (h : HoldJson bytes v) : ofBytes bytes = ofValue v := by
  obtain ⟨text, htext, hv⟩ := h
  rw [ofBytes, htext]
  show ofText text = _
  rw [ofText, hv]

/-- A JSON text gives settings exactly if it is an object that gives each of its names a string, a
number or a boolean last. The options are these names, and their values what is given last. Any
other text is refused; where it is an object, the error names the first name in the order of the
bytes that is given something else last, and shows what that is. -/
theorem ofBytes_accepts (h : HoldJson bytes v) :
    ((∃ s, ofBytes bytes = .ok s) ↔
      ∃ members, v = .object members ∧
        ∀ key u, Table.GivesLast members key u → ∃ text, Gives u text) ∧
    (∀ s members, ofBytes bytes = .ok s → v = .object members →
      (∀ key, s.contains key = true ↔ key ∈ members.map Prod.fst) ∧
      ∀ key text, s.get? key = some text ↔ ∃ u, Table.GivesLast members key u ∧ Gives u text) ∧
    ((∀ members, v ≠ .object members) → ofBytes bytes = .error .notObject) ∧
    (∀ members e, v = .object members → (ofBytes bytes = .error e ↔
      ∃ key u, Table.GivesLast members key u ∧ (∀ text, ¬Gives u text) ∧
        (∀ key' u', Table.GivesLast members key' u' → (∀ text, ¬Gives u' text) →
          Text.utf8 key ≤ Text.utf8 key') ∧
        e = .notScalar key u.sorted ∧
        ∀ json, e.message json = "invalid configuration: option " ++ Text.quoted key ++
          " must be a string, number, or boolean (got " ++ u.sorted.compactText ++ ")")) ∧
    ∀ e, ofBytes bytes = .error e → e.IsInvalid := by
  rw [ofBytes_of_holdJson h]
  refine ⟨?_, ?_, ofValue_of_notObject, ?_, fun e => isInvalid_of_ofValue⟩
  · constructor
    · intro hok
      obtain ⟨s, hs⟩ := hok
      by_cases hv : ∃ members, v = .object members
      · obtain ⟨members, rfl⟩ := hv
        exact ⟨members, rfl, exists_ofValue_object_iff.mp ⟨s, hs⟩⟩
      · rw [ofValue_of_notObject fun members hmembers => hv ⟨members, hmembers⟩] at hs
        cases hs
    · intro hgives
      obtain ⟨members, rfl, hmembers⟩ := hgives
      exact exists_ofValue_object_iff.mpr hmembers
  · intro s members hs hv
    subst hv
    exact ⟨fun key => contains_iff_of_ofValue hs, fun key text => get?_eq_some_iff_of_ofValue hs⟩
  · intro members e hv
    subst hv
    rw [ofValue_object_eq_error_iff_least]
    simp only [Text.utf8_le_iff]
    constructor
    · intro herror
      obtain ⟨key, u, hlast, hgives, hleast, rfl⟩ := herror
      exact ⟨key, u, hlast, hgives, hleast, rfl, SettingsError.message_notScalar key u.sorted⟩
    · intro herror
      obtain ⟨key, u, hlast, hgives, hleast, he, -⟩ := herror
      exact ⟨key, u, hlast, hgives, hleast, he⟩

/-- An object that takes an array back by a number. -/
def takenBack : List (String × Value) :=
  [("b", .array []), ("a", .scalar (.bool true)), ("b", .scalar (.number (.integer (-7))))]

/-- An object with two values that no option takes. The first of the two names is the greater one
by its bytes, and the second value gives one name twice. -/
def nested : List (String × Value) :=
  [("😀", .scalar .null),
    ("～", .object [("y", .scalar .null), ("x", .array []), ("y", .ofString "z")])]

theorem isReadable_takenBack : (Value.object takenBack).IsReadable Json.Draft.depthLimit := by
  refine .object fun m hm => ?_
  simp only [takenBack, List.mem_cons, List.not_mem_nil, or_false] at hm
  rcases hm with rfl | rfl | rfl
  · exact .array (by simp)
  · exact .scalar trivial
  · exact .scalar ⟨by decide, by decide⟩

theorem isReadable_nested : (Value.object nested).IsReadable Json.Draft.depthLimit := by
  refine .object fun m hm => ?_
  simp only [nested, List.mem_cons, List.not_mem_nil, or_false] at hm
  rcases hm with rfl | rfl
  · exact .scalar trivial
  · refine .object fun m hm => ?_
    simp only [List.mem_cons, List.not_mem_nil, or_false] at hm
    rcases hm with rfl | rfl | rfl
    · exact .scalar trivial
    · exact .array (by simp)
    · exact .scalar trivial

theorem ofBytes_accepts_takenBack_nested :
    (Value.object takenBack).compactText = "\x7b\"b\":[],\"a\":true,\"b\":-7\x7d" ∧
    HoldJson (Value.object takenBack).compactText.toUTF8 (.object takenBack) ∧
    (∃ s, ofBytes (Value.object takenBack).compactText.toUTF8 = .ok s ∧
      s.get? "a" = some "true" ∧ s.get? "b" = some "-7") ∧
    HoldJson (Value.object nested).compactText.toUTF8 (.object nested) ∧
    ofBytes (Value.object nested).compactText.toUTF8 =
      .error (.notScalar "～" (.object [("x", .array []), ("y", .ofString "z")])) := by
  have htaken := holdJson_written isReadable_takenBack (.inl rfl)
  have hnested := holdJson_written isReadable_nested (.inl rfl)
  obtain ⟨haccepts, hvalues, -⟩ := ofBytes_accepts htaken
  obtain ⟨-, -, -, hrefused, -⟩ := ofBytes_accepts hnested
  refine ⟨by decide +kernel, htaken, ?_, hnested, ?_⟩
  · have hlast : ∀ key u, Table.GivesLast takenBack key u → ∃ text, Gives u text := by
      intro key u hlast
      rw [← Table.lookup_reverse_eq_some_iff] at hlast
      simp only [takenBack, List.reverse_cons, List.reverse_nil, List.nil_append,
        List.cons_append, Table.lookup] at hlast
      split at hlast
      · cases hlast
        exact ⟨_, .number _⟩
      · split at hlast
        · cases hlast
          exact ⟨_, .true⟩
        · simp_all
    obtain ⟨s, hs⟩ := haccepts.mpr ⟨takenBack, rfl, hlast⟩
    have hget := (hvalues s takenBack hs rfl).2
    have ha : Table.GivesLast takenBack "a" (.scalar (.bool true)) :=
      ⟨[("b", .array [])], [("b", .scalar (.number (.integer (-7))))], rfl, by decide⟩
    have hb : Table.GivesLast takenBack "b" (.scalar (.number (.integer (-7)))) :=
      ⟨[("b", .array []), ("a", .scalar (.bool true))], [], rfl, by decide⟩
    exact ⟨s, hs, (hget _ _).mpr ⟨_, ha, .true⟩, (hget _ _).mpr ⟨_, hb, .number (.integer (-7))⟩⟩
  · have hfirst : Table.GivesLast nested "～"
        (.object [("y", .scalar .null), ("x", .array []), ("y", .ofString "z")]) :=
      ⟨[("😀", .scalar .null)], [], rfl, by decide⟩
    have hleast : ∀ key u, Table.GivesLast nested key u → Text.utf8 "～" ≤ Text.utf8 key := by
      intro key u hlast
      have hmem : key ∈ nested.map Prod.fst := Table.exists_givesLast_iff.mp ⟨u, hlast⟩
      simp only [nested, List.map_cons, List.map_nil, List.mem_cons, List.not_mem_nil,
        or_false] at hmem
      rcases hmem with rfl | rfl
      · decide
      · exact List.le_refl _
    refine (hrefused nested _ rfl).mpr ⟨_, _, hfirst, ?_, fun key u hlast _ => hleast key u hlast,
      rfl, SettingsError.message_notScalar _ _⟩
    intro text htext
    cases htext

end Settings

end SuitePlan
