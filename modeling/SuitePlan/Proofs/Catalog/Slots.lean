import SuitePlan.Attempt
import SuitePlan.Proofs.Catalog.Entries

/-!
# An entry within a catalog

A slot is a place for one entry in the JSON value of a catalog: among the entries of a profile,
which is among the profiles, in either form that parts may have. What is read of the rest does not
depend on the value in the slot: where the catalog can be read with some value there, it can be read
with every value that is read as an entry, and fails as the reading of any other value fails
(`Slot.exists_ofDraft_plug`).

So a source of a text that holds an object in the slot is loaded exactly if the object gives an
entry, and the entry is then found in its place (`load_object_in_slot`).
-/

namespace SuitePlan.Catalog

open Json (Value Draft)

/-! ## Fields of a part -/

/-- The place of a field in the object or the array that a part is written as. -/
inductive Frame (part : Part) (field : String) where
  | object (before after : List (String × Value))
  | array (before after : List Value) (h : part.fields[before.length]? = some field)

/-- The part with a value for the field. -/
def Frame.plug {part : Part} {field : String} : Frame part field → Value → Value
  | .object before after, v => .object (before ++ (field, v) :: after)
  | .array before after _, v => .array (before ++ v :: after)

variable {α β : Type} {part : Part} {field : String} {fields seen : List String} {a blank : α}
  {assign : String → Draft → α → Except Fault α} {read : Draft → Except Fault β} {set : β → α → α}

/-- A field of a part is assigned by setting what is read, which no other field reads or changes. -/
structure Assigns (part : Part) (assign : String → Draft → α → Except Fault α) (field : String)
    (read : Draft → Except Fault β) (set : β → α → α) : Prop where
  own : ∀ d a, assign field d a = (read d).map fun b => set b a
  other : ∀ key d a b, key ∈ part.fields → key ≠ field →
    assign key d (set b a) = (assign key d a).map (set b)
  again : ∀ b b' a, set b' (set b a) = set b' a

theorem readMembers_cons_eq_ok_iff {key : String} {d : Draft} {rest : List (String × Draft)} :
    readMembers part assign seen ((key, d) :: rest) blank = .ok a ↔
      key ∈ part.fields ∧ key ∉ seen ∧ ∃ b, assign key d blank = .ok b ∧
        readMembers part assign (key :: seen) rest b = .ok a := by
  rw [readMembers]
  by_cases hfield : key ∈ part.fields
  · by_cases hseen : key ∈ seen
    · simp [hfield, hseen]
    · cases hassign : assign key d blank with
      | error fault => simp [hfield, hseen]
      | ok b => simp [hfield, hseen]
  · simp [hfield]

theorem readMembers_append (xs ys : List (String × Draft)) :
    readMembers part assign seen (xs ++ ys) blank =
      readMembers part assign seen xs blank >>=
        readMembers part assign ((xs.map Prod.fst).reverse ++ seen) ys := by
  induction xs generalizing seen blank with
  | nil => rfl
  | cons m rest ih =>
    rw [List.cons_append, readMembers, readMembers, List.map_cons, List.reverse_cons,
      List.append_assoc, List.singleton_append]
    split
    · rfl
    · split
      · rfl
      · split
        · rfl
        · exact ih

/-- Once the field has been seen, what follows leaves its value alone. -/
theorem readMembers_set (h : Assigns part assign field read set) (hseen : field ∈ seen)
    (members : List (String × Draft)) (b : β) (a : α) :
    readMembers part assign seen members (set b a) =
      (readMembers part assign seen members a).map (set b) := by
  induction members generalizing seen a with
  | nil => rfl
  | cons m rest ih =>
    obtain ⟨key, d⟩ := m
    rw [readMembers, readMembers]
    by_cases hfield : key ∈ part.fields
    · by_cases hmem : key ∈ seen
      · simp [hfield, hmem, Except.map]
      · have hne : key ≠ field := fun heq => hmem (heq ▸ hseen)
        simp only [hfield, not_true, if_false, hmem, h.other key d a b hfield hne]
        cases assign key d a with
        | error fault => rfl
        | ok a' => exact ih (List.mem_cons_of_mem _ hseen) a'
    · simp [hfield, Except.map]

/-- Where members are read, another value for the field changes what is set for it and no more. -/
theorem readMembers_plug (h : Assigns part assign field read set)
    {before after : List (String × Draft)} {d : Draft}
    (hvalid : readMembers part assign [] (before ++ (field, d) :: after) blank = .ok a) :
    (∃ b, read d = .ok b) ∧
      ∀ d', readMembers part assign [] (before ++ (field, d') :: after) blank =
        (read d').map fun b => set b a := by
  rw [readMembers_append, Attempt.bind_eq_ok_iff] at hvalid
  obtain ⟨start, hbefore, hvalid⟩ := hvalid
  obtain ⟨hfield, hseen, next, hassign, hvalid⟩ := readMembers_cons_eq_ok_iff.mp hvalid
  rw [h.own, Attempt.map_eq_ok_iff] at hassign
  obtain ⟨b, hread, rfl⟩ := hassign
  rw [readMembers_set h List.mem_cons_self, Attempt.map_eq_ok_iff] at hvalid
  obtain ⟨last, hafter, rfl⟩ := hvalid
  refine ⟨⟨b, hread⟩, fun d' => ?_⟩
  rw [readMembers_append, hbefore]
  show readMembers part assign _ ((field, d') :: after) start = _
  rw [readMembers, if_neg (not_not_intro hfield), if_neg hseen, h.own]
  cases read d' with
  | error fault => rfl
  | ok b' =>
    show readMembers part assign _ after (set b' start) = .ok (set b' (set b last))
    rw [readMembers_set h List.mem_cons_self, hafter, h.again]
    rfl

theorem length_le_of_readItems {items : List Draft}
    (h : readItems assign fields items blank = .ok a) : items.length ≤ fields.length := by
  induction items generalizing fields blank with
  | nil => exact Nat.zero_le _
  | cons d rest ih =>
    cases fields with
    | nil => cases h
    | cons key fields =>
      rw [readItems] at h
      split at h
      · cases h
      · exact Nat.succ_le_succ (ih h)

/-- Items are read like members with the names of the fields. -/
theorem readItems_eq_readMembers {items : List Draft} (hlength : items.length ≤ fields.length)
    (hnodup : fields.Nodup) (hfields : ∀ key ∈ fields, key ∈ part.fields ∧ key ∉ seen) :
    readItems assign fields items blank =
      readMembers part assign seen (fields.zip items) blank := by
  induction items generalizing fields seen blank with
  | nil =>
    rw [readItems, List.zip_nil_right]
    rfl
  | cons d rest ih =>
    cases fields with
    | nil => cases hlength
    | cons key fields =>
      rw [List.nodup_cons] at hnodup
      rw [List.forall_mem_cons] at hfields
      rw [List.zip_cons_cons, readItems, readMembers, if_neg (not_not_intro hfields.1.1),
        if_neg hfields.1.2]
      cases assign key d blank with
      | error fault => rfl
      | ok b =>
        refine ih (Nat.le_of_succ_le_succ hlength) hnodup.2 fun other hmem => ?_
        refine ⟨(hfields.2 other hmem).1, fun hseen => ?_⟩
        rcases List.mem_cons.mp hseen with rfl | hseen
        · exact hnodup.1 hmem
        · exact (hfields.2 other hmem).2 hseen

theorem Part.nodup_fields (part : Part) : part.fields.Nodup := by
  cases part <;> decide

theorem readPart_object (members : List (String × Draft)) :
    readPart part assign blank (.object members true) =
      readMembers part assign [] members blank := by
  rw [readPart]
  cases readMembers part assign [] members blank <;> rfl

theorem readPart_array (items : List Draft) :
    readPart part assign blank (.array items true) = readItems assign part.fields items blank := by
  rw [readPart]
  cases readItems assign part.fields items blank <;> rfl

/-- The item whose index is that of the field goes with the field. -/
theorem zip_of_getElem? {before after : List Draft} (h : fields[before.length]? = some field)
    (d : Draft) :
    fields.zip (before ++ d :: after) =
      (fields.take before.length).zip before ++
        (field, d) :: (fields.drop (before.length + 1)).zip after := by
  obtain ⟨hlt, hfield⟩ := List.getElem?_eq_some_iff.mp h
  have hfields : fields =
      fields.take before.length ++ field :: fields.drop (before.length + 1) := by
    rw [← hfield, ← List.drop_eq_getElem_cons hlt, List.take_append_drop]
  have hlength : (fields.take before.length).length = before.length := by
    rw [List.length_take, Nat.min_eq_left (Nat.le_of_lt hlt)]
  rw [← List.zip_cons_cons, ← List.zip_append hlength, ← hfields]

namespace Frame

/-- What is read of a part with a value at the place, apart from whether the array has room. -/
theorem exists_readPart_plug (frame : Frame part field) {v : Value}
    (hvalid : readPart part assign blank (frame.plug v).draft = .ok a) :
    ∃ before after : List (String × Draft), ∀ w : Value,
      readPart part assign blank (frame.plug w).draft =
        readMembers part assign [] (before ++ (field, w.draft) :: after) blank := by
  cases frame with
  | object before after =>
    refine ⟨Value.memberDrafts before, Value.memberDrafts after, fun w => ?_⟩
    rw [plug, Value.draft, readPart_object, Value.memberDrafts_append, Value.memberDrafts]
  | array before after hplace =>
    have hroom (w : Value) :
        (Value.itemDrafts (before ++ w :: after)).length ≤ part.fields.length := by
      rw [plug, Value.draft, readPart_array] at hvalid
      have hlength := length_le_of_readItems hvalid
      rwa [Value.length_itemDrafts, List.length_append] at hlength ⊢
    rw [← Value.length_itemDrafts] at hplace
    refine ⟨(part.fields.take (Value.itemDrafts before).length).zip (Value.itemDrafts before),
      (part.fields.drop ((Value.itemDrafts before).length + 1)).zip (Value.itemDrafts after),
      fun w => ?_⟩
    rw [← zip_of_getElem? hplace, ← Value.itemDrafts, ← Value.itemDrafts_append, plug, Value.draft,
      readPart_array]
    exact readItems_eq_readMembers (hroom w) part.nodup_fields fun key hmem =>
      ⟨hmem, List.not_mem_nil⟩

/-- Where a part is read, another value at the place changes what is set for its field and no
more. -/
theorem readPart_plug (frame : Frame part field) (h : Assigns part assign field read set)
    {v : Value} (hvalid : readPart part assign blank (frame.plug v).draft = .ok a) :
    (∃ b, read v.draft = .ok b) ∧ ∀ w : Value, readPart part assign blank (frame.plug w).draft =
      (read w.draft).map fun b => set b a := by
  obtain ⟨before, after, hread⟩ := frame.exists_readPart_plug hvalid
  rw [hread] at hvalid
  obtain ⟨hb, hplug⟩ := readMembers_plug h hvalid
  exact ⟨hb, fun w => (hread w).trans (hplug w.draft)⟩

end Frame

theorem assigns_profiles :
    Assigns .catalog Catalog.assign "profiles" readProfiles fun profiles c =>
      { c with profiles := profiles } where
  own d c := by
    rw [Catalog.assign, if_neg (by decide), if_neg (by decide)]
    cases readProfiles d <;> rfl
  other key d c profiles hkey hne := by
    have hkeys : key = "entry" ∨ key = "count" := by
      simpa [Part.fields, hne] using hkey
    rcases hkeys with rfl | rfl
    · rw [Catalog.assign, Catalog.assign, if_pos rfl, if_pos rfl]
      cases readOptional readString d <;> rfl
    · have hcount (c : Catalog) : Catalog.assign "count" d c =
          (do return { c with count := ← readOptional readCount d }) := by
        rw [Catalog.assign, if_neg (by decide), if_pos rfl]
      rw [hcount, hcount]
      cases readOptional readCount d <;> rfl
  again _ _ _ := rfl

theorem assigns_scenarios :
    Assigns .profile (fun _ d (_ : List Entry) => readEntries d) "scenarios" readEntries
      fun entries _ => entries where
  own d _ := by cases readEntries d <;> rfl
  other key _ _ _ hkey hne := absurd (List.mem_singleton.mp hkey) hne
  again _ _ _ := rfl

/-! ## Entries and profiles -/

theorem readEach_eq_mapM (ds : List Draft) : readEach ds = ds.mapM readEntry := by
  induction ds with
  | nil => rfl
  | cons d rest ih =>
    rw [readEach, List.mapM_cons, ih]

/-- Reads a profile with its name. -/
def readNamedProfile (m : String × Draft) : Except Fault (String × List Entry) :=
  (readProfile m.2).map fun entries => (m.1, entries)

theorem readNamed_eq_mapM (members : List (String × Draft)) :
    readNamed members = members.mapM readNamedProfile := by
  induction members with
  | nil => rfl
  | cons m rest ih =>
    rw [readNamed, List.mapM_cons, ih, readNamedProfile]
    cases readProfile m.2 <;> rfl

variable {before after : List Value} {earlier later : List (String × Value)} {name : String}
  {v : Value}

/-- Where entries are read, another value in the place of one changes that entry and no more. -/
theorem readEntries_plug {es : List Entry}
    (hvalid : readEntries (Value.array (before ++ v :: after)).draft = .ok es) :
    (∃ e, readEntry v.draft = .ok e) ∧ ∃ xs ys : List Entry, xs.length = before.length ∧
      ∀ w : Value, readEntries (Value.array (before ++ w :: after)).draft =
        (readEntry w.draft).map fun e => xs ++ e :: ys := by
  have hread (w : Value) : readEntries (Value.array (before ++ w :: after)).draft =
      (Value.itemDrafts before ++ w.draft :: Value.itemDrafts after).mapM readEntry := by
    rw [Value.draft, readEntries, Value.itemDrafts_append, Value.itemDrafts, readEach_eq_mapM]
    cases List.mapM readEntry _ <;> rfl
  rw [hread] at hvalid
  obtain ⟨he, xs, ys, hxs, -, hplug⟩ := Attempt.mapM_exchange hvalid
  have hlength := congrArg List.length
    (Attempt.map_of_mapM (g := fun _ => ()) (k := fun _ => ()) (fun _ _ _ => rfl) hxs)
  rw [List.length_map, List.length_map, Value.length_itemDrafts] at hlength
  exact ⟨he, xs, ys, hlength, fun w => (hread w).trans (hplug w.draft)⟩

theorem map_fst_memberDrafts (members : List (String × Value)) :
    (Value.memberDrafts members).map Prod.fst = members.map Prod.fst := by
  induction members with
  | nil => rfl
  | cons m rest ih => rw [Value.memberDrafts, List.map_cons, ih, List.map_cons]

theorem fst_eq_of_readNamedProfile {m : String × Draft} {named : String × List Entry}
    (h : readNamedProfile m = .ok named) : named.1 = m.1 := by
  obtain ⟨entries, -, rfl⟩ := Attempt.map_eq_ok_iff.mp h
  rfl

/-- Where profiles are read, another value in the place of one changes that profile and no more. -/
theorem readProfiles_plug {profiles : Table (List Entry)}
    (hvalid : readProfiles (Value.object (earlier ++ (name, v) :: later)).draft = .ok profiles) :
    (∃ es, readProfile v.draft = .ok es) ∧ ∃ ps qs : List (String × List Entry),
      qs.map Prod.fst = later.map Prod.fst ∧
      ∀ w : Value, readProfiles (Value.object (earlier ++ (name, w) :: later)).draft =
        (readProfile w.draft).map fun es => .ofList (ps ++ (name, es) :: qs) := by
  have hread (w : Value) : readProfiles (Value.object (earlier ++ (name, w) :: later)).draft =
      ((Value.memberDrafts earlier ++ (name, w.draft) :: Value.memberDrafts later).mapM
        readNamedProfile).map .ofList := by
    rw [Value.draft, readProfiles, Value.memberDrafts_append, Value.memberDrafts,
      readNamed_eq_mapM]
    cases List.mapM readNamedProfile _ <;> rfl
  rw [hread, Attempt.map_eq_ok_iff] at hvalid
  obtain ⟨named, hnamed, -⟩ := hvalid
  obtain ⟨⟨p, hp⟩, ps, qs, -, hqs, hplug⟩ := Attempt.mapM_exchange hnamed
  obtain ⟨es, hes, -⟩ := Attempt.map_eq_ok_iff.mp hp
  have hnames := Attempt.map_of_mapM (fun _ _ h => fst_eq_of_readNamedProfile h) hqs
  rw [map_fst_memberDrafts] at hnames
  refine ⟨⟨es, hes⟩, ps, qs, hnames, fun w => ?_⟩
  rw [hread, hplug, readNamedProfile]
  cases readProfile w.draft <;> rfl

/-! ## Slots -/

/-- A place for an entry in the value of a catalog. -/
structure Slot where
  /-- Where the profiles stand in the catalog. -/
  profiles : Frame .catalog "profiles"
  /-- The profiles before the one with the entry. -/
  earlier : List (String × Value)
  /-- The profile with the entry. -/
  profile : String
  /-- The profiles after it. -/
  later : List (String × Value)
  /-- Where the entries stand in the profile. -/
  scenarios : Frame .profile "scenarios"
  /-- The entries before the place. -/
  before : List Value
  /-- The entries after it. -/
  after : List Value

namespace Slot

/-- The catalog with a value in the slot. -/
def plug (slot : Slot) (v : Value) : Value :=
  slot.profiles.plug (.object (slot.earlier ++
    (slot.profile, slot.scenarios.plug (.array (slot.before ++ v :: slot.after))) :: slot.later))

/-- The entry is at the place of the slot, unless a later profile has the name of the one with the
slot. -/
def Holds (slot : Slot) (c : Catalog) (e : Entry) : Prop :=
  slot.profile ∉ slot.later.map Prod.fst → ∃ entries, c.profiles.get? slot.profile = some entries ∧
    entries[slot.before.length]? = some e

/-- Where a catalog can be read with some value in the slot, any value is read as a catalog that
holds what is read of the value. -/
theorem exists_ofDraft_plug (slot : Slot) {c : Catalog}
    (hvalid : ofDraft (slot.plug v).draft = .ok c) :
    ∃ put : Entry → Catalog, (∀ e, slot.Holds (put e) e) ∧
      ∀ w : Value, ofDraft (slot.plug w).draft = (readEntry w.draft).map put := by
  obtain ⟨⟨profiles, hprofiles⟩, hcatalog⟩ := slot.profiles.readPart_plug assigns_profiles hvalid
  obtain ⟨⟨es, hes⟩, ps, qs, hnames, hprofile⟩ := readProfiles_plug hprofiles
  obtain ⟨⟨es', hes'⟩, hlisting⟩ := slot.scenarios.readPart_plug assigns_scenarios hes
  obtain ⟨-, xs, ys, hlength, hentries⟩ := readEntries_plug hes'
  refine ⟨fun e => { c with profiles := .ofList (ps ++ (slot.profile, xs ++ e :: ys) :: qs) },
    fun e hlast => ⟨xs ++ e :: ys, ?_, ?_⟩, fun w => ?_⟩
  · exact Table.get?_ofList_eq_some_iff.mpr ⟨ps, qs, rfl, by rwa [hnames]⟩
  · rw [← hlength, List.getElem?_append_right (Nat.le_refl _), Nat.sub_self]
    rfl
  · rw [ofDraft, plug, hcatalog, hprofile, readProfile, hlisting, hentries]
    cases readEntry w.draft <;> rfl

end Slot

/-! ## Loading -/

theorem readEntry_draft (v : Value) :
    readEntry v.draft = match Entry.ofValue? v with
      | some e => .ok e
      | none => .error .unmatchedEntry := by
  rw [readEntry, Draft.value?_draft]
  simp only
  cases Entry.ofValue? v <;> rfl

/-- A text that is JSON is read as its value is. -/
theorem ofText_of_parse? {text : String} (h : Value.parse? text.toList = some v) :
    ofText text = ofDraft v.draft := by
  unfold Value.parse? at h
  split at h
  · rename_i d rest hread
    split at h
    · rename_i hend
      rw [ofText, hread, Draft.eq_draft_of_value? h]
      simp only [hend, if_true]
      cases ofDraft v.draft <;> rfl
    · cases h
  · cases h

theorem load_of_parse? {files : Files} {source : Source} {text : String}
    (htext : source.text files = .ok text) (h : Value.parse? text.toList = some v) :
    source.load files = (ofDraft v.draft).mapError (.unparsable source.origin text) := by
  rw [Source.load, htext, ← ofText_of_parse? h]
  rfl

/-- Let a catalog be valid with some value in a slot. A source of a text that has an object in the
slot is loaded if the object gives an entry, as a catalog that holds this entry, and cannot be
parsed if the object gives none. An object gives at most one entry, be it a scenario or an
inclusion, whatever the order of its members; it gives a scenario exactly if it fits the schema of
scenarios. -/
theorem load_object_in_slot (slot : Slot)
    (hvalid : ∃ v c, ofDraft (slot.plug v).draft = .ok c) :
    (∃ put : Entry → Catalog, (∀ e, slot.Holds (put e) e) ∧
      ∀ (files : Files) (source : Source) (text : String) (members : List (String × Value)),
        source.text files = .ok text →
        Value.parse? text.toList = some (slot.plug (.object members)) →
        (∀ e : Entry, e.IsGivenBy members → source.load files = .ok (put e)) ∧
        ((∀ e : Entry, ¬e.IsGivenBy members) →
          source.load files = .error (.unparsable source.origin text .unmatchedEntry))) ∧
    (∀ members, (∃ s : Scenario, (Entry.scenario s).IsGivenBy members) ↔
      Scenario.FitsSchema members) ∧
    (∀ members profile, (Entry.inclusion profile).IsGivenBy members ↔
      members = [("include", .ofString profile)]) ∧
    (∀ members (e e' : Entry), e.IsGivenBy members → e'.IsGivenBy members → e = e') ∧
    ∀ members members' (e : Entry), members.Perm members' → e.IsGivenBy members →
      e.IsGivenBy members' := by
  obtain ⟨v, c, hvalid⟩ := hvalid
  obtain ⟨put, hholds, hplug⟩ := slot.exists_ofDraft_plug hvalid
  refine ⟨⟨put, hholds, ?_⟩, fun members => Scenario.exists_isGivenBy_iff, fun _ _ => Iff.rfl,
    fun members e e' h h' => h.unique h', fun members members' e hperm h => h.perm hperm⟩
  intro files source text members htext hparse
  rw [load_of_parse? htext hparse, hplug, readEntry_draft]
  refine ⟨fun e he => ?_, fun hnone => ?_⟩
  · rw [Entry.ofValue?_eq_some_iff.mpr he]
    rfl
  · have hvalue : Entry.ofValue? (.object members) = none :=
      Option.eq_none_iff_forall_ne_some.mpr fun e he => hnone e (Entry.ofValue?_eq_some_iff.mp he)
    rw [hvalue]
    rfl

/-- The place behind an inclusion in the first of two profiles. -/
def behindInclusion : Slot where
  profiles := .object [("entry", .ofString "p")] []
  earlier := []
  profile := "p"
  later := [("q", .object [("scenarios", .array [])])]
  scenarios := .object [] []
  before := [.object [("include", .ofString "q")]]
  after := []

/-- A scenario with its fields in an order of its own, and with a name given twice in its extras. -/
def shuffledMembers : List (String × Value) :=
  [("weight", .ofNat 2), ("scenario", .ofString "a"),
    ("extras", .object [("k", .ofString "1"), ("k", .ofString "2")])]

/-- The catalog with `shuffledMembers` in the place `behindInclusion`. -/
def shuffledCatalog : Value :=
  behindInclusion.plug (.object shuffledMembers)

theorem isReadable_shuffledCatalog : shuffledCatalog.IsReadable Draft.depthLimit := by
  have hweight : ∀ depth, (Value.ofNat 2).IsReadable depth :=
    fun _ => Value.isReadable_ofNat (by decide)
  simp [shuffledCatalog, behindInclusion, shuffledMembers, Slot.plug, Frame.plug, Draft.depthLimit,
    Value.isReadable_ofString, hweight]

theorem load_object_in_slot_shuffledCatalog :
    shuffledCatalog.compactText =
      "\x7b\"entry\":\"p\",\"profiles\":\x7b\"p\":\x7b\"scenarios\":[\x7b\"include\":\"q\"\x7d," ++
      "\x7b\"weight\":2,\"scenario\":\"a\",\"extras\":\x7b\"k\":\"1\",\"k\":\"2\"\x7d\x7d]\x7d," ++
      "\"q\":\x7b\"scenarios\":[]\x7d\x7d\x7d" ∧
    ∃ c entries, (∀ files, (Source.inline shuffledCatalog.compactText).load files = .ok c) ∧
      c.profiles.get? "p" = some entries ∧
      entries[1]? = some (.scenario ⟨"a", .middle, some 2, .ofList [("k", "2")]⟩) := by
  obtain ⟨⟨put, hholds, hload⟩, -⟩ := load_object_in_slot behindInclusion
    ⟨.object [("include", .ofString "q")], _, by rfl⟩
  have hparse : Value.parse? shuffledCatalog.compactText.toList = some shuffledCatalog := by
    rw [Value.compactText, String.toList_ofList]
    exact Value.parse?_of_reads (Value.reads_compact isReadable_shuffledCatalog)
  have hgiven : (Entry.scenario ⟨"a", .middle, some 2, .ofList [("k", "2")]⟩).IsGivenBy
      shuffledMembers := Entry.ofValue?_eq_some_iff.mp (by rfl)
  obtain ⟨entries, hentries, hentry⟩ := hholds _ (by decide)
  refine ⟨by decide +kernel, _, entries, fun files => ?_, hentries, hentry⟩
  exact (hload files _ _ shuffledMembers rfl hparse).1 _ hgiven

end SuitePlan.Catalog
