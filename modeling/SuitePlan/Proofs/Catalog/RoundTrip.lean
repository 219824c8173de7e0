import SuitePlan.Catalog.Printer
import SuitePlan.Profile.Source
import SuitePlan.Proofs.Json.Values

/-!
# Catalogs read back

A catalog is read back from what is written of it, as it was: what was left out takes the default
that stands for it, each scenario comes back as a scenario and each inclusion as an inclusion, and
profiles and extras come back under their names (`Catalog.load_written`). The text may be compact or
indented.
-/

namespace SuitePlan

open Json (Value Draft)

variable {depth : Nat}

/-! ## Texts and numbers -/

theorem Json.Value.isReadable_ofString (s : String) : (Value.ofString s).IsReadable depth :=
  .scalar trivial

theorem Json.Value.isReadable_ofNat {n : Nat} (h : n < UInt64.size) :
    (Value.ofNat n).IsReadable depth := by
  have hgreatest : n ≤ Json.Number.greatestSignificand := Nat.le_sub_one_of_lt h
  exact .scalar ⟨by omega, Int.ofNat_le.mpr hgreatest⟩

theorem Table.isReadable_toValue (t : Table String) : t.toValue.IsReadable (depth + 1) := by
  refine .object fun m hm => ?_
  obtain ⟨e, -, rfl⟩ := List.mem_map.mp hm
  exact Value.isReadable_ofString e.2

namespace Scenario

variable (s : Scenario)

theorem texts?_map (pairs : List (String × String)) :
    texts? (pairs.map fun (key, text) => (key, Value.ofString text)) = some pairs := by
  induction pairs with
  | nil => rfl
  | cons p rest ih =>
    rw [List.map_cons, texts?, ih]
    rfl

theorem extrasOfValue?_toValue (t : Table String) : extrasOfValue? t.toValue = some t := by
  rw [Table.toValue, extrasOfValue?, texts?_map, Option.map_some, Table.ofList_entries]

theorem weightOfValue?_ofNat (w : UInt32) :
    weightOfValue? (Value.ofNat w.toNat) = some (some w) := by
  have hsize : 0 ≤ (w.toNat : Int) ∧ (w.toNat : Int) < UInt32.size :=
    ⟨Int.natCast_nonneg _, Int.ofNat_lt.mpr w.toNat_lt_size⟩
  rw [Value.ofNat, weightOfValue?, if_pos hsize]
  simp

/-- The fields that are written of a scenario, in their order. -/
theorem fields_sublist : (s.members.map Prod.fst).Sublist fields := by
  have hweight : ((s.weight.map fun w => ("weight", Value.ofNat w.toNat)).toList.map
      Prod.fst).Sublist ["weight"] := by
    cases s.weight <;> simp
  have hextras : ((if s.extras.entries.isEmpty then []
      else [("extras", s.extras.toValue)] : List (String × Value)).map Prod.fst).Sublist
        ["extras"] := by
    split <;> simp
  rw [members, List.map_append, List.map_append]
  exact ((List.Sublist.refl ["scenario", "schedule"]).append hweight).append hextras

theorem lookup_weight :
    Table.lookup "weight" s.members = s.weight.map fun w => Value.ofNat w.toNat := by
  cases hweight : s.weight with
  | none =>
    by_cases hextras : s.extras.entries = [] <;>
      simp [members, Table.lookup, hweight, hextras]
  | some w => simp [members, Table.lookup, hweight]

theorem lookup_extras :
    Table.lookup "extras" s.members =
      if s.extras.entries.isEmpty then none else some s.extras.toValue := by
  cases hweight : s.weight <;> by_cases hextras : s.extras.entries = [] <;>
    simp [members, Table.lookup, hweight, hextras]

theorem field?_weight : field? s.members "weight" none weightOfValue? = some s.weight := by
  rw [field?, lookup_weight]
  cases s.weight with
  | none => rfl
  | some w => exact weightOfValue?_ofNat w

theorem field?_extras : field? s.members "extras" .empty extrasOfValue? = some s.extras := by
  rw [field?, lookup_extras]
  by_cases hextras : s.extras.entries = []
  · have hempty : s.extras = .empty := by
      rw [← Table.ofList_entries s.extras, hextras]
      rfl
    rw [hempty]
    rfl
  · simp [hextras, extrasOfValue?_toValue]

/-- A scenario is read back from its members. -/
theorem ofMembers?_members : ofMembers? s.members = some s := by
  have hfields : (s.members.map Prod.fst).Nodup ∧ ∀ m ∈ s.members, m.1 ∈ fields :=
    ⟨s.fields_sublist.nodup (by decide),
      fun m hm => s.fields_sublist.subset (List.mem_map_of_mem hm)⟩
  have hname : Table.lookup "scenario" s.members = some (.ofString s.name) := by
    simp [members, Table.lookup]
  have hplacement : field? s.members "schedule" default Placement.ofValue? =
      some s.placement := by
    have hlookup : Table.lookup "schedule" s.members = some (.ofString s.placement.name) := by
      simp [members, Table.lookup]
    rw [field?, hlookup]
    exact Placement.ofName?_name s.placement
  rw [ofMembers?, if_pos hfields, hname, hplacement, field?_weight, field?_extras]
  rfl

end Scenario

/-! ## Entries -/

namespace Entry

theorem ofValue?_toValue (e : Entry) : ofValue? e.toValue = some e := by
  cases e with
  | scenario s =>
    have hscenario : Scenario.ofValue? (.object s.members) = some s := s.ofMembers?_members
    rw [toValue, ofValue?, hscenario]
  | inclusion profile =>
    have hnone : Scenario.ofValue? (.object [("include", .ofString profile)]) = none := by
      simp [Scenario.ofValue?, Scenario.ofMembers?, Scenario.fields]
    rw [toValue, ofValue?, hnone]
    rfl

theorem isReadable_toValue (e : Entry) : e.toValue.IsReadable (depth + 2) := by
  cases e with
  | inclusion profile =>
    refine .object fun m hm => ?_
    rw [List.mem_singleton.mp hm]
    exact Value.isReadable_ofString profile
  | scenario s =>
    refine .object fun m hm => ?_
    rcases List.mem_append.mp hm with hm | hm
    · rcases List.mem_append.mp hm with hm | hm
      · rcases List.mem_pair.mp hm with rfl | rfl
        · exact Value.isReadable_ofString s.name
        · exact Value.isReadable_ofString s.placement.name
      · obtain ⟨w, -, rfl⟩ := Option.map_eq_some_iff.mp (Option.mem_toList.mp hm)
        exact Value.isReadable_ofNat (Nat.lt_trans w.toNat_lt_size (by decide))
    · by_cases hextras : s.extras.entries.isEmpty = true
      · rw [if_pos hextras] at hm
        cases hm
      · rw [if_neg hextras] at hm
        rw [List.mem_singleton.mp hm]
        exact s.extras.isReadable_toValue

end Entry

/-! ## Catalogs -/

namespace Catalog

theorem readEntry_toValue (e : Entry) : readEntry e.toValue.draft = .ok e := by
  rw [readEntry, Draft.value?_draft]
  simp only [Entry.ofValue?_toValue]

theorem readEach_map (entries : List Entry) :
    readEach (Value.itemDrafts (entries.map Entry.toValue)) = .ok entries := by
  induction entries with
  | nil => rfl
  | cons e rest ih =>
    rw [List.map_cons, Value.itemDrafts, readEach, readEntry_toValue, ih]
    rfl

theorem readMembers_cons {α : Type} {part : Part} {assign : String → Draft → α → Except Fault α}
    {seen : List String} {key : String} {d : Draft} {rest : List (String × Draft)} {a b : α}
    (hfield : key ∈ part.fields) (hseen : key ∉ seen) (h : assign key d a = .ok b) :
    readMembers part assign seen ((key, d) :: rest) a =
      readMembers part assign (key :: seen) rest b := by
  rw [readMembers, if_neg (not_not_intro hfield), if_neg hseen, h]

theorem readProfile_profileValue (entries : List Entry) :
    readProfile (profileValue entries).draft = .ok entries := by
  have hentries : readEntries (Value.array (entries.map Entry.toValue)).draft = .ok entries := by
    rw [Value.draft, readEntries, readEach_map]
    rfl
  rw [readProfile, profileValue, Value.draft, readPart, Value.memberDrafts,
    readMembers_cons (by decide) (by decide) hentries]
  rfl

theorem readNamed_map (named : List (String × List Entry)) :
    readNamed (Value.memberDrafts (named.map fun (name, entries) => (name, profileValue entries))) =
      .ok named := by
  induction named with
  | nil => rfl
  | cons p rest ih =>
    rw [List.map_cons, Value.memberDrafts, readNamed, readProfile_profileValue, ih]
    rfl

theorem assign_entry (c : Catalog) (name : String) :
    assign "entry" (Value.ofString name).draft c = .ok { c with entry := some name } := rfl

theorem assign_count (c : Catalog) (n : UInt64) :
    assign "count" (Value.ofNat n.toNat).draft c = .ok { c with count := some n } := by
  have hread : readOptional readCount (Value.ofNat n.toNat).draft = .ok (some n) := by
    have hneg : ¬(n.toNat : Int) < 0 := by omega
    show (readCount (.scalar (.number (.integer n.toNat)))).map some = _
    rw [readCount, if_neg hneg]
    simp [Except.map]
  rw [assign, if_neg (by decide), if_pos rfl, hread]
  rfl

theorem assign_profiles (c : Catalog) (profiles : Table (List Entry)) :
    assign "profiles" (Value.object (profiles.entries.map fun (name, entries) =>
      (name, profileValue entries))).draft c = .ok { c with profiles := profiles } := by
  rw [assign, if_neg (by decide), if_neg (by decide), Value.draft, readProfiles, readNamed_map]
  show Except.ok { c with profiles := Table.ofList profiles.entries } = _
  rw [Table.ofList_entries]

/-- A catalog is recovered from its value. -/
theorem ofDraft_toValue (c : Catalog) : ofDraft c.toValue.draft = .ok c := by
  obtain ⟨entry, count, profiles⟩ := c
  rw [ofDraft, toValue, Value.draft, readPart]
  -- The members that are written depend on what the catalog says besides its profiles.
  cases entry <;> cases count <;>
    simp only [Option.map_none, Option.map_some, Option.toList_none, Option.toList_some,
      List.nil_append, List.cons_append, Value.memberDrafts]
  · rw [readMembers_cons (by decide) (by decide) (assign_profiles _ profiles)]
    rfl
  · rw [readMembers_cons (by decide) (by decide) (assign_count _ _),
      readMembers_cons (by decide) (by decide) (assign_profiles _ profiles)]
    rfl
  · rw [readMembers_cons (by decide) (by decide) (assign_entry _ _),
      readMembers_cons (by decide) (by decide) (assign_profiles _ profiles)]
    rfl
  · rw [readMembers_cons (by decide) (by decide) (assign_entry _ _),
      readMembers_cons (by decide) (by decide) (assign_count _ _),
      readMembers_cons (by decide) (by decide) (assign_profiles _ profiles)]
    rfl

theorem isReadable_profileValue (entries : List Entry) :
    (profileValue entries).IsReadable (depth + 4) := by
  refine .object fun m hm => ?_
  rw [List.mem_singleton.mp hm]
  refine .array fun v hv => ?_
  obtain ⟨e, -, rfl⟩ := List.mem_map.mp hv
  exact e.isReadable_toValue

theorem isReadable_toValue (c : Catalog) : c.toValue.IsReadable (depth + 6) := by
  refine .object fun m hm => ?_
  rcases List.mem_append.mp hm with hm | hm
  · rcases List.mem_append.mp hm with hm | hm
    · obtain ⟨name, -, rfl⟩ := Option.map_eq_some_iff.mp (Option.mem_toList.mp hm)
      exact Value.isReadable_ofString name
    · obtain ⟨n, -, rfl⟩ := Option.map_eq_some_iff.mp (Option.mem_toList.mp hm)
      exact Value.isReadable_ofNat n.toNat_lt_size
  · rw [List.mem_singleton.mp hm]
    refine .object fun p hp => ?_
    obtain ⟨⟨name, entries⟩, -, rfl⟩ := List.mem_map.mp hp
    exact isReadable_profileValue entries

theorem ofText_of_reads {cs : List Char} {c : Catalog}
    (h : (Draft.Reader.ofDepth Draft.depthLimit).Reads cs c.toValue) :
    ofText (String.ofList cs) = .ok c := by
  rw [ofText, String.toList_ofList, Value.ofText_of_reads h]
  simp only [ofDraft_toValue]
  rfl

/-- A catalog is read back from either of its texts, whatever profiles, names and extras it has. -/
theorem load_written (files : Files) (c : Catalog) :
    (Source.inline c.toText).load files = .ok c ∧
      (Source.inline c.toValue.indentedText).load files = .ok c := by
  have hreadable : c.toValue.IsReadable Draft.depthLimit := @isReadable_toValue 121 c
  constructor
  · show (ofText c.toText).mapError _ = .ok c
    rw [toText, Value.compactText, ofText_of_reads (Value.reads_compact hreadable)]
    rfl
  · show (ofText c.toValue.indentedText).mapError _ = .ok c
    rw [Value.indentedText, ofText_of_reads (Value.reads_indented hreadable 0)]
    rfl

end Catalog

end SuitePlan
