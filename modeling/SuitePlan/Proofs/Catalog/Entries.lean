import SuitePlan.Proofs.Catalog.RoundTrip

/-!
# Objects that give entries

What an object must be like to give an entry is said of its members: which there may be, and how the
value of each is written (`Scenario.IsGivenBy`, `Entry.IsGivenBy`). The reader takes exactly these
objects, each for the entry that it gives (`Entry.ofValue?_eq_some_iff`), so that an object gives at
most one entry. The order of the members does not matter (`Entry.IsGivenBy.perm`).

`Scenario.FitsSchema` says of an object that it gives some scenario, one field after the other.
-/

namespace SuitePlan

open Json (Value)

theorem Json.Value.text?_eq_some_iff {v : Value} {text : String} :
    v.text? = some text ↔ v = .ofString text := by
  constructor
  · intro h
    unfold text? at h
    split at h
    · rw [Option.some.injEq] at h
      rw [h, ofString]
    · cases h
  · rintro rfl
    rfl

/-! ## Values of fields -/

/-- A placement is written as its name, or as an object with null under its name. -/
inductive Placement.IsWritten : Placement → Value → Prop
  | name (p : Placement) : IsWritten p (.ofString p.name)
  | tag (p : Placement) : IsWritten p (.object [(p.name, .scalar .null)])

namespace Placement

variable {p : Placement} {v : Value}

theorem ofName?_eq_some_iff {s : String} : ofName? s = some p ↔ s = p.name := by
  constructor
  · intro h
    unfold ofName? at h
    split at h
    · cases h
      assumption
    · split at h
      · cases h
        assumption
      · split at h
        · cases h
          assumption
        · cases h
  · rintro rfl
    exact ofName?_name p

theorem ofValue?_eq_some_iff : ofValue? v = some p ↔ p.IsWritten v := by
  constructor
  · intro h
    unfold ofValue? at h
    split at h
    · rw [ofName?_eq_some_iff.mp h]
      exact .name p
    · rw [ofName?_eq_some_iff.mp h]
      exact .tag p
    · cases h
  · intro h
    cases h with
    | name => exact ofName?_name p
    | tag => exact ofName?_name p

theorem exists_isWritten_iff :
    (∃ p : Placement, p.IsWritten v) ↔
      ∃ word ∈ ["none", "early", "late"],
        v = .ofString word ∨ v = .object [(word, .scalar .null)] := by
  constructor
  · rintro ⟨p, hp⟩
    refine ⟨p.name, ?_, ?_⟩
    · cases p <;> simp [Placement.name]
    · cases hp with
      | name => exact .inl rfl
      | tag => exact .inr rfl
  · rintro ⟨word, hword, hv⟩
    obtain ⟨p, rfl⟩ : ∃ p : Placement, word = p.name := by
      simp only [List.mem_cons, List.not_mem_nil, or_false] at hword
      rcases hword with rfl | rfl | rfl
      · exact ⟨.middle, rfl⟩
      · exact ⟨.early, rfl⟩
      · exact ⟨.late, rfl⟩
    rcases hv with rfl | rfl
    · exact ⟨p, .name p⟩
    · exact ⟨p, .tag p⟩

end Placement

namespace Scenario

/-- A weight is written as null if there is none, else as an integer, which minus zero is not. -/
inductive IsWeight : Option UInt32 → Value → Prop
  | null : IsWeight none (.scalar .null)
  | integer (w : UInt32) : IsWeight (some w) (.ofNat w.toNat)

/-- Extras are written as an object of texts. Of several texts under one name the last one
counts. -/
def IsExtras (t : Table String) (v : Value) : Prop :=
  ∃ pairs : List (String × String),
    v = .object (pairs.map fun (key, text) => (key, .ofString text)) ∧
      ∀ key, t.get? key = Table.lookup key pairs.reverse

variable {α : Type} {v : Value} {weight : Option UInt32} {extras : Table String}
  {members members' : List (String × Value)} {key : String} {s : Scenario}

theorem weightOfValue?_eq_some_iff : weightOfValue? v = some weight ↔ IsWeight weight v := by
  constructor
  · intro h
    unfold weightOfValue? at h
    split at h
    · cases h
      exact .null
    · rename_i n
      split at h
      · rename_i hn
        cases h
        have hlt : n.toNat < UInt32.size := by omega
        have hword := IsWeight.integer (UInt32.ofNat n.toNat)
        rwa [UInt32.toNat_ofNat_of_lt' hlt, Value.ofNat, Int.toNat_of_nonneg hn.1] at hword
      · cases h
    · cases h
  · intro h
    cases h with
    | null => rfl
    | integer w => exact weightOfValue?_ofNat w

theorem exists_isWeight_iff :
    (∃ weight, IsWeight weight v) ↔ v = .scalar .null ∨ ∃ n < UInt32.size, v = .ofNat n := by
  constructor
  · rintro ⟨weight, h⟩
    cases h with
    | null => exact .inl rfl
    | integer w => exact .inr ⟨w.toNat, w.toNat_lt_size, rfl⟩
  · rintro (rfl | ⟨n, hn, rfl⟩)
    · exact ⟨none, .null⟩
    · have hword := IsWeight.integer (UInt32.ofNat n)
      rw [UInt32.toNat_ofNat_of_lt' hn] at hword
      exact ⟨_, hword⟩

theorem texts?_eq_some_iff {pairs : List (String × String)} :
    texts? members = some pairs ↔
      members = pairs.map fun (key, text) => (key, Value.ofString text) := by
  constructor
  · intro h
    induction members generalizing pairs with
    | nil =>
      rw [texts?, Option.some.injEq] at h
      rw [← h, List.map_nil]
    | cons m rest ih =>
      obtain ⟨key, v⟩ := m
      simp only [texts?, Option.bind_eq_bind, Option.bind_eq_some_iff, Option.some.injEq] at h
      obtain ⟨text, htext, more, hmore, rfl⟩ := h
      rw [List.map_cons, ← ih hmore, Value.text?_eq_some_iff.mp htext]
  · rintro rfl
    exact texts?_map pairs

theorem extrasOfValue?_eq_some_iff : extrasOfValue? v = some extras ↔ IsExtras extras v := by
  constructor
  · intro h
    unfold extrasOfValue? at h
    split at h
    · obtain ⟨pairs, hpairs, rfl⟩ := Option.map_eq_some_iff.mp h
      exact ⟨pairs, congrArg _ (texts?_eq_some_iff.mp hpairs), Table.get?_ofList pairs⟩
    · cases h
  · rintro ⟨pairs, rfl, hget⟩
    have hextras : Table.ofList pairs = extras :=
      Table.ext_get? fun key => (Table.get?_ofList pairs key).trans (hget key).symm
    rw [extrasOfValue?, texts?_map, Option.map_some, hextras]

theorem exists_isExtras_iff :
    (∃ extras, IsExtras extras v) ↔
      ∃ pairs : List (String × String),
        v = .object (pairs.map fun (key, text) => (key, .ofString text)) := by
  constructor
  · rintro ⟨extras, pairs, hv, -⟩
    exact ⟨pairs, hv⟩
  · rintro ⟨pairs, hv⟩
    exact ⟨.ofList pairs, pairs, hv, Table.get?_ofList pairs⟩

/-! ## Fields -/

/-- A field that need not be given: a member is written as `a`, or there is no such member and `a`
is the default. -/
def FieldIs (members : List (String × Value)) (key : String) (default : α)
    (IsWritten : α → Value → Prop) (a : α) : Prop :=
  (∃ v, (key, v) ∈ members ∧ IsWritten a v) ∨ key ∉ members.map Prod.fst ∧ a = default

variable {default a : α} {IsWritten : α → Value → Prop} {read? : Value → Option α}

theorem field?_eq_some_iff (hdistinct : (members.map Prod.fst).Nodup)
    (hread : ∀ v a, read? v = some a ↔ IsWritten a v) :
    field? members key default read? = some a ↔ FieldIs members key default IsWritten a := by
  simp only [FieldIs, ← Table.lookup_eq_none_iff, ← Table.lookup_eq_some_iff hdistinct, field?]
  cases Table.lookup key members with
  | none => simp [eq_comm]
  | some v => simp [hread]

theorem exists_fieldIs_iff (hdistinct : (members.map Prod.fst).Nodup) :
    (∃ a, FieldIs members key default IsWritten a) ↔
      ∀ v, (key, v) ∈ members → ∃ a, IsWritten a v := by
  simp only [FieldIs, ← Table.lookup_eq_none_iff, ← Table.lookup_eq_some_iff hdistinct]
  cases Table.lookup key members with
  | none => simp
  | some v => simp

theorem FieldIs.perm (h : FieldIs members key default IsWritten a) (hperm : members.Perm members') :
    FieldIs members' key default IsWritten a := by
  simpa only [FieldIs, ← hperm.mem_iff, ← (hperm.map Prod.fst).mem_iff] using h

/-! ## Scenarios -/

/-- The members are those of an object that gives the scenario. -/
structure IsGivenBy (s : Scenario) (members : List (String × Value)) : Prop where
  distinct : (members.map Prod.fst).Nodup
  known : ∀ m ∈ members, m.1 ∈ ["scenario", "schedule", "weight", "extras"]
  name : ("scenario", .ofString s.name) ∈ members
  placement : FieldIs members "schedule" .middle Placement.IsWritten s.placement
  weight : FieldIs members "weight" none IsWeight s.weight
  extras : FieldIs members "extras" .empty IsExtras s.extras

/-- The members are those of an object that gives some scenario. -/
structure FitsSchema (members : List (String × Value)) : Prop where
  distinct : (members.map Prod.fst).Nodup
  known : ∀ m ∈ members, m.1 ∈ ["scenario", "schedule", "weight", "extras"]
  name : ∃ text, ("scenario", .ofString text) ∈ members
  placement : ∀ v, ("schedule", v) ∈ members → ∃ word ∈ ["none", "early", "late"],
    v = .ofString word ∨ v = .object [(word, .scalar .null)]
  weight : ∀ v, ("weight", v) ∈ members → v = .scalar .null ∨ ∃ n < UInt32.size, v = .ofNat n
  extras : ∀ v, ("extras", v) ∈ members → ∃ pairs : List (String × String),
    v = .object (pairs.map fun (key, text) => (key, .ofString text))

theorem exists_isGivenBy_iff : (∃ s : Scenario, s.IsGivenBy members) ↔ FitsSchema members := by
  constructor
  · rintro ⟨s, hdistinct, hknown, hname, hplacement, hweight, hextras⟩
    refine ⟨hdistinct, hknown, ⟨s.name, hname⟩, fun v hv => ?_, fun v hv => ?_, fun v hv => ?_⟩
    · exact Placement.exists_isWritten_iff.mp
        ((exists_fieldIs_iff hdistinct).mp ⟨_, hplacement⟩ v hv)
    · exact exists_isWeight_iff.mp ((exists_fieldIs_iff hdistinct).mp ⟨_, hweight⟩ v hv)
    · exact exists_isExtras_iff.mp ((exists_fieldIs_iff hdistinct).mp ⟨_, hextras⟩ v hv)
  · rintro ⟨hdistinct, hknown, ⟨text, hname⟩, hplacement, hweight, hextras⟩
    obtain ⟨placement, hplacement⟩ := (exists_fieldIs_iff hdistinct).mpr fun v hv =>
      Placement.exists_isWritten_iff.mpr (hplacement v hv)
    obtain ⟨weight, hweight⟩ := (exists_fieldIs_iff hdistinct).mpr fun v hv =>
      exists_isWeight_iff.mpr (hweight v hv)
    obtain ⟨extras, hextras⟩ := (exists_fieldIs_iff hdistinct).mpr fun v hv =>
      exists_isExtras_iff.mpr (hextras v hv)
    exact ⟨⟨text, placement, weight, extras⟩,
      hdistinct, hknown, hname, hplacement, hweight, hextras⟩

theorem ofMembers?_eq_some_iff : ofMembers? members = some s ↔ s.IsGivenBy members := by
  unfold ofMembers?
  split
  · rename_i hfields
    obtain ⟨hdistinct, hknown⟩ := hfields
    simp only [Option.bind_eq_bind, Option.bind_eq_some_iff, Option.some.injEq,
      Table.lookup_eq_some_iff hdistinct, Value.text?_eq_some_iff,
      field?_eq_some_iff hdistinct fun _ _ => Placement.ofValue?_eq_some_iff,
      field?_eq_some_iff hdistinct fun _ _ => weightOfValue?_eq_some_iff,
      field?_eq_some_iff hdistinct fun _ _ => extrasOfValue?_eq_some_iff]
    constructor
    · rintro ⟨_, hname, text, rfl, placement, hplacement, weight, hweight, extras, hextras, rfl⟩
      exact ⟨hdistinct, hknown, hname, hplacement, hweight, hextras⟩
    · rintro ⟨-, -, hname, hplacement, hweight, hextras⟩
      exact ⟨_, hname, s.name, rfl, _, hplacement, _, hweight, _, hextras, rfl⟩
  · rename_i hfields
    constructor
    · intro h
      cases h
    · intro h
      exact absurd ⟨h.distinct, h.known⟩ hfields

theorem IsGivenBy.perm (h : s.IsGivenBy members) (hperm : members.Perm members') :
    s.IsGivenBy members' where
  distinct := (hperm.map Prod.fst).nodup_iff.mp h.distinct
  known m hm := h.known m (hperm.mem_iff.mpr hm)
  name := hperm.mem_iff.mp h.name
  placement := h.placement.perm hperm
  weight := h.weight.perm hperm
  extras := h.extras.perm hperm

end Scenario

/-! ## Entries -/

namespace Entry

variable {members members' : List (String × Value)} {e : Entry}

/-- The members are those of an object that gives the entry. An inclusion has one member. -/
def IsGivenBy : Entry → List (String × Value) → Prop
  | .scenario s, members => s.IsGivenBy members
  | .inclusion profile, members => members = [("include", .ofString profile)]

theorem inclusionOfValue?_eq_some_iff {profile : String} :
    inclusionOfValue? (.object members) = some profile ↔
      members = [("include", .ofString profile)] := by
  constructor
  · intro h
    unfold inclusionOfValue? at h
    split at h
    · rename_i key s hobject
      split at h
      · rename_i hkey
        cases h
        cases hobject
        rw [hkey, Value.ofString]
      · cases h
    · cases h
  · rintro rfl
    rfl

/-- An inclusion has a field that no scenario has. -/
theorem not_isGivenBy_include {s : Scenario} {v : Value} : ¬s.IsGivenBy [("include", v)] := by
  intro h
  have hknown := h.known _ List.mem_cons_self
  simp at hknown

/-- Exactly the objects that give an entry are taken for one. -/
theorem ofValue?_eq_some_iff : ofValue? (.object members) = some e ↔ e.IsGivenBy members := by
  have hmembers : Scenario.ofValue? (.object members) = Scenario.ofMembers? members := rfl
  rw [ofValue?, hmembers]
  cases hs : Scenario.ofMembers? members with
  | some s =>
    have hgiven := Scenario.ofMembers?_eq_some_iff.mp hs
    cases e with
    | scenario t => simp [IsGivenBy, ← Scenario.ofMembers?_eq_some_iff, hs]
    | inclusion profile =>
      simp only [Option.some.injEq, reduceCtorEq, IsGivenBy, false_iff]
      rintro rfl
      exact not_isGivenBy_include hgiven
  | none =>
    cases e with
    | scenario t => simp [IsGivenBy, ← Scenario.ofMembers?_eq_some_iff, hs]
    | inclusion profile => simp [IsGivenBy, inclusionOfValue?_eq_some_iff]

theorem IsGivenBy.perm (h : e.IsGivenBy members) (hperm : members.Perm members') :
    e.IsGivenBy members' := by
  cases e with
  | scenario s => exact Scenario.IsGivenBy.perm h hperm
  | inclusion profile =>
    rw [IsGivenBy] at h
    rw [h] at hperm
    exact List.perm_singleton.mp hperm.symm

theorem IsGivenBy.unique {e' : Entry} (h : e.IsGivenBy members) (h' : e'.IsGivenBy members) :
    e = e' := by
  rw [← ofValue?_eq_some_iff] at h h'
  rw [h, Option.some.injEq] at h'
  exact h'

end Entry

end SuitePlan
