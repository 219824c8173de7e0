import SuitePlan.Attempt
import SuitePlan.Failure
import SuitePlan.Profile.Lineup
import SuitePlan.Text.Blank

/-!
# Expansion

A profile is expanded to runs by taking its entries in order: a scenario becomes as many runs as it
has weight, an inclusion the runs of the included profile. `path` holds the profiles that are being
expanded, the innermost first; a profile that includes one of them closes a cycle. `used` counts the
runs that were collected before, for there is a limit to their number.

A profile is on the path only once and must be defined to get there, so that an expansion is never
deeper than there are profiles (`remaining_lt`).
-/

namespace SuitePlan.Catalog

/-- How many profiles are not being expanded. -/
def remaining (c : Catalog) (path : List String) : Nat :=
  (c.profiles.keys.filter fun name => name ∉ path).length

/-- A defined profile that joins the path leaves fewer profiles for it. -/
theorem remaining_lt {c : Catalog} {path : List String} {name : String} {entries : List Entry}
    (hn : name ∉ path) (h : c.profiles.get? name = some entries) :
    c.remaining (name :: path) < c.remaining path := by
  have hk : name ∈ c.profiles.keys := Table.mem_keys_of_get? h
  unfold remaining
  generalize c.profiles.keys = keys at hk
  induction keys with
  | nil => simp at hk
  | cons key rest ih =>
    have hle : (rest.filter fun k => k ∉ name :: path).length
        ≤ (rest.filter fun k => k ∉ path).length := by
      rw [← List.countP_eq_length_filter, ← List.countP_eq_length_filter]
      exact List.countP_mono_left fun k _ hk => by simp_all
    by_cases he : key = name
    · subst he
      rw [List.filter_cons_of_neg (by simp), List.filter_cons_of_pos (by simp [hn])]
      simpa using Nat.lt_succ_of_le hle
    · have hlt := ih (by simpa [Ne.symm he] using hk)
      by_cases hp : key ∈ path
      · rw [List.filter_cons_of_neg (by simp [hp]), List.filter_cons_of_neg (by simp [hp])]
        exact hlt
      · rw [List.filter_cons_of_pos (by simp [hp, he]), List.filter_cons_of_pos (by simp [hp])]
        simpa using hlt

/-- The names from the profile `name` along the path back to `name`. -/
def cycleNames (path : List String) (name : String) : List String :=
  name :: (path.takeWhile fun other => other != name).reverse ++ [name]

/-- The runs of a scenario that a profile lists. -/
def scenarioRuns (profile : String) (s : Scenario) : List Run :=
  List.replicate s.repeats ⟨s.name, s.placement, profile, s.extras⟩

/-- The runs of a scenario, which is the entry of a profile at an index, after `used` others. -/
def expandScenario (profile : String) (index used : Nat) (s : Scenario) :
    Except Failure (List Run) :=
  if Text.isBlankText s.name then .error (.profile (.invalidEntry profile index .blankScenario))
  else if runLimit < used + s.repeats then
    .error (.profile (.invalidEntry profile index .tooManyRuns))
  else .ok (scenarioRuns profile s)

mutual
/-- The runs of a profile. -/
def expand (c : Catalog) (path : List String) (name : String) (referrer : Referrer) (used : Nat) :
    Except Failure (List Run) :=
  if hn : name ∈ path then .error (.cycle (cycleNames path name))
  else
    match h : c.profiles.get? name with
    | none => .error (.profile (.undefined name referrer))
    | some entries =>
      have := remaining_lt hn h
      expandEntries c (name :: path) name 0 entries used
termination_by (c.remaining path, 0)

/-- The runs of the entries of a profile, the first of which has the given index. -/
def expandEntries (c : Catalog) (path : List String) (profile : String) (index : Nat)
    (entries : List Entry) (used : Nat) : Except Failure (List Run) :=
  match entries with
  | [] => .ok []
  | entry :: rest =>
    match expandEntry c path profile index entry used with
    | .error e => .error e
    | .ok runs =>
      (expandEntries c path profile (index + 1) rest (used + runs.length)).map (runs ++ ·)
termination_by (c.remaining path, entries.length + 2)

/-- The runs of the entry of a profile at the given index. -/
def expandEntry (c : Catalog) (path : List String) (profile : String) (index : Nat) (entry : Entry)
    (used : Nat) : Except Failure (List Run) :=
  match entry with
  | .scenario s => expandScenario profile index used s
  | .inclusion name =>
    if Text.isBlankText name then .error (.profile (.invalidEntry profile index .blankInclusion))
    else expand c path name (.profile profile) used
termination_by (c.remaining path, 1)
end

variable {c : Catalog} {path : List String} {name profile : String} {referrer : Referrer}
  {index used : Nat} {s : Scenario} {entry : Entry} {entries rest : List Entry} {runs : List Run}
  {failure : Failure}

theorem expand_of_mem (h : name ∈ path) :
    c.expand path name referrer used = .error (.cycle (cycleNames path name)) := by
  rw [expand, dif_pos h]

theorem expand_of_undefined (hn : name ∉ path) (h : c.profiles.get? name = none) :
    c.expand path name referrer used = .error (.profile (.undefined name referrer)) := by
  rw [expand, dif_neg hn]
  split
  · rfl
  · simp_all

theorem expand_of_get? (hn : name ∉ path) (h : c.profiles.get? name = some entries) :
    c.expand path name referrer used = c.expandEntries (name :: path) name 0 entries used := by
  rw [expand, dif_neg hn]
  split
  · simp_all
  · simp_all

theorem expandScenario_eq_ok_iff :
    expandScenario profile index used s = .ok runs ↔
      Text.isBlankText s.name = false ∧ used + s.repeats ≤ runLimit ∧
        runs = scenarioRuns profile s := by
  unfold expandScenario
  cases Text.isBlankText s.name with
  | true => simp
  | false =>
    by_cases hl : runLimit < used + s.repeats
    · simp [hl, Nat.not_le.mpr hl]
    · simp [hl, Nat.not_lt.mp hl, eq_comm]

@[simp] theorem expandEntry_scenario :
    c.expandEntry path profile index (.scenario s) used = expandScenario profile index used s := by
  rw [expandEntry]

theorem expandEntry_inclusion (h : Text.isBlankText name = false) :
    c.expandEntry path profile index (.inclusion name) used =
      c.expand path name (.profile profile) used := by
  rw [expandEntry, if_neg (by simp [h])]

theorem expandEntry_blank (h : Text.isBlankText name = true) :
    c.expandEntry path profile index (.inclusion name) used =
      .error (.profile (.invalidEntry profile index .blankInclusion)) := by
  rw [expandEntry, if_pos h]

@[simp] theorem expandEntries_nil : c.expandEntries path profile index [] used = .ok [] := by
  rw [expandEntries]

theorem expandEntries_cons_of_error
    (h : c.expandEntry path profile index entry used = .error failure) :
    c.expandEntries path profile index (entry :: rest) used = .error failure := by
  rw [expandEntries, h]

theorem expandEntries_cons_of_ok (h : c.expandEntry path profile index entry used = .ok runs) :
    c.expandEntries path profile index (entry :: rest) used =
      (c.expandEntries path profile (index + 1) rest (used + runs.length)).map (runs ++ ·) := by
  rw [expandEntries, h]

/-- Entries are expanded if each is, the later ones after the runs of the earlier. -/
theorem expandEntries_cons_eq_ok_iff :
    c.expandEntries path profile index (entry :: rest) used = .ok runs ↔
      ∃ first later, c.expandEntry path profile index entry used = .ok first ∧
        c.expandEntries path profile (index + 1) rest (used + first.length) = .ok later ∧
        first ++ later = runs := by
  rw [expandEntries]
  cases c.expandEntry path profile index entry used with
  | error e => simp
  | ok first => simp [Attempt.map_eq_ok_iff]

/-- The first failure of an entry is the failure of all. -/
theorem expandEntries_cons_eq_error_iff :
    c.expandEntries path profile index (entry :: rest) used = .error failure ↔
      c.expandEntry path profile index entry used = .error failure ∨
        ∃ first, c.expandEntry path profile index entry used = .ok first ∧
          c.expandEntries path profile (index + 1) rest (used + first.length) = .error failure := by
  rw [expandEntries]
  cases c.expandEntry path profile index entry used with
  | error e => simp
  | ok first => simp [Attempt.map_eq_error_iff]

/-- The lineup of a profile that is started from. -/
def lineup (c : Catalog) (entry : String) : Except Failure Lineup :=
  match c.count.filter fun count => runLimit < count.toNat with
  | some count => .error (.profile (.countTooLarge count.toNat))
  | none => do
    let runs ← c.expand [] entry .settings 0
    return ⟨entry, Lineup.fit c.count (Lineup.arrange runs)⟩

/-- The catalog asks for no more runs than may be. -/
def CountFits (c : Catalog) : Prop :=
  ∀ count, c.count = some count → count.toNat ≤ runLimit

/-- A number of runs over the limit is an error before anything is expanded. -/
theorem lineup_of_count {count : UInt64} (h : c.count = some count)
    (hlimit : runLimit < count.toNat) (name : String) :
    c.lineup name = .error (.profile (.countTooLarge count.toNat)) := by
  rw [lineup, h, Option.filter_some, if_pos (by simpa using hlimit)]

theorem lineup_eq_map (h : c.CountFits) (name : String) :
    c.lineup name = (c.expand [] name .settings 0).map fun runs =>
      ⟨name, Lineup.fit c.count (Lineup.arrange runs)⟩ := by
  have hnone : c.count.filter (fun count => runLimit < count.toNat) = none := by
    rw [Option.filter_eq_none_iff]
    intro count hc
    simpa using h count hc
  rw [lineup, hnone]
  cases c.expand [] name .settings 0 with
  | error e => rfl
  | ok runs => rfl

theorem countFits_of_lineup_eq_ok {l : Lineup} (h : c.lineup name = .ok l) : c.CountFits := by
  intro count hc
  apply Nat.not_lt.mp
  intro hlimit
  rw [lineup_of_count hc hlimit] at h
  cases h

theorem name_of_lineup_eq_ok {l : Lineup} (h : c.lineup name = .ok l) : l.name = name := by
  rw [lineup_eq_map (countFits_of_lineup_eq_ok h), Attempt.map_eq_ok_iff] at h
  obtain ⟨runs, -, rfl⟩ := h
  rfl

end SuitePlan.Catalog
