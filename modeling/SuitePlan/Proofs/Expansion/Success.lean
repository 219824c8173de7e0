import SuitePlan.Proofs.Expansion.Flattening

/-!
# When an expansion succeeds

An expansion succeeds exactly if the profile stands for runs, everything that is reached from it is
defined, has names and is not being expanded already, and the runs fit under the limit
(`expand_eq_ok_iff`). The path and the runs that were collected before matter in no other way.

`lineup_succeeds_iff` says the same of a profile that is started from, on the graph alone.
-/

namespace SuitePlan.Catalog

open Relation

/-- What must hold of the profiles reached from `name`, where those on `path` are being expanded. -/
def ClearOf (c : Catalog) (path : List String) (name : String) : Prop :=
  ∀ q, c.Reaches name q → c.Defines q ∧ c.NamesEntries q ∧ q ∉ path

/-- What an expanded profile looks like. -/
structure ProfileExpanded (c : Catalog) (path : List String) (name : String) (used : Nat)
    (runs : List Run) : Prop where
  flattens : c.FlattensTo name runs
  clear : c.ClearOf path name
  fits : used ≤ runLimit → used + runs.length ≤ runLimit

/-- What expanded entries of a profile look like. -/
structure EntriesExpanded (c : Catalog) (path : List String) (profile : String)
    (entries : List Entry) (used : Nat) (runs : List Run) : Prop where
  flattens : c.Flattens profile entries runs
  named : ∀ entry ∈ entries, Text.trim entry.name ≠ ""
  clear : ∀ q, Entry.inclusion q ∈ entries → c.ClearOf path q
  fits : used ≤ runLimit → used + runs.length ≤ runLimit

variable {c : Catalog} {path : List String} {name profile : String} {referrer : Referrer}
  {index used : Nat} {entry : Entry} {entries rest : List Entry} {runs first later : List Run}

theorem EntriesExpanded.nil (c : Catalog) (path : List String) (profile : String) (used : Nat) :
    c.EntriesExpanded path profile [] used [] :=
  ⟨.nil, by simp, by simp, by simp⟩

theorem EntriesExpanded.cons (hfirst : c.EntriesExpanded path profile [entry] used first)
    (hlater : c.EntriesExpanded path profile rest (used + first.length) later) :
    c.EntriesExpanded path profile (entry :: rest) used (first ++ later) := by
  refine ⟨hfirst.flattens.append hlater.flattens, ?_, ?_, ?_⟩
  · intro other hmem
    rcases List.mem_cons.mp hmem with rfl | hmem
    · exact hfirst.named other List.mem_cons_self
    · exact hlater.named other hmem
  · intro q hmem
    rcases List.mem_cons.mp hmem with rfl | hmem
    · exact hfirst.clear q List.mem_cons_self
    · exact hlater.clear q hmem
  · intro hu
    have := hlater.fits (hfirst.fits hu)
    rw [List.length_append]
    omega

theorem EntriesExpanded.of_expandScenario {s : Scenario}
    (h : expandScenario profile index used s = .ok runs) :
    c.EntriesExpanded path profile [.scenario s] used runs := by
  obtain ⟨hname, hfits, rfl⟩ := expandScenario_eq_ok_iff.mp h
  refine ⟨flattens_scenario c profile s, ?_, by simp, ?_⟩
  · intro entry hmem
    rw [List.mem_singleton.mp hmem]
    exact not_blank_iff.mp hname
  · intro _
    simpa [scenarioRuns] using hfits

theorem EntriesExpanded.of_profile (hname : Text.isBlankText name = false)
    (h : c.ProfileExpanded path name used runs) :
    c.EntriesExpanded path profile [.inclusion name] used runs := by
  refine ⟨h.flattens.inclusion profile, ?_, ?_, h.fits⟩
  · intro entry hmem
    rw [List.mem_singleton.mp hmem]
    exact not_blank_iff.mp hname
  · intro q hmem
    cases List.mem_singleton.mp hmem
    exact h.clear

/-- A profile is expanded to what its entries are, while it is on the path. -/
theorem ProfileExpanded.of_entries (hn : name ∉ path) (hget : c.profiles.get? name = some entries)
    (h : c.EntriesExpanded (name :: path) name entries used runs) :
    c.ProfileExpanded path name used runs := by
  refine ⟨⟨entries, hget, h.flattens⟩, ?_, h.fits⟩
  intro q hreach
  rcases ReflTransGen.cases_head hreach with rfl | ⟨p, hstep, hreach⟩
  · refine ⟨defines_of_get? hget, ?_, hn⟩
    intro entry hmem
    rw [entriesOf_eq hget] at hmem
    exact h.named entry hmem
  · obtain ⟨hdef, hnames, hnot⟩ := h.clear p ((includes_iff hget).mp hstep) q hreach
    exact ⟨hdef, hnames, fun hmem => hnot (List.mem_cons_of_mem _ hmem)⟩

/-- The induction follows the calls: a profile, its entries, and each of them. -/
theorem expanded_of_expand_eq_ok (c : Catalog) :
    (∀ path name referrer used runs, c.expand path name referrer used = .ok runs →
      c.ProfileExpanded path name used runs) ∧
    (∀ path profile index entries used runs,
      c.expandEntries path profile index entries used = .ok runs →
      c.EntriesExpanded path profile entries used runs) ∧
    (∀ path profile index entry used runs,
      c.expandEntry path profile index entry used = .ok runs →
      c.EntriesExpanded path profile [entry] used runs) := by
  apply expand.mutual_induct c
  -- a profile: on the path, undefined, or expanded as its entries are
  · intro path name referrer used hmem runs h
    rw [expand_of_mem hmem] at h
    cases h
  · intro path name referrer used hn hget runs h
    rw [expand_of_undefined hn hget] at h
    cases h
  · intro path name referrer used hn entries hget _ ih runs h
    rw [expand_of_get? hn hget] at h
    exact .of_entries hn hget (ih runs h)
  -- entries: none, or a first one that fails or is expanded before the others
  · intro path profile index used runs h
    rw [expandEntries_nil] at h
    cases h
    exact .nil c path profile used
  · intro path profile index used entry rest e he _ runs h
    obtain ⟨first, later, hfirst, -, -⟩ := expandEntries_cons_eq_ok_iff.mp h
    rw [he] at hfirst
    cases hfirst
  · intro path profile index used entry rest first hfirst ihfirst ihrest runs h
    obtain ⟨first', later, hfirst', hlater, rfl⟩ := expandEntries_cons_eq_ok_iff.mp h
    rw [hfirst] at hfirst'
    cases hfirst'
    exact (ihfirst first hfirst).cons (ihrest later hlater)
  -- an entry: a scenario, a blank inclusion, or one with a name
  · intro path profile index used s runs h
    rw [expandEntry_scenario] at h
    exact .of_expandScenario h
  · intro path profile index used name hblank runs h
    rw [expandEntry_blank hblank] at h
    cases h
  · intro path profile index used name hblank ih runs h
    have hname : Text.isBlankText name = false := by simpa using hblank
    rw [expandEntry_inclusion hname] at h
    exact .of_profile hname (ih runs h)

/-- A profile that reaches no cycle does not come back to itself from what it includes. -/
theorem ClearOf.of_includes {q : String} (h : c.ClearOf path name) (hacyclic : c.AcyclicFrom name)
    (hstep : c.Includes name q) : c.ClearOf (name :: path) q := by
  intro r hreach
  obtain ⟨hdef, hnames, hnot⟩ := h r (hreach.of_includes hstep)
  refine ⟨hdef, hnames, fun hmem => ?_⟩
  rcases List.mem_cons.mp hmem with rfl | hmem
  · exact hacyclic.not_reaches hstep hreach
  · exact hnot hmem

/-- Conversely, entries are expanded to what they stand for where nothing is in the way. -/
theorem expandEntries_eq_ok (h : c.Flattens profile entries runs)
    (hnamed : ∀ entry ∈ entries, Text.trim entry.name ≠ "")
    (hclear : ∀ q, Entry.inclusion q ∈ entries → c.ClearOf path q)
    (hfits : used + runs.length ≤ runLimit) :
    c.expandEntries path profile index entries used = .ok runs := by
  induction h generalizing path index used with
  | nil => rw [expandEntries_nil]
  | @scenario p s rest runs _ ih =>
    rw [List.length_append, List.length_replicate, ← Nat.add_assoc] at hfits
    have hname : Text.isBlankText s.name = false :=
      not_blank_iff.mpr (hnamed (.scenario s) List.mem_cons_self)
    have hs : used + s.repeats ≤ runLimit := Nat.le_trans (Nat.le_add_right _ _) hfits
    have hfirst : expandScenario p index used s = .ok (scenarioRuns p s) :=
      expandScenario_eq_ok_iff.mpr ⟨hname, hs, rfl⟩
    refine expandEntries_cons_eq_ok_iff.mpr ⟨scenarioRuns p s, runs, ?_, ?_, rfl⟩
    · rw [expandEntry_scenario, hfirst]
    · refine ih (fun entry hmem => hnamed entry (List.mem_cons_of_mem _ hmem))
        (fun q hmem => hclear q (List.mem_cons_of_mem _ hmem)) ?_
      rwa [scenarioRuns, List.length_replicate]
  | @inclusion p q entries rest inner runs hget hinner _ ihinner ih =>
    rw [List.length_append, ← Nat.add_assoc] at hfits
    have hname : Text.isBlankText q = false :=
      not_blank_iff.mpr (hnamed (.inclusion q) List.mem_cons_self)
    have hq := hclear q List.mem_cons_self
    obtain ⟨-, hnames, hnew⟩ := hq q (Reaches.refl c q)
    have hacyclic : c.AcyclicFrom q := FlattensTo.acyclicFrom ⟨entries, hget, hinner⟩
    rw [NamesEntries, entriesOf_eq hget] at hnames
    have hexpand : c.expand path q (.profile p) used = .ok inner := by
      rw [expand_of_get? hnew hget]
      exact ihinner hnames (fun r hmem => hq.of_includes hacyclic ((includes_iff hget).mpr hmem))
        (Nat.le_trans (Nat.le_add_right _ _) hfits)
    refine expandEntries_cons_eq_ok_iff.mpr ⟨inner, runs, ?_, ?_, rfl⟩
    · rw [expandEntry_inclusion hname, hexpand]
    · exact ih (fun entry hmem => hnamed entry (List.mem_cons_of_mem _ hmem))
        (fun q hmem => hclear q (List.mem_cons_of_mem _ hmem)) hfits

theorem expand_eq_ok (h : c.FlattensTo name runs) (hclear : c.ClearOf path name)
    (hfits : used + runs.length ≤ runLimit) : c.expand path name referrer used = .ok runs := by
  have hacyclic := h.acyclicFrom
  obtain ⟨entries, hget, hflat⟩ := h
  obtain ⟨-, hnames, hnew⟩ := hclear name (Reaches.refl c name)
  rw [NamesEntries, entriesOf_eq hget] at hnames
  rw [expand_of_get? hnew hget]
  exact expandEntries_eq_ok hflat hnames
    (fun q hmem => hclear.of_includes hacyclic ((includes_iff hget).mpr hmem)) hfits

/-- What an expansion gives depends on the path and on the runs before it only in whether it gives
anything. -/
theorem expand_eq_ok_iff (hu : used ≤ runLimit) :
    c.expand path name referrer used = .ok runs ↔
      c.FlattensTo name runs ∧ c.ClearOf path name ∧ used + runs.length ≤ runLimit := by
  constructor
  · intro h
    obtain ⟨hflat, hclear, hfits⟩ := (expanded_of_expand_eq_ok c).1 path name referrer used runs h
    exact ⟨hflat, hclear, hfits hu⟩
  · intro h
    obtain ⟨hflat, hclear, hfits⟩ := h
    exact expand_eq_ok hflat hclear hfits

/-- A lineup is what the profile it starts from stands for, arranged and fitted. -/
theorem lineup_eq_ok_iff {l : Lineup} :
    c.lineup name = .ok l ↔
      c.CountFits ∧ ∃ runs, c.FlattensTo name runs ∧ c.ClearOf [] name ∧ runs.length ≤ runLimit ∧
        l = ⟨name, Lineup.fit c.count (Lineup.arrange runs)⟩ := by
  constructor
  · intro h
    have hcount := countFits_of_lineup_eq_ok h
    rw [lineup_eq_map hcount, Attempt.map_eq_ok_iff] at h
    obtain ⟨runs, hexpand, rfl⟩ := h
    obtain ⟨hflat, hclear, hfits⟩ := (expand_eq_ok_iff (Nat.zero_le _)).mp hexpand
    rw [Nat.zero_add] at hfits
    exact ⟨hcount, runs, hflat, hclear, hfits, rfl⟩
  · intro h
    obtain ⟨hcount, runs, hflat, hclear, hfits, rfl⟩ := h
    rw [lineup_eq_map hcount, Attempt.map_eq_ok_iff]
    exact ⟨runs, expand_eq_ok hflat hclear (by rwa [Nat.zero_add]), rfl⟩

/-- A profile has a lineup exactly if the catalog asks for no more runs than may be, it is defined,
everything reached from it has names and includes what is defined, it reaches no cycle, and all
paths of inclusions from it end in no more runs than may be. A catalog that asks for more runs is
refused whatever else is wrong. -/
theorem lineup_succeeds_iff (c : Catalog) (name : String) :
    ((∃ l, c.lineup name = .ok l) ↔
      (∀ count, c.count = some count → count.toNat ≤ runLimit) ∧
      c.Defines name ∧
      (∀ p, c.Reaches name p → ∀ entry ∈ c.entriesOf p,
        Text.trim entry.name ≠ "" ∧ ∀ q, entry = .inclusion q → c.Defines q) ∧
      (∀ p, c.Reaches name p → ¬TransGen c.Includes p p) ∧
      c.totalRuns name ≤ runLimit) ∧
    ∀ count, c.count = some count → runLimit < count.toNat →
      c.lineup name = .error (.profile (.countTooLarge count.toNat)) := by
  refine ⟨⟨?_, ?_⟩, fun count hc hlimit => lineup_of_count hc hlimit name⟩
  · intro h
    obtain ⟨l, hl⟩ := h
    obtain ⟨hcount, runs, hflat, hclear, hfits, -⟩ := lineup_eq_ok_iff.mp hl
    refine ⟨hcount, (hclear name (Reaches.refl c name)).1, ?_, hflat.acyclicFrom, ?_⟩
    · intro p hreach entry hmem
      refine ⟨(hclear p hreach).2.1 entry hmem, ?_⟩
      rintro q rfl
      exact (hclear q (ReflTransGen.tail hreach hmem)).1
    · rwa [← hflat.length_eq]
  · intro h
    obtain ⟨hcount, hdef, hsound, hacyclic, htotal⟩ := h
    have hdefines : ∀ q, c.Reaches name q → c.Defines q := by
      intro q hreach
      rcases ReflTransGen.cases_tail hreach with rfl | ⟨p, hp, hstep⟩
      · exact hdef
      · exact (hsound p hp _ hstep).2 q rfl
    obtain ⟨runs, hflat⟩ := exists_flattensTo (acc_of_acyclicFrom hacyclic) hdefines
    refine ⟨_, lineup_eq_ok_iff.mpr ⟨hcount, runs, hflat, ?_, ?_, rfl⟩⟩
    · intro q hreach
      exact ⟨hdefines q hreach, fun entry hmem => (hsound q hreach entry hmem).1, List.not_mem_nil⟩
    · rwa [hflat.length_eq]

end SuitePlan.Catalog
