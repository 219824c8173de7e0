import SuitePlan.Proofs.Expansion.Success

/-!
# Rewriting a profile

An inclusion may be replaced by the entries of the included profile, and a scenario with a weight by
so many copies of itself without one. Wherever in a catalog this is done, a profile has a lineup
after it exactly if it had one before, and the tasks of the lineup are the same
(`lineup_rewritten`). Only the profiles that the runs are said to come from may change.

Tasks are runs without that. What entries yield (`Yields`) is said in tasks, so that it does not
depend on whose entries they are, and a catalog yields what another yields as soon as each of its
profiles does (`RefinedBy.yieldsTo`).
-/

namespace SuitePlan

/-- What a run comes down to for whoever runs it, whichever profile lists the scenario. -/
structure Task where
  scenario : String
  placement : Placement
  extras : Table String
  deriving DecidableEq

/-- The task of a run. -/
def Run.task (run : Run) : Task := ⟨run.scenario, run.placement, run.extras⟩

/-- The task of each run of a scenario. -/
def Scenario.task (s : Scenario) : Task := ⟨s.name, s.placement, s.extras⟩

/-! ## Tasks of a lineup -/

namespace Lineup

variable {runs runs' : List Run}

/-- The tasks of a lineup in their order. -/
def tasks (l : Lineup) : List Task := l.runs.map Run.task

theorem map_task_placed (p : Placement) (runs : List Run) :
    (placed p runs).map Run.task = (runs.map Run.task).filter fun task => task.placement == p := by
  rw [List.filter_map]
  rfl

theorem map_task_arrange (h : runs.map Run.task = runs'.map Run.task) :
    (arrange runs).map Run.task = (arrange runs').map Run.task := by
  simp only [arrange, List.map_append, map_task_placed, h]

theorem map_cycled {α β : Type} (f : α → β) (count : Nat) (xs : List α) :
    (cycled count xs).map f = cycled count (xs.map f) := by
  cases xs with
  | nil => simp
  | cons x rest =>
    simp only [cycled, List.map_cons, List.size_toArray, List.length_cons, List.length_map,
      Nat.zero_lt_succ, dite_true, List.map_map, List.getElem_toArray]
    refine List.map_congr_left fun i _ => ?_
    rw [Function.comp_apply]
    simp only [← List.map_cons, List.getElem_map]

theorem map_task_fit (count : Option UInt64) (h : runs.map Run.task = runs'.map Run.task) :
    (fit count runs).map Run.task = (fit count runs').map Run.task := by
  cases count with
  | none => exact h
  | some count => rw [fit, fit, map_cycled, map_cycled, h]

end Lineup

namespace Catalog

open Relation

/-! ## What entries yield -/

/-- The tasks that entries come down to. All names on the way must be given, and all included
profiles defined. -/
inductive Yields (c : Catalog) : List Entry → List Task → Prop
  | nil : c.Yields [] []
  | scenario {s : Scenario} {rest : List Entry} {tasks : List Task} :
      Text.trim s.name ≠ "" → c.Yields rest tasks →
      c.Yields (.scenario s :: rest) (List.replicate s.repeats s.task ++ tasks)
  | inclusion {q : String} {entries rest : List Entry} {inner tasks : List Task} :
      Text.trim q ≠ "" → c.profiles.get? q = some entries → c.Yields entries inner →
      c.Yields rest tasks → c.Yields (.inclusion q :: rest) (inner ++ tasks)

/-- The tasks that the entries of a profile come down to. -/
def YieldsTo (c : Catalog) (name : String) (tasks : List Task) : Prop :=
  ∃ entries, c.profiles.get? name = some entries ∧ c.Yields entries tasks

variable {c d : Catalog} {name p q : String} {s : Scenario} {entry : Entry}
  {entries rest before after replacement : List Entry} {tasks : List Task} {runs : List Run}
  {l l' : Lineup}

theorem Yields.append {more : List Task} (h : c.Yields entries tasks) (hrest : c.Yields rest more) :
    c.Yields (entries ++ rest) (tasks ++ more) := by
  induction h with
  | nil => exact hrest
  | scenario hname _ ih =>
    rw [List.cons_append, List.append_assoc]
    exact .scenario hname ih
  | inclusion hname hget hinner _ _ ih =>
    rw [List.cons_append, List.append_assoc]
    exact .inclusion hname hget hinner ih

theorem yields_append_iff :
    c.Yields (entries ++ rest) tasks ↔
      ∃ first later, c.Yields entries first ∧ c.Yields rest later ∧ first ++ later = tasks := by
  constructor
  · intro h
    induction entries generalizing tasks with
    | nil => exact ⟨[], tasks, .nil, h, rfl⟩
    | cons entry more ih =>
      cases h with
      | scenario hname hmore =>
        obtain ⟨first, later, hfirst, hlater, rfl⟩ := ih hmore
        exact ⟨_, later, .scenario hname hfirst, hlater, List.append_assoc _ _ _⟩
      | inclusion hname hget hinner hmore =>
        obtain ⟨first, later, hfirst, hlater, rfl⟩ := ih hmore
        exact ⟨_, later, .inclusion hname hget hinner hfirst, hlater, List.append_assoc _ _ _⟩
  · rintro ⟨first, later, hfirst, hlater, rfl⟩
    exact hfirst.append hlater

/-- Entries in the middle may be exchanged for others that yield the same. -/
theorem Yields.exchange (h : c.Yields (before ++ entries ++ after) tasks)
    (hmiddle : ∀ ts, c.Yields entries ts → c.Yields replacement ts) :
    c.Yields (before ++ replacement ++ after) tasks := by
  obtain ⟨front, last, hfront, hlast, rfl⟩ := yields_append_iff.mp h
  obtain ⟨first, middle, hfirst, hmid, rfl⟩ := yields_append_iff.mp hfront
  exact (hfirst.append (hmiddle middle hmid)).append hlast

theorem yields_inclusion_iff :
    c.Yields [.inclusion q] tasks ↔ Text.trim q ≠ "" ∧ c.YieldsTo q tasks := by
  constructor
  · intro h
    cases h with
    | inclusion hname hget hinner hnil =>
      cases hnil
      rw [List.append_nil]
      exact ⟨hname, _, hget, hinner⟩
  · rintro ⟨hname, entries, hget, hinner⟩
    have h := Yields.inclusion hname hget hinner .nil
    rwa [List.append_nil] at h

theorem yields_scenario_iff :
    c.Yields [.scenario s] tasks ↔
      Text.trim s.name ≠ "" ∧ tasks = List.replicate s.repeats s.task := by
  constructor
  · intro h
    cases h with
    | scenario hname hnil =>
      cases hnil
      exact ⟨hname, List.append_nil _⟩
  · rintro ⟨hname, rfl⟩
    have h := Yields.scenario (c := c) hname .nil
    rwa [List.append_nil] at h

/-! ## Where lineups come from -/

theorem Yields.named (h : c.Yields entries tasks) :
    ∀ entry ∈ entries, Text.trim entry.name ≠ "" := by
  induction h with
  | nil => simp
  | scenario hname _ ih => exact List.forall_mem_cons.mpr ⟨hname, ih⟩
  | inclusion hname _ _ _ _ ih => exact List.forall_mem_cons.mpr ⟨hname, ih⟩

/-- While nothing is being expanded, a profile is clear if its own entries are. -/
theorem clearOf_nil_iff (hget : c.profiles.get? name = some entries) :
    c.ClearOf [] name ↔
      (∀ entry ∈ entries, Text.trim entry.name ≠ "") ∧
        ∀ q, Entry.inclusion q ∈ entries → c.ClearOf [] q := by
  constructor
  · intro h
    have hnames := (h name (Reaches.refl c name)).2.1
    rw [NamesEntries, entriesOf_eq hget] at hnames
    exact ⟨hnames, fun q hmem r hr => h r (hr.of_includes ((includes_iff hget).mpr hmem))⟩
  · rintro ⟨hnames, hclear⟩ q hreach
    rcases ReflTransGen.cases_head hreach with rfl | ⟨r, hstep, hreach⟩
    · rw [NamesEntries, entriesOf_eq hget]
      exact ⟨defines_of_get? hget, hnames, List.not_mem_nil⟩
    · exact hclear r ((includes_iff hget).mp hstep) q hreach

theorem Yields.clear (h : c.Yields entries tasks) :
    ∀ q, Entry.inclusion q ∈ entries → c.ClearOf [] q := by
  induction h with
  | nil => simp
  | scenario _ _ ih =>
    intro q hmem
    exact ih q (by simpa using hmem)
  | inclusion _ hget hinner _ ihinner ih =>
    intro q hmem
    rcases List.mem_cons.mp hmem with heq | hmem
    · cases heq
      exact (clearOf_nil_iff hget).mpr ⟨hinner.named, ihinner⟩
    · exact ih q hmem

/-- The runs that entries stand for do what the entries yield, whoever lists them. -/
theorem Yields.exists_flattens (h : c.Yields entries tasks) (p : String) :
    ∃ runs, c.Flattens p entries runs ∧ runs.map Run.task = tasks := by
  induction h generalizing p with
  | nil => exact ⟨[], .nil, rfl⟩
  | scenario _ _ ih =>
    obtain ⟨runs, hflat, rfl⟩ := ih p
    exact ⟨_, .scenario hflat, by simp [Run.task, Scenario.task]⟩
  | @inclusion q _ _ _ _ _ hget _ _ ihinner ih =>
    obtain ⟨inner, hinner, rfl⟩ := ihinner q
    obtain ⟨runs, hflat, rfl⟩ := ih p
    exact ⟨_, .inclusion hget hinner hflat, List.map_append⟩

theorem Flattens.yields (h : c.Flattens p entries runs)
    (hnamed : ∀ entry ∈ entries, Text.trim entry.name ≠ "")
    (hclear : ∀ q, Entry.inclusion q ∈ entries → c.ClearOf [] q) :
    c.Yields entries (runs.map Run.task) := by
  induction h with
  | nil => exact .nil
  | @scenario p s rest runs _ ih =>
    rw [List.forall_mem_cons] at hnamed
    have hrest := ih hnamed.2 fun q hmem => hclear q (List.mem_cons_of_mem _ hmem)
    rw [List.map_append, List.map_replicate]
    exact .scenario hnamed.1 hrest
  | @inclusion p q entries rest inner runs hget _ _ ihinner ih =>
    rw [List.forall_mem_cons] at hnamed
    have hrest := ih hnamed.2 fun q hmem => hclear q (List.mem_cons_of_mem _ hmem)
    obtain ⟨hnames, hinner⟩ := (clearOf_nil_iff hget).mp (hclear q List.mem_cons_self)
    rw [List.map_append]
    exact .inclusion hnamed.1 hget (ihinner hnames hinner) hrest

theorem yieldsTo_of_lineup (h : c.lineup name = .ok l) :
    ∃ runs, c.YieldsTo name (runs.map Run.task) ∧ runs.length ≤ runLimit ∧
      l = ⟨name, Lineup.fit c.count (Lineup.arrange runs)⟩ := by
  obtain ⟨-, runs, ⟨entries, hget, hflat⟩, hclear, hfits, rfl⟩ := lineup_eq_ok_iff.mp h
  obtain ⟨hnames, hinner⟩ := (clearOf_nil_iff hget).mp hclear
  exact ⟨runs, ⟨entries, hget, hflat.yields hnames hinner⟩, hfits, rfl⟩

theorem lineup_of_yieldsTo (hcount : c.CountFits) (h : c.YieldsTo name tasks)
    (hfits : tasks.length ≤ runLimit) :
    ∃ runs, runs.map Run.task = tasks ∧
      c.lineup name = .ok ⟨name, Lineup.fit c.count (Lineup.arrange runs)⟩ := by
  obtain ⟨entries, hget, hyields⟩ := h
  obtain ⟨runs, hflat, rfl⟩ := hyields.exists_flattens name
  rw [List.length_map] at hfits
  have hclear := (clearOf_nil_iff hget).mpr ⟨hyields.named, hyields.clear⟩
  exact ⟨runs, rfl, lineup_eq_ok_iff.mpr ⟨hcount, runs, ⟨entries, hget, hflat⟩, hclear, hfits, rfl⟩⟩

/-! ## From one catalog to another -/

/-- What the entries of a profile of `c` yield in `d`, the profile of that name in `d` yields. -/
def RefinedBy (c d : Catalog) : Prop :=
  ∀ q entries tasks, c.profiles.get? q = some entries → d.Yields entries tasks → d.YieldsTo q tasks

theorem RefinedBy.yields (h : c.RefinedBy d) (hyields : c.Yields entries tasks) :
    d.Yields entries tasks := by
  induction hyields with
  | nil => exact .nil
  | scenario hname _ ih => exact .scenario hname ih
  | inclusion hname hget _ _ ihinner ih =>
    obtain ⟨entries', hget', hinner⟩ := h _ _ _ hget ihinner
    exact .inclusion hname hget' hinner ih

theorem RefinedBy.yieldsTo (h : c.RefinedBy d) (hyields : c.YieldsTo name tasks) :
    d.YieldsTo name tasks := by
  obtain ⟨entries, hget, hyields⟩ := hyields
  exact h name entries tasks hget (h.yields hyields)

theorem RefinedBy.exists_lineup (h : c.RefinedBy d) (hcount : d.count = c.count)
    (hl : c.lineup name = .ok l) : ∃ l', d.lineup name = .ok l' ∧ l'.tasks = l.tasks := by
  have hfitsCount : d.CountFits := by
    rw [CountFits, hcount]
    exact countFits_of_lineup_eq_ok hl
  obtain ⟨runs, hyields, hfits, rfl⟩ := yieldsTo_of_lineup hl
  obtain ⟨runs', htasks, hl'⟩ :=
    lineup_of_yieldsTo hfitsCount (h.yieldsTo hyields) (by rwa [List.length_map])
  refine ⟨_, hl', ?_⟩
  rw [hcount]
  exact Lineup.map_task_fit _ (Lineup.map_task_arrange htasks)

/-! ## Rewriting -/

/-- The catalog with other entries for a profile. -/
def withProfile (c : Catalog) (p : String) (entries : List Entry) : Catalog :=
  { c with profiles := c.profiles.insert p entries }

theorem get?_withProfile_self (c : Catalog) (p : String) (entries : List Entry) :
    (c.withProfile p entries).profiles.get? p = some entries := by
  rw [withProfile, Table.get?_insert, if_pos rfl]

theorem get?_withProfile (h : q ≠ p) :
    (c.withProfile p entries).profiles.get? q = c.profiles.get? q := by
  rw [withProfile, Table.get?_insert, if_neg h.symm]

/-- What may stand in the place of an entry of the profile `p`: for an inclusion of another profile
the entries of that, for a scenario with a weight so many copies without one. -/
inductive Rewrites (c : Catalog) (p : String) : Entry → List Entry → Prop
  | inlined {q : String} {entries : List Entry} : Text.trim q ≠ "" → q ≠ p →
      c.profiles.get? q = some entries → c.Rewrites p (.inclusion q) entries
  | unrolled {s : Scenario} : Text.trim s.name ≠ "" →
      c.Rewrites p (.scenario s) (List.replicate s.repeats (.scenario { s with weight := none }))

theorem yields_replicate_iff (hname : Text.trim s.name ≠ "") (hweight : s.repeats = 1) (n : Nat) :
    c.Yields (List.replicate n (.scenario s)) tasks ↔ tasks = List.replicate n s.task := by
  induction n generalizing tasks with
  | zero =>
    constructor
    · intro h
      cases h
      rfl
    · rintro rfl
      exact .nil
  | succ n ih =>
    rw [List.replicate_succ, ← List.singleton_append, yields_append_iff, List.replicate_succ]
    simp only [yields_scenario_iff, hweight, List.replicate_one, ih]
    constructor
    · rintro ⟨_, _, ⟨-, rfl⟩, rfl, rfl⟩
      rfl
    · rintro rfl
      exact ⟨_, _, ⟨hname, rfl⟩, rfl, rfl⟩

/-- An entry and what it is rewritten to yield the same, also in a catalog with another profile
`p`. -/
theorem Rewrites.yields_iff (h : c.Rewrites p entry replacement)
    (hd : ∀ q, q ≠ p → d.profiles.get? q = c.profiles.get? q) :
    d.Yields [entry] tasks ↔ d.Yields replacement tasks := by
  cases h with
  | @inlined q _ hname hne hget =>
    rw [yields_inclusion_iff, YieldsTo, hd q hne, hget]
    simp [hname]
  | @unrolled s hname =>
    rw [yields_scenario_iff, yields_replicate_iff (s := { s with weight := none }) hname rfl]
    simp [hname, Scenario.task]

theorem Rewrites.refinedBy (h : c.Rewrites p entry replacement)
    (hp : c.profiles.get? p = some (before ++ [entry] ++ after)) :
    c.RefinedBy (c.withProfile p (before ++ replacement ++ after)) := by
  intro q entries tasks hget hyields
  by_cases hq : q = p
  · subst hq
    rw [hp, Option.some.injEq] at hget
    subst hget
    refine ⟨_, get?_withProfile_self c q _, hyields.exchange fun ts => ?_⟩
    exact (h.yields_iff fun r hr => get?_withProfile hr).mp
  · exact ⟨entries, (get?_withProfile hq).trans hget, hyields⟩

theorem Rewrites.refinedBy_back (h : c.Rewrites p entry replacement)
    (hp : c.profiles.get? p = some (before ++ [entry] ++ after)) :
    (c.withProfile p (before ++ replacement ++ after)).RefinedBy c := by
  intro q entries tasks hget hyields
  by_cases hq : q = p
  · subst hq
    rw [get?_withProfile_self, Option.some.injEq] at hget
    subst hget
    exact ⟨_, hp, hyields.exchange fun ts => (h.yields_iff fun r _ => rfl).mpr⟩
  · exact ⟨entries, (get?_withProfile hq).symm.trans hget, hyields⟩

/-- Where an entry of a profile is rewritten, be it an inclusion that gives way to the entries of
another profile or a scenario that gives way to copies, any profile of the catalog has a lineup if
and only if it had one before, and both lineups have the same tasks. -/
theorem lineup_rewritten (hp : c.profiles.get? p = some (before ++ [entry] ++ after))
    (h : c.Rewrites p entry replacement) (name : String) :
    ((∃ l, c.lineup name = .ok l) ↔
      ∃ l', (c.withProfile p (before ++ replacement ++ after)).lineup name = .ok l') ∧
    ∀ l l', c.lineup name = .ok l →
      (c.withProfile p (before ++ replacement ++ after)).lineup name = .ok l' →
      l'.tasks = l.tasks := by
  have hforth : ∀ {l}, c.lineup name = .ok l → ∃ l',
      (c.withProfile p (before ++ replacement ++ after)).lineup name = .ok l' ∧
        l'.tasks = l.tasks := (h.refinedBy hp).exists_lineup rfl
  refine ⟨⟨?_, ?_⟩, ?_⟩
  · rintro ⟨l, hl⟩
    obtain ⟨l', hl', -⟩ := hforth hl
    exact ⟨l', hl'⟩
  · rintro ⟨l', hl'⟩
    obtain ⟨l, hl, -⟩ := (h.refinedBy_back hp).exists_lineup rfl hl'
    exact ⟨l, hl⟩
  · intro l l' hl hl'
    obtain ⟨m, hm, htasks⟩ := hforth hl
    rw [hm, Except.ok.injEq] at hl'
    rwa [← hl']

/-- An entry that lists one scenario. -/
def weightedEntry (weight : Option UInt32) : Entry :=
  .scenario ⟨"x", .early, weight, .empty⟩

/-- A scenario with a weight between two inclusions of one profile, in a profile that another one
includes. -/
def weighted : Catalog where
  count := some 5
  profiles := .ofList [
    ("a", [.inclusion "b", weightedEntry (some 2), .inclusion "b"]),
    ("b", [.scenario ⟨"y", .late, none, .empty⟩]),
    ("c", [.inclusion "a"])]

theorem lineup_rewritten_weighted :
    weighted.Rewrites "a" (.inclusion "b") [.scenario ⟨"y", .late, none, .empty⟩] ∧
    (∃ l, (weighted.withProfile "a" [.inclusion "b", weightedEntry (some 2),
      .scenario ⟨"y", .late, none, .empty⟩]).lineup "c" = .ok l ∧
      l.tasks.map Task.scenario = ["x", "x", "y", "y", "x"]) ∧
    weighted.Rewrites "a" (weightedEntry (some 2)) [weightedEntry none, weightedEntry none] ∧
    ∃ l, (weighted.withProfile "a" [.inclusion "b", weightedEntry none, weightedEntry none,
      .inclusion "b"]).lineup "c" = .ok l ∧
      l.tasks.map Task.scenario = ["x", "x", "y", "y", "x"] := by
  have hlast : weighted.profiles.get? "a" =
      some ([.inclusion "b", weightedEntry (some 2)] ++ [.inclusion "b"] ++ []) := by cbv
  have hmiddle : weighted.profiles.get? "a" =
      some ([.inclusion "b"] ++ [weightedEntry (some 2)] ++ [.inclusion "b"]) := by cbv
  have hinlined : weighted.Rewrites "a" (.inclusion "b") [.scenario ⟨"y", .late, none, .empty⟩] :=
    .inlined (by decide +kernel) (by decide) (by cbv)
  have hunrolled : weighted.Rewrites "a" (weightedEntry (some 2))
      [weightedEntry none, weightedEntry none] := .unrolled (by decide +kernel)
  obtain ⟨l, hl, htasks⟩ : ∃ l, weighted.lineup "c" = .ok l ∧
      l.tasks.map Task.scenario = ["x", "x", "y", "y", "x"] := ⟨_, by cbv, by cbv⟩
  obtain ⟨hexists, hsame⟩ := lineup_rewritten hlast hinlined "c"
  obtain ⟨hexists', hsame'⟩ := lineup_rewritten hmiddle hunrolled "c"
  obtain ⟨m, hm⟩ := hexists.mp ⟨l, hl⟩
  obtain ⟨m', hm'⟩ := hexists'.mp ⟨l, hl⟩
  refine ⟨hinlined, ⟨m, hm, ?_⟩, hunrolled, m', hm', ?_⟩
  · rw [hsame l m hl hm, htasks]
  · rw [hsame' l m' hl hm', htasks]

end Catalog

end SuitePlan
