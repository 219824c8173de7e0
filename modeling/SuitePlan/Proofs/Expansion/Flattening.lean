import SuitePlan.Proofs.Expansion.Paths

/-!
# Flattening

What the entries of a profile stand for, said without a path, a limit or a check of names: a
scenario stands for as many runs as it has weight, and an inclusion for what the entries of the
included profile stand for. A profile stands for at most one list of runs (`FlattensTo.unique`). It
stands for one exactly where inclusions come to an end in profiles that are all defined
(`FlattensTo.acc`, `exists_flattensTo`), and its length is then the total over all paths
(`FlattensTo.length_eq`).
-/

namespace SuitePlan.Catalog

/-- The runs that entries of the profile `p` stand for. -/
inductive Flattens (c : Catalog) : String → List Entry → List Run → Prop
  | nil {p : String} : c.Flattens p [] []
  | scenario {p : String} {s : Scenario} {rest : List Entry} {runs : List Run} :
      c.Flattens p rest runs →
      c.Flattens p (.scenario s :: rest)
        (List.replicate s.repeats ⟨s.name, s.placement, p, s.extras⟩ ++ runs)
  | inclusion {p q : String} {entries rest : List Entry} {inner runs : List Run} :
      c.profiles.get? q = some entries → c.Flattens q entries inner → c.Flattens p rest runs →
      c.Flattens p (.inclusion q :: rest) (inner ++ runs)

/-- The runs that a profile stands for. -/
def FlattensTo (c : Catalog) (name : String) (runs : List Run) : Prop :=
  ∃ entries, c.profiles.get? name = some entries ∧ c.Flattens name entries runs

variable {c : Catalog} {name p : String} {entry : Entry} {entries rest : List Entry}
  {runs runs' inner : List Run} {n : Nat}

theorem Flattens.append (h : c.Flattens p entries runs) (hrest : c.Flattens p rest runs') :
    c.Flattens p (entries ++ rest) (runs ++ runs') := by
  induction h with
  | nil => exact hrest
  | scenario _ ih =>
    rw [List.cons_append, List.append_assoc]
    exact .scenario (ih hrest)
  | inclusion hget hinner _ _ ih =>
    rw [List.cons_append, List.append_assoc]
    exact .inclusion hget hinner (ih hrest)

theorem flattens_scenario (c : Catalog) (p : String) (s : Scenario) :
    c.Flattens p [.scenario s] (scenarioRuns p s) := by
  rw [← List.append_nil (scenarioRuns p s)]
  exact .scenario .nil

theorem FlattensTo.inclusion (h : c.FlattensTo name runs) (p : String) :
    c.Flattens p [.inclusion name] runs := by
  obtain ⟨entries, hget, hflat⟩ := h
  rw [← List.append_nil runs]
  exact .inclusion hget hflat .nil

theorem Flattens.unique (h : c.Flattens p entries runs) (h' : c.Flattens p entries runs') :
    runs = runs' := by
  induction h generalizing runs' with
  | nil =>
    cases h'
    rfl
  | scenario _ ih =>
    cases h' with
    | scenario hrest' => rw [ih hrest']
  | inclusion hget _ _ ihinner ih =>
    cases h' with
    | inclusion hget' hinner' hrest' =>
      rw [hget, Option.some.injEq] at hget'
      subst hget'
      rw [ihinner hinner', ih hrest']

theorem FlattensTo.unique (h : c.FlattensTo name runs) (h' : c.FlattensTo name runs') :
    runs = runs' := by
  obtain ⟨entries, hget, hflat⟩ := h
  obtain ⟨entries', hget', hflat'⟩ := h'
  rw [hget, Option.some.injEq] at hget'
  subst hget'
  exact hflat.unique hflat'

/-! ## Where a profile stands for runs -/

theorem Flattens.acc (h : c.Flattens p entries runs) :
    ∀ q, Entry.inclusion q ∈ entries → Acc (fun q p => c.Includes p q) q := by
  induction h with
  | nil =>
    intro q hq
    exact absurd hq List.not_mem_nil
  | scenario _ ih =>
    intro q hq
    exact ih q (by simpa using hq)
  | @inclusion _ r entries _ _ _ hget _ _ ihinner ih =>
    intro q hq
    rcases List.mem_cons.mp hq with heq | hq
    · cases heq
      exact Acc.intro r fun q hq => ihinner q ((includes_iff hget).mp hq)
    · exact ih q hq

theorem FlattensTo.acc (h : c.FlattensTo name runs) : Acc (fun q p => c.Includes p q) name := by
  obtain ⟨entries, hget, hflat⟩ := h
  exact Acc.intro name fun q hq => hflat.acc q ((includes_iff hget).mp hq)

theorem FlattensTo.acyclicFrom (h : c.FlattensTo name runs) : c.AcyclicFrom name :=
  acyclicFrom_of_acc h.acc

theorem exists_flattens (h : ∀ q, Entry.inclusion q ∈ entries → ∃ runs, c.FlattensTo q runs) :
    ∃ runs, c.Flattens p entries runs := by
  induction entries with
  | nil => exact ⟨[], .nil⟩
  | cons entry rest ih =>
    obtain ⟨runs, hrest⟩ := ih fun q hq => h q (List.mem_cons_of_mem _ hq)
    cases entry with
    | scenario s => exact ⟨_, .scenario hrest⟩
    | inclusion q =>
      obtain ⟨inner, entries, hget, hinner⟩ := h q List.mem_cons_self
      exact ⟨_, .inclusion hget hinner hrest⟩

theorem exists_flattensTo (hacc : Acc (fun q p => c.Includes p q) name)
    (hdef : ∀ q, c.Reaches name q → c.Defines q) : ∃ runs, c.FlattensTo name runs := by
  induction hacc with
  | intro name _ ih =>
    obtain ⟨entries, hget⟩ := defines_iff.mp (hdef name (Reaches.refl c name))
    have hinner : ∀ q, Entry.inclusion q ∈ entries → ∃ runs, c.FlattensTo q runs := by
      intro q hq
      have hstep : c.Includes name q := (includes_iff hget).mpr hq
      exact ih q hstep fun r hr => hdef r (hr.of_includes hstep)
    obtain ⟨runs, hflat⟩ := exists_flattens (p := name) hinner
    exact ⟨runs, entries, hget, hflat⟩

/-! ## How many runs -/

theorem Flattens.length_eq (h : c.Flattens p entries runs)
    (hnil : ∀ q, Entry.inclusion q ∈ entries → c.pathsOfLength n q = []) :
    runs.length = (entries.map (entryRuns (c.runsWithin n))).sum := by
  induction h generalizing n with
  | nil => rfl
  | scenario _ ih =>
    rw [List.length_append, List.length_replicate, List.map_cons, List.sum_cons,
      ih fun q hq => hnil q (List.mem_cons_of_mem _ hq), entryRuns]
  | @inclusion _ q entries _ _ _ hget _ _ ihinner ih =>
    have hq := hnil q List.mem_cons_self
    rw [List.length_append, List.map_cons, List.sum_cons,
      ih fun q hq => hnil q (List.mem_cons_of_mem _ hq), entryRuns]
    congr 1
    cases n with
    | zero => simp [pathsOfLength] at hq
    | succ n =>
      rw [runsWithin, entriesOf_eq hget]
      refine ihinner fun r hr => ?_
      exact pathsOfLength_eq_nil_of_includes hq ((includes_iff hget).mpr hr)

/-- A profile stands for as many runs as all paths from it end in. -/
theorem FlattensTo.length_eq (h : c.FlattensTo name runs) : runs.length = c.totalRuns name := by
  have hacyclic := h.acyclicFrom
  obtain ⟨entries, hget, hflat⟩ := h
  rw [totalRuns_eq, runsWithin, entriesOf_eq hget]
  refine hflat.length_eq fun q hq => ?_
  exact pathsOfLength_eq_nil_of_includes (pathsOfLength_eq_nil hacyclic (Nat.lt_succ_self _))
    ((includes_iff hget).mpr hq)

end SuitePlan.Catalog
