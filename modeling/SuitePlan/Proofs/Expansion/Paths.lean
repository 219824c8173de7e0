import Mathlib
import SuitePlan.Proofs.Expansion.Graph

/-!
# Paths of inclusions

A path from a profile takes an inclusion of it, then one of the included profile, and so on. It is
given by the places of the inclusions it takes, so that two inclusions of one profile make two
paths. `totalRuns` adds up what the profiles at the ends of all paths list, once for each path.

From a profile that reaches no cycle no path is longer than there are profiles
(`pathsOfLength_eq_nil`), so that `paths` leaves none out (`mem_paths_iff`), and it names none twice
(`nodup_paths`). `runsWithin` is the same sum by recursion over the entries.
-/

namespace SuitePlan

open Relation

/-- How many runs an entry stands for by itself. -/
def Entry.ownRuns : Entry → Nat
  | .scenario s => s.repeats
  | .inclusion _ => 0

namespace Catalog

/-- The inclusions at the given places, taken one after the other, lead from `p` to `q`. -/
inductive Leads (c : Catalog) : String → List Nat → String → Prop
  | here (p : String) : c.Leads p [] p
  | through {p q r : String} {i : Nat} {is : List Nat} :
      (c.entriesOf p)[i]? = some (.inclusion q) → c.Leads q is r → c.Leads p (i :: is) r

/-- The paths that begin with an entry and go on with one of `paths`. -/
def pathsThrough (paths : String → List (List Nat × String)) :
    Entry × Nat → List (List Nat × String)
  | (.scenario _, _) => []
  | (.inclusion q, i) => (paths q).map fun path => (i :: path.1, path.2)

/-- The paths of a length from a profile, each with the profile in which it ends. -/
def pathsOfLength (c : Catalog) : Nat → String → List (List Nat × String)
  | 0, name => [([], name)]
  | n + 1, name => (c.entriesOf name).zipIdx.flatMap (pathsThrough (c.pathsOfLength n))

/-- The paths from a profile that are no longer than there are profiles. -/
def paths (c : Catalog) (name : String) : List (List Nat × String) :=
  (List.range (c.profiles.size + 1)).flatMap fun n => c.pathsOfLength n name

/-- How many runs the scenarios among the entries of a profile stand for. -/
def listedRuns (c : Catalog) (name : String) : Nat :=
  ((c.entriesOf name).map Entry.ownRuns).sum

/-- The listed runs at the ends of all paths from a profile, once for each path. -/
def totalRuns (c : Catalog) (name : String) : Nat :=
  ((c.paths name).map fun path => c.listedRuns path.2).sum

variable {c : Catalog} {name p q : String} {n : Nat}

theorem mem_pathsThrough_iff {paths : String → List (List Nat × String)} {entry : Entry} {i : Nat}
    {path : List Nat × String} :
    path ∈ pathsThrough paths (entry, i) ↔
      ∃ q is, entry = .inclusion q ∧ path.1 = i :: is ∧ (is, path.2) ∈ paths q := by
  obtain ⟨places, last⟩ := path
  cases entry with
  | scenario s => simp [pathsThrough]
  | inclusion q =>
    simp only [pathsThrough, List.mem_map, Prod.exists, Prod.mk.injEq, Entry.inclusion.injEq]
    constructor
    · rintro ⟨is, r, hmem, rfl, rfl⟩
      exact ⟨q, is, rfl, rfl, hmem⟩
    · rintro ⟨_, is, rfl, rfl, hmem⟩
      exact ⟨is, last, hmem, rfl, rfl⟩

/-- The enumeration of paths holds exactly the paths of its length. -/
theorem mem_pathsOfLength_iff {path : List Nat × String} :
    path ∈ c.pathsOfLength n name ↔ path.1.length = n ∧ c.Leads name path.1 path.2 := by
  obtain ⟨places, last⟩ := path
  induction n generalizing name places with
  | zero =>
    simp only [pathsOfLength, List.mem_singleton, Prod.mk.injEq, List.length_eq_zero_iff]
    constructor
    · rintro ⟨rfl, rfl⟩
      exact ⟨rfl, .here last⟩
    · rintro ⟨rfl, h⟩
      cases h with
      | here => exact ⟨rfl, rfl⟩
  | succ n ih =>
    simp only [pathsOfLength, List.mem_flatMap, Prod.exists, List.mk_mem_zipIdx_iff_getElem?,
      mem_pathsThrough_iff, ih]
    constructor
    · rintro ⟨entry, i, hi, q, is, rfl, rfl, hlen, hleads⟩
      exact ⟨by rw [List.length_cons, hlen], .through hi hleads⟩
    · rintro ⟨hlen, hleads⟩
      cases hleads with
      | here => simp at hlen
      | @through _ q _ i is hi hrest =>
        exact ⟨.inclusion q, i, hi, q, is, rfl, rfl, by simpa using hlen, hrest⟩

theorem nodup_pathsOfLength : (c.pathsOfLength n name).Nodup := by
  induction n generalizing name with
  | zero => simp [pathsOfLength]
  | succ n ih =>
    rw [pathsOfLength, List.nodup_flatMap]
    constructor
    · rintro ⟨entry, i⟩ -
      cases entry with
      | scenario s => simp [pathsThrough]
      | inclusion q =>
        refine List.Nodup.map (fun a b h => ?_) ih
        simp only [Prod.mk.injEq, List.cons.injEq, true_and] at h
        exact Prod.ext h.1 h.2
    · -- paths that begin at different places differ in their first place
      have hplaces : (c.entriesOf name).zipIdx.Pairwise fun a b => a.2 ≠ b.2 := by
        rw [← List.pairwise_map, List.zipIdx_map_snd]
        exact List.nodup_range'
      refine hplaces.imp ?_
      rintro ⟨entry, i⟩ ⟨entry', j⟩ hne path h h'
      obtain ⟨q, is, -, hi, -⟩ := mem_pathsThrough_iff.mp h
      obtain ⟨q', js, -, hj, -⟩ := mem_pathsThrough_iff.mp h'
      rw [hi, List.cons.injEq] at hj
      exact hne hj.1

/-! ## Length -/

/-- Where all of `path` leads to `name`, no more steps follow than profiles are left. -/
private theorem pathsOfLength_eq_nil_of_remaining {path : List String}
    (hpath : ∀ a ∈ path, TransGen c.Includes a name) (hacyclic : c.AcyclicFrom name)
    (hlt : c.remaining path < n) : c.pathsOfLength n name = [] := by
  induction n generalizing name path with
  | zero => exact absurd hlt (Nat.not_lt_zero _)
  | succ n ih =>
    by_cases hdef : c.Defines name
    · obtain ⟨entries, hget⟩ := defines_iff.mp hdef
      have hnew : name ∉ path := fun hmem => hacyclic name (Reaches.refl c name) (hpath name hmem)
      have hfewer := remaining_lt hnew hget
      rw [pathsOfLength, List.flatMap_eq_nil_iff]
      rintro ⟨entry, i⟩ hmem
      cases entry with
      | scenario s => rfl
      | inclusion q =>
        have hstep : c.Includes name q :=
          List.mem_of_getElem? (List.mk_mem_zipIdx_iff_getElem?.mp hmem)
        have hnil : c.pathsOfLength n q = [] := by
          have hlt' : c.remaining (name :: path) < n := by omega
          refine ih ?_ (hacyclic.of_includes hstep) hlt'
          intro a ha
          rcases List.mem_cons.mp ha with rfl | ha
          · exact TransGen.single hstep
          · exact TransGen.tail (hpath a ha) hstep
        rw [pathsThrough, hnil, List.map_nil]
    · rw [pathsOfLength, entriesOf_eq_nil hdef, List.zipIdx_nil, List.flatMap_nil]

theorem remaining_nil (c : Catalog) : c.remaining [] = c.profiles.size := by
  simp [remaining, Table.keys, Table.size]

/-- Without a cycle no path is longer than there are profiles. -/
theorem pathsOfLength_eq_nil (h : c.AcyclicFrom name) (hn : c.profiles.size < n) :
    c.pathsOfLength n name = [] := by
  have hlt : c.remaining [] < n := by rwa [remaining_nil]
  refine pathsOfLength_eq_nil_of_remaining ?_ h hlt
  intro a ha
  exact absurd ha List.not_mem_nil

theorem pathsOfLength_eq_nil_of_includes (h : c.pathsOfLength (n + 1) p = [])
    (hstep : c.Includes p q) : c.pathsOfLength n q = [] := by
  obtain ⟨i, hi⟩ := List.mem_iff_getElem?.mp hstep
  rw [pathsOfLength, List.flatMap_eq_nil_iff] at h
  have hmap := h (.inclusion q, i) (List.mk_mem_zipIdx_iff_getElem?.mpr hi)
  exact List.map_eq_nil_iff.mp hmap

/-- Where no path has some length, inclusions come to an end. -/
theorem acc_of_pathsOfLength_eq_nil (h : c.pathsOfLength n name = []) :
    Acc (fun q p => c.Includes p q) name := by
  induction n generalizing name with
  | zero => simp [pathsOfLength] at h
  | succ n ih =>
    exact Acc.intro name fun q hstep => ih (pathsOfLength_eq_nil_of_includes h hstep)

theorem acc_of_acyclicFrom (h : c.AcyclicFrom name) : Acc (fun q p => c.Includes p q) name :=
  acc_of_pathsOfLength_eq_nil (pathsOfLength_eq_nil h (Nat.lt_succ_self _))

theorem mem_paths_iff {path : List Nat × String} (h : c.AcyclicFrom name) :
    path ∈ c.paths name ↔ c.Leads name path.1 path.2 := by
  simp only [paths, List.mem_flatMap, List.mem_range, mem_pathsOfLength_iff]
  constructor
  · rintro ⟨n, -, -, hleads⟩
    exact hleads
  · intro hleads
    refine ⟨path.1.length, ?_, rfl, hleads⟩
    by_contra hlong
    have hnil := pathsOfLength_eq_nil h (n := path.1.length) (by omega)
    have hmem : path ∈ c.pathsOfLength path.1.length name :=
      mem_pathsOfLength_iff.mpr ⟨rfl, hleads⟩
    rw [hnil] at hmem
    exact absurd hmem List.not_mem_nil

theorem nodup_paths (c : Catalog) (name : String) : (c.paths name).Nodup := by
  rw [paths, List.nodup_flatMap]
  refine ⟨fun n _ => nodup_pathsOfLength, ?_⟩
  refine List.nodup_range.imp ?_
  intro m n hne path hm hn
  exact hne ((mem_pathsOfLength_iff.mp hm).1.symm.trans (mem_pathsOfLength_iff.mp hn).1)

/-! ## Totals -/

/-- The runs of an entry, where an inclusion counts as `runs` says. -/
def entryRuns (runs : String → Nat) : Entry → Nat
  | .scenario s => s.repeats
  | .inclusion q => runs q

/-- The listed runs at the ends of the paths shorter than `n`. -/
def runsWithin (c : Catalog) : Nat → String → Nat
  | 0, _ => 0
  | n + 1, name => ((c.entriesOf name).map (entryRuns (c.runsWithin n))).sum

/-- The listed runs at the ends of the paths of a length. -/
def runsAt (c : Catalog) (n : Nat) (name : String) : Nat :=
  ((c.pathsOfLength n name).map fun path => c.listedRuns path.2).sum

theorem runsAt_zero (c : Catalog) (name : String) : c.runsAt 0 name = c.listedRuns name := by
  simp [runsAt, pathsOfLength]

theorem runsAt_succ (c : Catalog) (n : Nat) (name : String) :
    c.runsAt (n + 1) name =
      ((c.entriesOf name).map fun entry =>
        match entry with
        | .scenario _ => 0
        | .inclusion q => c.runsAt n q).sum := by
  rw [runsAt, pathsOfLength]
  generalize c.entriesOf name = entries
  suffices h : ∀ k, (((entries.zipIdx k).flatMap (pathsThrough (c.pathsOfLength n))).map
      fun path => c.listedRuns path.2).sum = _ from h 0
  intro k
  induction entries generalizing k with
  | nil => rfl
  | cons entry rest ih =>
    rw [List.zipIdx_cons, List.flatMap_cons, List.map_append, List.sum_append, ih, List.map_cons,
      List.sum_cons]
    cases entry with
    | scenario s => simp [pathsThrough]
    | inclusion q => simp [pathsThrough, runsAt, Function.comp_def]

/-- Allowing paths that are one step longer adds the runs at the ends of those. -/
theorem runsWithin_succ (c : Catalog) (n : Nat) (name : String) :
    c.runsWithin (n + 1) name = c.runsWithin n name + c.runsAt n name := by
  induction n generalizing name with
  | zero =>
    rw [runsAt_zero, runsWithin, runsWithin, Nat.zero_add, listedRuns]
    rfl
  | succ n ih =>
    rw [runsAt_succ, runsWithin, runsWithin, ← List.sum_map_add]
    congr 1
    refine List.map_congr_left fun entry _ => ?_
    cases entry with
    | scenario s => rfl
    | inclusion q => exact ih q

theorem runsWithin_eq_sum (c : Catalog) (n : Nat) (name : String) :
    c.runsWithin n name = ((List.range n).map fun k => c.runsAt k name).sum := by
  induction n with
  | zero => rfl
  | succ n ih => rw [runsWithin_succ, ih, List.range_succ, List.map_append, List.sum_append]; simp

/-- The total is what recursion over the entries gives. -/
theorem totalRuns_eq (c : Catalog) (name : String) :
    c.totalRuns name = c.runsWithin (c.profiles.size + 1) name := by
  rw [runsWithin_eq_sum, totalRuns, paths]
  induction List.range (c.profiles.size + 1) with
  | nil => rfl
  | cons k rest ih =>
    rw [List.flatMap_cons, List.map_append, List.sum_append, ih, List.map_cons, List.sum_cons,
      runsAt]

end Catalog

end SuitePlan
