import SuitePlan.Proofs.Expansion.Graph

/-!
# Where an expansion fails

A profile that is expanded calls for the expansion of the profiles it includes, one after the other,
and it gets to an entry only if those before it are expanded. So an expansion fails with `failure`
exactly if it comes to a call that fails with it by itself (`Call.result_eq_error_iff`): the
profile is on the path, is not defined, or has an entry that is wrong.
-/

namespace SuitePlan

/-- What can be wrong with an entry after `used` runs. -/
inductive Entry.Has (used : Nat) : Entry → EntryDefect → Prop
  | blankScenario {s : Scenario} : Text.isBlankText s.name = true →
      Entry.Has used (.scenario s) .blankScenario
  | blankInclusion {q : String} : Text.isBlankText q = true →
      Entry.Has used (.inclusion q) .blankInclusion
  | tooManyRuns {s : Scenario} : Text.isBlankText s.name = false →
      Catalog.runLimit < used + s.repeats → Entry.Has used (.scenario s) .tooManyRuns

/-- Only the number of runs can be wrong with an entry that has a name. -/
theorem Entry.Has.eq_tooManyRuns {used : Nat} {entry : Entry} {defect : EntryDefect}
    (h : entry.Has used defect) (hname : Text.isBlankText entry.name = false) :
    defect = .tooManyRuns := by
  cases h with
  | blankScenario hblank =>
    rw [Entry.name, hblank] at hname
    cases hname
  | blankInclusion hblank =>
    rw [Entry.name, hblank] at hname
    cases hname
  | tooManyRuns => rfl

namespace Catalog

variable {c : Catalog} {path : List String} {name profile : String} {index used : Nat}
  {s : Scenario} {entry : Entry} {entries : List Entry} {failure : Failure}

theorem expandScenario_eq_error_iff :
    expandScenario profile index used s = .error failure ↔
      ∃ defect, Entry.Has used (.scenario s) defect ∧
        failure = .profile (.invalidEntry profile index defect) := by
  constructor
  · intro h
    rw [expandScenario] at h
    cases hblank : Text.isBlankText s.name with
    | true =>
      rw [if_pos hblank] at h
      cases h
      exact ⟨_, .blankScenario hblank, rfl⟩
    | false =>
      rw [if_neg (by simp [hblank])] at h
      by_cases hlimit : runLimit < used + s.repeats
      · rw [if_pos hlimit] at h
        cases h
        exact ⟨_, .tooManyRuns hblank hlimit, rfl⟩
      · rw [if_neg hlimit] at h
        cases h
  · intro h
    obtain ⟨defect, hdefect, rfl⟩ := h
    rw [expandScenario]
    cases hdefect with
    | blankScenario hblank => rw [if_pos hblank]
    | tooManyRuns hblank hlimit => rw [if_neg (by simp [hblank]), if_pos hlimit]

/-- An entry fails because something is wrong with it or what it includes fails. -/
theorem expandEntry_eq_error_iff :
    c.expandEntry path profile index entry used = .error failure ↔
      (∃ defect, entry.Has used defect ∧
        failure = .profile (.invalidEntry profile index defect)) ∨
      ∃ q, entry = .inclusion q ∧ Text.isBlankText q = false ∧
        c.expand path q (.profile profile) used = .error failure := by
  cases entry with
  | scenario s =>
    rw [expandEntry_scenario, expandScenario_eq_error_iff]
    simp
  | inclusion q =>
    cases hblank : Text.isBlankText q with
    | true =>
      rw [expandEntry_blank hblank, Except.error.injEq]
      constructor
      · intro h
        exact .inl ⟨_, .blankInclusion hblank, h.symm⟩
      · intro h
        rcases h with ⟨defect, hdefect, rfl⟩ | ⟨r, heq, hr, -⟩
        · cases hdefect
          rfl
        · cases heq
          rw [hblank] at hr
          cases hr
    | false =>
      rw [expandEntry_inclusion hblank]
      constructor
      · intro h
        exact .inr ⟨q, rfl, hblank, h⟩
      · intro h
        rcases h with ⟨defect, hdefect, -⟩ | ⟨r, heq, -, hr⟩
        · cases hdefect with
          | blankInclusion htrue =>
            rw [hblank] at htrue
            cases htrue
        · cases heq
          exact hr

/-- Of entries one fails after those before it were expanded. -/
theorem expandEntries_eq_error_iff :
    c.expandEntries path profile index entries used = .error failure ↔
      ∃ i entry runs, entries[i]? = some entry ∧
        c.expandEntries path profile index (entries.take i) used = .ok runs ∧
        c.expandEntry path profile (index + i) entry (used + runs.length) = .error failure := by
  induction entries generalizing index used with
  | nil => simp
  | cons first rest ih =>
    have hplace (i : Nat) : index + 1 + i = index + (i + 1) := by omega
    rw [expandEntries_cons_eq_error_iff]
    constructor
    · intro h
      rcases h with hfirst | ⟨runs, hfirst, hrest⟩
      · exact ⟨0, first, [], rfl, expandEntries_nil, hfirst⟩
      · obtain ⟨i, entry, later, hi, hbefore, hentry⟩ := ih.mp hrest
        refine ⟨i + 1, entry, runs ++ later, hi, ?_, ?_⟩
        · exact expandEntries_cons_eq_ok_iff.mpr ⟨runs, later, hfirst, hbefore, rfl⟩
        · rwa [List.length_append, ← hplace, ← Nat.add_assoc used]
    · intro h
      obtain ⟨i, entry, runs, hi, hbefore, hentry⟩ := h
      cases i with
      | zero =>
        cases hi
        rw [List.take_zero, expandEntries_nil] at hbefore
        cases hbefore
        exact .inl hentry
      | succ i =>
        obtain ⟨first', later, hfirst, hlater, rfl⟩ := expandEntries_cons_eq_ok_iff.mp hbefore
        rw [List.length_append, ← hplace, ← Nat.add_assoc used] at hentry
        exact .inr ⟨first', hfirst, ih.mpr ⟨i, entry, later, hi, hlater, hentry⟩⟩

end Catalog

/-- The expansion of a profile that is called for. -/
structure Call where
  path : List String
  name : String
  referrer : Referrer
  used : Nat

namespace Call

/-- What comes of a call. -/
def result (c : Catalog) (call : Call) : Except Failure (List Run) :=
  c.expand call.path call.name call.referrer call.used

/-- The call for a profile that is started from. -/
def start (name : String) : Call :=
  ⟨[], name, .settings, 0⟩

/-- The call for a profile that is included after `runs`. -/
def inner (call : Call) (q : String) (runs : List Run) : Call :=
  ⟨call.name :: call.path, q, .profile call.name, call.used + runs.length⟩

/-- The expansion gets to the entry at an index, after the runs of those before it. -/
structure GetsTo (c : Catalog) (call : Call) (index : Nat) (entry : Entry) (runs : List Run) :
    Prop where
  fresh : call.name ∉ call.path
  listed : (c.entriesOf call.name)[index]? = some entry
  before : c.expandEntries (call.name :: call.path) call.name 0
    ((c.entriesOf call.name).take index) call.used = .ok runs

/-- How a call fails other than through a call it makes. -/
inductive Fails (c : Catalog) (call : Call) : Failure → Prop
  | cycle : call.name ∈ call.path →
      Fails c call (.cycle (Catalog.cycleNames call.path call.name))
  | undefined : call.name ∉ call.path → ¬c.Defines call.name →
      Fails c call (.profile (.undefined call.name call.referrer))
  | entry {index : Nat} {entry : Entry} {runs : List Run} {defect : EntryDefect} :
      call.GetsTo c index entry runs → entry.Has (call.used + runs.length) defect →
      Fails c call (.profile (.invalidEntry call.name index defect))

/-- The calls that an expansion comes to, itself included. -/
inductive Makes (c : Catalog) (first : Call) : Call → Prop
  | refl : Makes c first first
  | inner {call : Call} {index : Nat} {q : String} {runs : List Run} : Makes c first call →
      call.GetsTo c index (.inclusion q) runs → Text.isBlankText q = false →
      Makes c first (call.inner q runs)

variable {c : Catalog} {call : Call} {name : String} {index : Nat} {entry : Entry}
  {runs : List Run} {failure : Failure}

theorem GetsTo.defines (h : call.GetsTo c index entry runs) : c.Defines call.name := by
  refine Classical.byContradiction fun hundefined => ?_
  have hlisted := h.listed
  rw [Catalog.entriesOf_eq_nil hundefined] at hlisted
  cases hlisted

/-- A call fails with the first of its entries that fails. -/
theorem GetsTo.result_eq_error (h : call.GetsTo c index entry runs)
    (hentry : c.expandEntry (call.name :: call.path) call.name index entry
      (call.used + runs.length) = .error failure) :
    call.result c = .error failure := by
  obtain ⟨entries, hget⟩ := Catalog.defines_iff.mp h.defines
  have hlisted := h.listed
  have hbefore := h.before
  rw [Catalog.entriesOf_eq hget] at hlisted hbefore
  rw [result, Catalog.expand_of_get? h.fresh hget]
  refine Catalog.expandEntries_eq_error_iff.mpr ⟨index, entry, runs, hlisted, hbefore, ?_⟩
  rwa [Nat.zero_add]

theorem Fails.result_eq (h : call.Fails c failure) : call.result c = .error failure := by
  cases h with
  | cycle hmem => exact Catalog.expand_of_mem hmem
  | undefined hfresh hundefined =>
    exact Catalog.expand_of_undefined hfresh (Catalog.get?_eq_none hundefined)
  | entry hgets hdefect =>
    exact hgets.result_eq_error (Catalog.expandEntry_eq_error_iff.mpr (.inl ⟨_, hdefect, rfl⟩))

theorem fails_or_inner (h : call.result c = .error failure) :
    call.Fails c failure ∨ ∃ index q runs, call.GetsTo c index (.inclusion q) runs ∧
      Text.isBlankText q = false ∧ (call.inner q runs).result c = .error failure := by
  rw [result] at h
  by_cases hmem : call.name ∈ call.path
  · rw [Catalog.expand_of_mem hmem] at h
    cases h
    exact .inl (.cycle hmem)
  · cases hget : c.profiles.get? call.name with
    | none =>
      rw [Catalog.expand_of_undefined hmem hget] at h
      cases h
      refine .inl (.undefined hmem fun hdefined => ?_)
      obtain ⟨entries, hsome⟩ := Catalog.defines_iff.mp hdefined
      rw [hget] at hsome
      cases hsome
    | some entries =>
      rw [Catalog.expand_of_get? hmem hget, Catalog.expandEntries_eq_error_iff] at h
      obtain ⟨index, entry, runs, hlisted, hbefore, hentry⟩ := h
      rw [← Catalog.entriesOf_eq hget] at hlisted hbefore
      rw [Nat.zero_add] at hentry
      have hgets : call.GetsTo c index entry runs := ⟨hmem, hlisted, hbefore⟩
      rcases Catalog.expandEntry_eq_error_iff.mp hentry with ⟨defect, hdefect, rfl⟩ | hinner
      · exact .inl (.entry hgets hdefect)
      · obtain ⟨q, rfl, hname, hinner⟩ := hinner
        exact .inr ⟨index, q, runs, hgets, hname, hinner⟩

theorem Makes.head (hgets : call.GetsTo c index (.inclusion name) runs)
    (hname : Text.isBlankText name = false) {later : Call}
    (h : (call.inner name runs).Makes c later) : call.Makes c later := by
  induction h with
  | refl => exact .inner .refl hgets hname
  | inner _ hgets' hname' ih => exact .inner ih hgets' hname'

/-- A call fails as a call it comes to fails by itself. The induction is on how many profiles are
not being expanded. -/
theorem result_eq_error_iff :
    call.result c = .error failure ↔ ∃ later, call.Makes c later ∧ later.Fails c failure := by
  constructor
  · intro h
    induction hn : c.remaining call.path using Nat.strongRecOn generalizing call with
    | ind n ih =>
      rcases fails_or_inner h with hfails | ⟨index, q, runs, hgets, hname, hinner⟩
      · exact ⟨call, .refl, hfails⟩
      · obtain ⟨entries, hget⟩ := Catalog.defines_iff.mp hgets.defines
        have hlt : c.remaining (call.name :: call.path) < n := by
          rw [← hn]
          exact Catalog.remaining_lt hgets.fresh hget
        obtain ⟨later, hmakes, hfails⟩ := ih _ hlt hinner rfl
        exact ⟨later, hmakes.head hgets hname, hfails⟩
  · intro h
    obtain ⟨later, hmakes, hfails⟩ := h
    have hlater := hfails.result_eq
    clear hfails
    induction hmakes with
    | refl => exact hlater
    | inner _ hgets hname ih =>
      apply ih
      apply hgets.result_eq_error
      exact Catalog.expandEntry_eq_error_iff.mpr (.inr ⟨_, rfl, hname, hlater⟩)

end Call

end SuitePlan
