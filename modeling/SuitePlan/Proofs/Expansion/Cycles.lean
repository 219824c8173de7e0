import Mathlib
import SuitePlan.Proofs.Expansion.Calls
import SuitePlan.Proofs.Expansion.Success

/-!
# Cycles that are reported

The path of a call is a simple path of the graph, back to the profile that was started from
(`Call.Makes.trail`). When the profile that is called for is on it, the names from that profile on
are a cycle of the graph, and this is what the failure names (`lineup_cycle`).

An expansion that reaches a cycle cannot succeed. If nothing else is wrong with what it reaches, it
is stopped by the cycle or, when enough runs come before it, by their number.
-/

namespace SuitePlan

open Relation

/-- What holds of the path of a call whenever it is made. -/
structure Call.Trail (c : Catalog) (root : String) (call : Call) : Prop where
  chain : (call.name :: call.path).IsChain fun q p => c.Includes p q
  nodup : call.path.Nodup
  reached : ∀ p ∈ call.name :: call.path, c.Reaches root p

namespace Call

variable {c : Catalog} {call : Call} {root : String}

theorem trail_start (c : Catalog) (root : String) : (start root).Trail c root := by
  refine ⟨List.isChain_singleton root, List.nodup_nil, ?_⟩
  intro p hmem
  rw [List.mem_singleton.mp hmem]
  exact Catalog.Reaches.refl c root

theorem Trail.inner {index : Nat} {q : String} {runs : List Run} (h : call.Trail c root)
    (hgets : call.GetsTo c index (.inclusion q) runs) : (call.inner q runs).Trail c root := by
  have hstep : c.Includes call.name q := List.mem_of_getElem? hgets.listed
  refine ⟨h.chain.cons_cons hstep, List.nodup_cons.mpr ⟨hgets.fresh, h.nodup⟩, ?_⟩
  intro p hmem
  rcases List.mem_cons.mp hmem with rfl | hmem
  · exact (h.reached call.name List.mem_cons_self).tail hstep
  · exact h.reached p hmem

/-- The path is a trail at every call: it is at the first, and each call makes it longer by an
inclusion of the last profile. -/
theorem Makes.trail (h : (start root).Makes c call) : call.Trail c root := by
  induction h with
  | refl => exact trail_start c root
  | inner _ hgets _ ih => exact ih.inner hgets

end Call

namespace Catalog

variable {c : Catalog} {path : List String} {name : String}

theorem reverse_cycleNames (path : List String) (name : String) :
    (cycleNames path name).reverse =
      name :: (path.takeWhile fun other => other != name) ++ [name] := by
  simp [cycleNames]

theorem takeWhile_append_prefix (hmem : name ∈ path) :
    (path.takeWhile fun other => other != name) ++ [name] <+: path := by
  induction path with
  | nil => exact absurd hmem List.not_mem_nil
  | cons first rest ih =>
    by_cases heq : first = name
    · subst heq
      simp
    · have hrest : name ∈ rest := by
        rcases List.mem_cons.mp hmem with hfirst | hrest
        · exact absurd hfirst.symm heq
        · exact hrest
      rw [List.takeWhile_cons_of_pos (by simpa using heq), List.cons_append]
      exact List.cons_prefix_cons.mpr ⟨rfl, ih hrest⟩

theorem isChain_cycleNames (hmem : name ∈ path)
    (hchain : (name :: path).IsChain fun q p => c.Includes p q) :
    (cycleNames path name).IsChain c.Includes := by
  rw [← List.isChain_reverse, reverse_cycleNames, List.cons_append]
  exact hchain.prefix (List.cons_prefix_cons.mpr ⟨rfl, takeWhile_append_prefix hmem⟩)

theorem nodup_cycleNames (hnodup : path.Nodup) : (cycleNames path name).dropLast.Nodup := by
  rw [cycleNames, List.dropLast_concat, List.nodup_cons, List.mem_reverse, List.nodup_reverse]
  refine ⟨?_, hnodup.sublist (List.takeWhile_sublist _)⟩
  intro hmem
  have hne := List.mem_takeWhile_imp hmem
  simp at hne

/-- The names that are reported run along inclusions from a profile back to it. -/
theorem transGen_of_cycleNames (h : (cycleNames path name).IsChain c.Includes) :
    TransGen c.Includes name name := by
  obtain ⟨next, later, hnext⟩ :
      ∃ next later, (path.takeWhile fun other => other != name).reverse ++ [name] = next :: later :=
    List.exists_cons_of_ne_nil (List.append_ne_nil_of_right_ne_nil _ (List.cons_ne_nil _ _))
  rw [cycleNames, List.cons_append, hnext, List.isChain_cons_cons] at h
  obtain ⟨hstep, hchain⟩ := h
  refine TransGen.head' hstep (List.relationReflTransGen_of_exists_isChain_cons later hchain ?_)
  simp [← hnext]

theorem exists_call_of_lineup_eq_error {failure : Failure} (hcount : c.CountFits)
    (h : c.lineup name = .error failure) :
    ∃ call, (Call.start name).Makes c call ∧ call.Fails c failure := by
  rw [lineup_eq_map hcount, Attempt.map_eq_error_iff] at h
  exact Call.result_eq_error_iff.mp h

/-- A number of runs that is asked for is either what is reported or within the limit. -/
theorem countFits_of_lineup_eq_error {failure : Failure} (h : c.lineup name = .error failure)
    (hne : ∀ n, failure ≠ .profile (.countTooLarge n)) : c.CountFits := by
  intro count hcount
  apply Nat.not_lt.mp
  intro hlimit
  rw [lineup_of_count hcount hlimit, Except.error.injEq] at h
  exact hne count.toNat h.symm

/-- A cycle that is reported is one of the graph, and one that the profile reaches. -/
theorem exists_of_lineup_eq_cycle {names : List String}
    (h : c.lineup name = .error (.cycle names)) :
    ∃ path p, names = cycleNames path p ∧ (cycleNames path p).IsChain c.Includes ∧ path.Nodup ∧
      c.Reaches name p := by
  obtain ⟨call, hmakes, hfails⟩ :=
    exists_call_of_lineup_eq_error (countFits_of_lineup_eq_error h (by simp)) h
  have htrail := hmakes.trail
  cases hfails with
  | cycle hmem =>
    exact ⟨call.path, call.name, rfl, isChain_cycleNames hmem htrail.chain, htrail.nodup,
      htrail.reached call.name List.mem_cons_self⟩

/-- Where all that is reached is defined and has names, only a cycle or a number of runs is in the
way. -/
theorem cycle_or_tooManyRuns {failure : Failure} (hcount : c.CountFits)
    (hsound : ∀ p, c.Reaches name p → c.Defines p ∧ c.NamesEntries p)
    (h : c.lineup name = .error failure) :
    (∃ names, failure = .cycle names) ∨
      ∃ p i, failure = .profile (.invalidEntry p i .tooManyRuns) := by
  obtain ⟨call, hmakes, hfails⟩ := exists_call_of_lineup_eq_error hcount h
  have hreached := hmakes.trail.reached call.name List.mem_cons_self
  obtain ⟨hdefined, hnamed⟩ := hsound call.name hreached
  cases hfails with
  | cycle hmem => exact .inl ⟨_, rfl⟩
  | undefined _ hundefined => exact absurd hdefined hundefined
  | @entry index entry runs defect hgets hdefect =>
    have hname : Text.trim entry.name ≠ "" := hnamed entry (List.mem_of_getElem? hgets.listed)
    rw [hdefect.eq_tooManyRuns (not_blank_iff.mpr hname)]
    exact .inr ⟨call.name, index, rfl⟩

/-- A cycle is reported only where there is one: its names run along inclusions from a profile that
is reached back to it, and no other is named twice. Where one is reached and nothing else is wrong,
the failure is a cycle or too many runs. -/
theorem lineup_cycle (c : Catalog) (name : String) :
    (∀ names, c.lineup name = .error (.cycle names) →
      2 ≤ names.length ∧ names.head? = names.getLast? ∧ names.dropLast.Nodup ∧
      names.IsChain c.Includes ∧ ∃ p, names.head? = some p ∧ c.Reaches name p) ∧
    ((∀ p, c.Reaches name p → ¬TransGen c.Includes p p) →
      ∀ names, c.lineup name ≠ .error (.cycle names)) ∧
    ((∀ count, c.count = some count → count.toNat ≤ runLimit) →
      (∀ p, c.Reaches name p → c.Defines p ∧ ∀ entry ∈ c.entriesOf p, Text.trim entry.name ≠ "") →
      (∃ p, c.Reaches name p ∧ TransGen c.Includes p p) →
      (∃ names, c.lineup name = .error (.cycle names)) ∨
        ∃ p i, c.lineup name = .error (.profile (.invalidEntry p i .tooManyRuns))) := by
  refine ⟨?_, ?_, ?_⟩
  · intro names h
    obtain ⟨path, p, rfl, hchain, hnodup, hreach⟩ := exists_of_lineup_eq_cycle h
    refine ⟨?_, ?_, nodup_cycleNames hnodup, hchain, p, rfl, hreach⟩
    · simp [cycleNames]
    · rw [cycleNames, List.getLast?_concat, List.cons_append, List.head?_cons]
  · intro hacyclic names h
    obtain ⟨path, p, rfl, hchain, -, hreach⟩ := exists_of_lineup_eq_cycle h
    exact hacyclic p hreach (transGen_of_cycleNames hchain)
  · intro hcount hsound hcycle
    obtain ⟨p, hreach, hcycle⟩ := hcycle
    cases hl : c.lineup name with
    | ok l =>
      obtain ⟨-, runs, hflat, -⟩ := lineup_eq_ok_iff.mp hl
      exact absurd hcycle (hflat.acyclicFrom p hreach)
    | error failure =>
      rcases cycle_or_tooManyRuns hcount hsound hl with ⟨names, rfl⟩ | ⟨q, i, rfl⟩
      · exact .inl ⟨names, rfl⟩
      · exact .inr ⟨q, i, rfl⟩

/-- A profile that includes itself, behind one that does not. -/
def loopBehind : Catalog where
  profiles := .ofList [
    ("a", [.scenario ⟨"x", .middle, none, .empty⟩, .inclusion "b"]), ("b", [.inclusion "b"])]

theorem loopBehind_a : loopBehind.profiles.get? "a" =
    some [.scenario ⟨"x", .middle, none, .empty⟩, .inclusion "b"] := by cbv

theorem loopBehind_b : loopBehind.profiles.get? "b" = some [.inclusion "b"] := by cbv

theorem reaches_loopBehind {p : String} (h : loopBehind.Reaches "a" p) : p = "a" ∨ p = "b" := by
  induction h with
  | refl => exact .inl rfl
  | tail _ hstep ih =>
    rcases ih with rfl | rfl
    · exact .inr (by simpa using (includes_iff loopBehind_a).mp hstep)
    · exact .inr (by simpa using (includes_iff loopBehind_b).mp hstep)

theorem lineup_cycle_loopBehind :
    loopBehind.lineup "a" = .error (.cycle ["b", "b"]) ∧
    ["b", "b"].IsChain loopBehind.Includes ∧ loopBehind.Reaches "a" "b" ∧
    ((∃ names, loopBehind.lineup "a" = .error (.cycle names)) ∨
      ∃ p i, loopBehind.lineup "a" = .error (.profile (.invalidEntry p i .tooManyRuns))) := by
  have hl : loopBehind.lineup "a" = .error (.cycle ["b", "b"]) := by cbv
  obtain ⟨hcycle, -, hcomplete⟩ := lineup_cycle loopBehind "a"
  obtain ⟨-, -, -, hchain, p, hp, hreach⟩ := hcycle _ hl
  cases hp
  have hx : Text.trim "x" ≠ "" := by decide +kernel
  have hb : Text.trim "b" ≠ "" := by decide +kernel
  refine ⟨hl, hchain, hreach, hcomplete ?_ ?_ ⟨"b", hreach, .single (List.isChain_pair.mp hchain)⟩⟩
  · intro count hcount
    cases hcount
  · intro p hp
    rcases reaches_loopBehind hp with rfl | rfl
    · refine ⟨defines_of_get? loopBehind_a, ?_⟩
      rw [entriesOf_eq loopBehind_a]
      simpa [Entry.name] using ⟨hx, hb⟩
    · refine ⟨defines_of_get? loopBehind_b, ?_⟩
      rw [entriesOf_eq loopBehind_b]
      simpa [Entry.name] using hb

end Catalog

end SuitePlan
