import Mathlib
import SuitePlan.Proofs.Expansion.Success

/-!
# What a lineup holds

To arrange runs is to sort them by placement and to leave the rest of their order alone
(`Lineup.arrange_eq_mergeSort`). A lineup is then determined by what its profile stands for: sorted
once, after everything is flattened, and repeated or cut to the number that is asked for
(`lineup_meaning`).
-/

namespace SuitePlan

/-- The first run may stand before the second. -/
def Run.notAfter (a b : Run) : Bool :=
  a.placement.rank ≤ b.placement.rank

theorem Run.notAfter_iff {a b : Run} :
    a.notAfter b = true ↔ a.placement.rank ≤ b.placement.rank := by
  rw [notAfter, decide_eq_true_eq]

theorem Run.notAfter_trans (a b d : Run) (hab : a.notAfter b = true) (hbd : b.notAfter d = true) :
    a.notAfter d = true := by
  rw [notAfter_iff] at hab hbd ⊢
  exact Nat.le_trans hab hbd

theorem Run.notAfter_total (a b : Run) : (a.notAfter b || b.notAfter a) = true := by
  rw [Bool.or_eq_true, notAfter_iff, notAfter_iff]
  exact Nat.le_total _ _

namespace Lineup

variable {p : Placement} {run : Run} {runs : List Run}

theorem mem_placed_iff : run ∈ placed p runs ↔ run ∈ runs ∧ run.placement = p := by
  rw [placed, List.mem_filter, beq_iff_eq]

theorem placed_cons (p : Placement) (run : Run) (runs : List Run) :
    placed p (run :: runs) =
      if run.placement = p then run :: placed p runs else placed p runs := by
  rw [placed, List.filter_cons]
  simp only [beq_iff_eq, placed]

theorem placed_eq_nil (h : ∀ run ∈ runs, run.placement ≠ p) : placed p runs = [] := by
  apply List.eq_nil_iff_forall_not_mem.mpr
  intro run hmem
  obtain ⟨hin, heq⟩ := mem_placed_iff.mp hmem
  exact h run hin heq

/-- Runs of one placement keep their order when they are sorted. -/
theorem placed_mergeSort (p : Placement) (runs : List Run) :
    placed p (runs.mergeSort Run.notAfter) = placed p runs := by
  have hpairwise : (placed p runs).Pairwise fun a b => a.notAfter b = true := by
    apply List.pairwise_of_forall_mem_list
    intro a ha b hb
    have hsame : a.placement = b.placement :=
      (mem_placed_iff.mp ha).2.trans (mem_placed_iff.mp hb).2.symm
    exact Run.notAfter_iff.mpr (Nat.le_of_eq (congrArg Placement.rank hsame))
  have hsub : (placed p runs).Sublist (runs.mergeSort Run.notAfter) :=
    List.sublist_mergeSort Run.notAfter_trans Run.notAfter_total hpairwise List.filter_sublist
  have hkept : (placed p runs).Sublist (placed p (runs.mergeSort Run.notAfter)) := by
    have hfilter := hsub.filter fun run => run.placement == p
    simpa [placed] using hfilter
  have hperm : (placed p (runs.mergeSort Run.notAfter)).Perm (placed p runs) :=
    (List.mergeSort_perm runs Run.notAfter).filter _
  exact (hkept.eq_of_length hperm.length_eq.symm).symm

/-- Runs that are in order are left as they are. -/
theorem arrange_eq_self (h : runs.Pairwise fun a b => a.notAfter b = true) :
    arrange runs = runs := by
  induction runs with
  | nil => rfl
  | cons run rest ih =>
    obtain ⟨hrun, hrest⟩ := List.pairwise_cons.mp h
    have hlater : ∀ {q : Placement}, q.rank < run.placement.rank → placed q rest = [] := by
      intro q hq
      apply placed_eq_nil
      intro other hmem heq
      have hle := Run.notAfter_iff.mp (hrun other hmem)
      rw [heq] at hle
      exact Nat.not_le.mpr hq hle
    have htail := ih hrest
    rw [arrange] at htail ⊢
    cases hplace : run.placement with
    | early =>
      simpa [placed_cons, hplace] using htail
    | middle =>
      have hearly : placed .early rest = [] := hlater (by rw [hplace]; decide)
      rw [hearly] at htail
      simpa [placed_cons, hplace, hearly] using htail
    | late =>
      have hearly : placed .early rest = [] := hlater (by rw [hplace]; decide)
      have hmiddle : placed .middle rest = [] := hlater (by rw [hplace]; decide)
      rw [hearly, hmiddle] at htail
      simpa [placed_cons, hplace, hearly, hmiddle] using htail

theorem arrange_eq_mergeSort (runs : List Run) : arrange runs = runs.mergeSort Run.notAfter := by
  have hsorted := arrange_eq_self
    (List.pairwise_mergeSort Run.notAfter_trans Run.notAfter_total runs)
  rw [← hsorted, arrange, arrange, placed_mergeSort, placed_mergeSort, placed_mergeSort]

end Lineup

namespace Catalog

variable {c : Catalog} {name : String}

/-- A lineup carries the name of its profile. Its runs are the flattened runs of the profile, sorted
by placement with runs of one placement left in their order. If a number of runs is asked for, the
runs are these again and again up to the number, unless there are none. -/
theorem lineup_meaning {l : Lineup} (h : c.lineup name = .ok l) :
    l.name = name ∧ ∃ flat sorted,
      c.FlattensTo name flat ∧ (∀ other, c.FlattensTo name other → other = flat) ∧
      sorted = flat.mergeSort Run.notAfter ∧
      (c.count = none → l.runs = sorted) ∧
      (sorted = [] → l.runs = []) ∧
      ∀ count, c.count = some count → sorted ≠ [] →
        l.runs.length = count.toNat ∧
        ∀ i < count.toNat, l.runs[i]? = sorted[i % sorted.length]? := by
  obtain ⟨-, flat, hflat, -, -, rfl⟩ := lineup_eq_ok_iff.mp h
  refine ⟨rfl, flat, Lineup.arrange flat, hflat, ?_, Lineup.arrange_eq_mergeSort flat, ?_, ?_, ?_⟩
  · intro other hother
    exact hother.unique hflat
  · intro hcount
    rw [hcount, Lineup.fit]
  · intro hnil
    rw [hnil]
    cases c.count with
    | none => rfl
    | some count => exact Lineup.cycled_nil count.toNat
  · intro count hcount hne
    rw [hcount, Lineup.fit]
    refine ⟨Lineup.length_cycled count.toNat hne, ?_⟩
    intro i hi
    exact Lineup.getElem?_cycled hi

/-- A profile includes another twice, around a run that is to stand first. -/
def twiceIncluded : Catalog where
  count := some 4
  profiles := .ofList [
    ("a", [.inclusion "b", .scenario ⟨"x", .early, none, .empty⟩, .inclusion "b"]),
    ("b", [.scenario ⟨"y", .late, none, .empty⟩])]

/-- The runs that `twiceIncluded` is arranged and repeated to. -/
def twiceIncludedRuns : List Run :=
  [⟨"x", .early, "a", .empty⟩, ⟨"y", .late, "b", .empty⟩, ⟨"y", .late, "b", .empty⟩,
    ⟨"x", .early, "a", .empty⟩]

theorem lineup_meaning_twiceIncluded :
    twiceIncluded.lineup "a" = .ok ⟨"a", twiceIncludedRuns⟩ ∧ ∃ flat sorted,
      twiceIncluded.FlattensTo "a" flat ∧ sorted = flat.mergeSort Run.notAfter ∧
      ∀ i < 4, twiceIncludedRuns[i]? = sorted[i % sorted.length]? := by
  have hl : twiceIncluded.lineup "a" = .ok ⟨"a", twiceIncludedRuns⟩ := by cbv
  obtain ⟨-, flat, sorted, hflat, -, hsorted, -, hnil, hcount⟩ := lineup_meaning hl
  have hne : sorted ≠ [] := fun h => absurd (hnil h) (List.cons_ne_nil _ _)
  exact ⟨hl, flat, sorted, hflat, hsorted, (hcount 4 rfl hne).2⟩

end Catalog

end SuitePlan
