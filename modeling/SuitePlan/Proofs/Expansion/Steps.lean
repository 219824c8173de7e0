import SuitePlan.Proofs.Expansion.Success

/-!
# Expansion in steps

An expander keeps a stack of the profiles that are being expanded and a list of the runs that are
collected. It works in steps: a profile that is called for joins the stack or is refused, its
entries are taken one by one, runs are collected one at a time, and a profile that has no entries
left leaves the stack. The number of runs is counted in words of 64 bits.

An expander always takes the same steps (`Expander.Step.unique`), and it ends with what the
expansion of the profile gives: the runs are collected behind those before and the stack is as it
was, or the failure is the same (`Expander.comesTo_expand`).
-/

namespace SuitePlan

/-! ## Words -/

/-- The sum of two words, or the greatest word if the sum is greater. -/
def saturatingAdd (a b : UInt64) : UInt64 :=
  if a + b < a then .ofNat (UInt64.size - 1) else a + b

/-- How often a scenario runs each time it is reached, in a word. -/
def Scenario.repeatsWord (s : Scenario) : UInt64 :=
  match s.weight with
  | none => 1
  | some w => w.toUInt64

/-- The runs of a scenario are counted to be too many after those that are collected. -/
def Overflows (out : List Run) (s : Scenario) : Prop :=
  UInt64.ofNat Catalog.runLimit < saturatingAdd (.ofNat out.length) s.repeatsWord

theorem toNat_saturatingAdd (a b : UInt64) :
    (saturatingAdd a b).toNat = min (a.toNat + b.toNat) (UInt64.size - 1) := by
  have ha : a.toNat < UInt64.size := a.toNat_lt
  have hb : b.toNat < UInt64.size := b.toNat_lt
  have hsum : (a + b).toNat = (a.toNat + b.toNat) % UInt64.size := UInt64.toNat_add a b
  rw [saturatingAdd]
  by_cases hwraps : UInt64.size ≤ a.toNat + b.toNat
  · rw [Nat.mod_eq_sub_mod hwraps, Nat.mod_eq_of_lt (by omega)] at hsum
    have hless : a + b < a := UInt64.lt_iff_toNat_lt.mpr (by omega)
    rw [if_pos hless, UInt64.toNat_ofNat_of_lt' (by omega)]
    omega
  · rw [Nat.mod_eq_of_lt (by omega)] at hsum
    have hnotLess : ¬a + b < a := by
      rw [UInt64.lt_iff_toNat_lt]
      omega
    rw [if_neg hnotLess, hsum]
    omega

theorem Scenario.toNat_repeatsWord (s : Scenario) : s.repeatsWord.toNat = s.repeats := by
  rw [repeatsWord, repeats]
  cases s.weight with
  | none => rfl
  | some w => exact UInt32.toNat_toUInt64 w

/-- The count in words is exact as long as the runs that are collected can be counted in words. -/
theorem overflows_iff {out : List Run} (h : out.length < UInt64.size) (s : Scenario) :
    Overflows out s ↔ Catalog.runLimit < out.length + s.repeats := by
  have hlimit : (UInt64.ofNat Catalog.runLimit).toNat = Catalog.runLimit := rfl
  have hsize : Catalog.runLimit < UInt64.size - 1 := by decide
  rw [Overflows, UInt64.lt_iff_toNat_lt, toNat_saturatingAdd, Scenario.toNat_repeatsWord, hlimit,
    UInt64.toNat_ofNat_of_lt' h]
  omega

/-! ## Steps -/

/-- A profile that is being expanded, and its entries that are left, the first of which has the
index. -/
structure Frame where
  profile : String
  index : Nat
  entries : List Entry

/-- What an expander does next. -/
inductive Move where
  /-- It expands a profile. -/
  | call (name : String) (referrer : Referrer)
  /-- It takes the next entry of the innermost profile. -/
  | next
  /-- It collects a run as many times as are left. -/
  | collect (run : Run) (left : Nat)
  /-- Nothing: it has failed. -/
  | fail (failure : Failure)

/-- An expansion that is going on. -/
structure Expander where
  /-- The profiles that are being expanded, the outermost first. -/
  stack : List String
  /-- The runs that are collected. -/
  out : List Run
  /-- What is left of the profiles that are being expanded, the innermost first. -/
  frames : List Frame
  move : Move

namespace Expander

/-- What an expander does in one step. -/
inductive Step (c : Catalog) : Expander → Expander → Prop
  | cycle {stack out frames name referrer} : name ∈ stack →
      Step c ⟨stack, out, frames, .call name referrer⟩
        ⟨stack, out, frames, .fail (.cycle (stack.dropWhile (fun p => p != name) ++ [name]))⟩
  | undefined {stack out frames name referrer} : name ∉ stack → c.profiles.get? name = none →
      Step c ⟨stack, out, frames, .call name referrer⟩
        ⟨stack, out, frames, .fail (.profile (.undefined name referrer))⟩
  | enter {stack out frames name referrer entries} : name ∉ stack →
      c.profiles.get? name = some entries →
      Step c ⟨stack, out, frames, .call name referrer⟩
        ⟨stack ++ [name], out, ⟨name, 0, entries⟩ :: frames, .next⟩
  | leave {stack out frames p i} :
      Step c ⟨stack, out, ⟨p, i, []⟩ :: frames, .next⟩ ⟨stack.dropLast, out, frames, .next⟩
  | blankScenario {stack out frames p i s rest} : Text.isBlankText s.name = true →
      Step c ⟨stack, out, ⟨p, i, .scenario s :: rest⟩ :: frames, .next⟩
        ⟨stack, out, ⟨p, i, .scenario s :: rest⟩ :: frames,
          .fail (.profile (.invalidEntry p i .blankScenario))⟩
  | tooManyRuns {stack out frames p i s rest} : Text.isBlankText s.name = false →
      Overflows out s →
      Step c ⟨stack, out, ⟨p, i, .scenario s :: rest⟩ :: frames, .next⟩
        ⟨stack, out, ⟨p, i, .scenario s :: rest⟩ :: frames,
          .fail (.profile (.invalidEntry p i .tooManyRuns))⟩
  | scenario {stack out frames p i s rest} : Text.isBlankText s.name = false →
      ¬Overflows out s →
      Step c ⟨stack, out, ⟨p, i, .scenario s :: rest⟩ :: frames, .next⟩
        ⟨stack, out, ⟨p, i + 1, rest⟩ :: frames,
          .collect ⟨s.name, s.placement, p, s.extras⟩ s.repeats⟩
  | collect {stack out frames run left} :
      Step c ⟨stack, out, frames, .collect run (left + 1)⟩
        ⟨stack, out ++ [run], frames, .collect run left⟩
  | collected {stack out frames run} :
      Step c ⟨stack, out, frames, .collect run 0⟩ ⟨stack, out, frames, .next⟩
  | blankInclusion {stack out frames p i q rest} : Text.isBlankText q = true →
      Step c ⟨stack, out, ⟨p, i, .inclusion q :: rest⟩ :: frames, .next⟩
        ⟨stack, out, ⟨p, i, .inclusion q :: rest⟩ :: frames,
          .fail (.profile (.invalidEntry p i .blankInclusion))⟩
  | inclusion {stack out frames p i q rest} : Text.isBlankText q = false →
      Step c ⟨stack, out, ⟨p, i, .inclusion q :: rest⟩ :: frames, .next⟩
        ⟨stack, out, ⟨p, i + 1, rest⟩ :: frames, .call q (.profile p)⟩

variable {c : Catalog}

/-- The guards of the steps exclude each other. -/
theorem Step.unique {e e' e'' : Expander} (h : Step c e e') (h' : Step c e e'') : e' = e'' := by
  cases h <;> cases h' <;> simp_all

/-- Any number of steps lead from one expander to another. -/
def Runs (c : Catalog) : Expander → Expander → Prop :=
  Relation.ReflTransGen (Step c)

/-- The expander has expanded all that it was to expand. -/
def Done (e : Expander) : Prop :=
  e.frames = [] ∧ e.move = .next

/-- An expander that has nothing but a profile to expand. -/
def start (name : String) : Expander :=
  ⟨[], [], [], .call name .settings⟩

/-- An expander comes to what an attempt gives: it has collected the runs behind `out` and goes on
with `stack` and `frames`, or it has failed. -/
def ComesTo (c : Catalog) (e : Expander) (stack : List String) (out : List Run)
    (frames : List Frame) : Except Failure (List Run) → Prop
  | .ok runs => Runs c e ⟨stack, out ++ runs, frames, .next⟩
  | .error failure => ∃ last, Runs c e last ∧ last.move = .fail failure

/-- An expander holds the path of an expansion on its stack, and the runs that were used. -/
structure Holds (path : List String) (used : Nat) (stack : List String) (out : List Run) :
    Prop where
  path_eq : stack.reverse = path
  nodup : path.Nodup
  used_eq : out.length = used
  within : used ≤ Catalog.runLimit

variable {e e' : Expander} {path stack : List String} {out runs : List Run}
  {frames frames' : List Frame} {name profile : String} {used index left : Nat} {run : Run}
  {s : Scenario} {rest : List Entry} {result : Except Failure (List Run)} {failure : Failure}
  {referrer : Referrer}

theorem ComesTo.of_runs (hruns : Runs c e e') (h : ComesTo c e' stack out frames result) :
    ComesTo c e stack out frames result := by
  cases result with
  | ok runs => exact hruns.trans h
  | error failure =>
    obtain ⟨last, hlast, hfail⟩ := h
    exact ⟨last, hruns.trans hlast, hfail⟩

theorem ComesTo.of_step (hstep : Step c e e') (h : ComesTo c e' stack out frames result) :
    ComesTo c e stack out frames result :=
  h.of_runs (.single hstep)

theorem comesTo_fail (h : Step c e e') (hfail : e'.move = .fail failure) :
    ComesTo c e stack out frames (.error failure) :=
  ⟨e', .single h, hfail⟩

/-- A profile without entries that are left leaves the stack. -/
theorem ComesTo.leave
    (h : ComesTo c e (stack ++ [name]) out (⟨profile, index, []⟩ :: frames) result) :
    ComesTo c e stack out frames result := by
  cases result with
  | ok runs =>
    have hleave : Step c ⟨stack ++ [name], out ++ runs, ⟨profile, index, []⟩ :: frames, .next⟩
        ⟨(stack ++ [name]).dropLast, out ++ runs, frames, .next⟩ := .leave
    rw [List.dropLast_concat] at hleave
    exact Relation.ReflTransGen.tail h hleave
  | error failure => exact h

theorem ComesTo.map (h : ComesTo c e stack (out ++ runs) frames result) :
    ComesTo c e stack out frames (result.map (runs ++ ·)) := by
  cases result with
  | ok later =>
    rw [ComesTo, List.append_assoc] at h
    exact h
  | error failure => exact h

theorem Holds.lt_size (h : Holds path used stack out) : out.length < UInt64.size := by
  rw [h.used_eq]
  exact Nat.lt_of_le_of_lt h.within (by decide)

theorem Holds.mem_iff (h : Holds path used stack out) : name ∈ path ↔ name ∈ stack := by
  rw [← h.path_eq, List.mem_reverse]

theorem Holds.enter (h : Holds path used stack out) (hn : name ∉ path) :
    Holds (name :: path) used (stack ++ [name]) out := by
  refine ⟨?_, List.nodup_cons.mpr ⟨hn, h.nodup⟩, h.used_eq, h.within⟩
  rw [List.reverse_concat, h.path_eq]

theorem Holds.append (h : Holds path used stack out)
    (hfits : used + runs.length ≤ Catalog.runLimit) :
    Holds path (used + runs.length) stack (out ++ runs) :=
  ⟨h.path_eq, h.nodup, by rw [List.length_append, h.used_eq], hfits⟩

/-- The stack from a profile on, and this profile again, are the names of a cycle. -/
theorem Holds.cycleNames_eq (h : Holds path used stack out) (hmem : name ∈ stack) :
    stack.dropWhile (fun p => p != name) ++ [name] = Catalog.cycleNames path name := by
  have hnodup : stack.Nodup := by
    rw [← List.nodup_reverse, h.path_eq]
    exact h.nodup
  obtain ⟨before, after, rfl⟩ := List.append_of_mem hmem
  have hpath : path = after.reverse ++ name :: before.reverse := by
    rw [← h.path_eq]
    simp
  have hnew : name ∉ before ++ after := (List.nodup_cons.mp (List.nodup_middle.mp hnodup)).1
  have hbefore : ∀ p ∈ before, (p != name) = true := by
    intro p hp
    exact bne_iff_ne.mpr fun heq => hnew (List.mem_append_left _ (heq ▸ hp))
  have hafter : ∀ p ∈ after.reverse, (p != name) = true := by
    intro p hp
    exact bne_iff_ne.mpr fun heq => hnew (List.mem_append_right _ (heq ▸ List.mem_reverse.mp hp))
  rw [List.dropWhile_append_of_pos hbefore, List.dropWhile_cons_of_neg (by simp),
    Catalog.cycleNames, hpath, List.takeWhile_append_of_pos hafter,
    List.takeWhile_cons_of_neg (by simp), List.append_nil, List.reverse_reverse]

theorem runs_collect (left : Nat) (out : List Run) :
    Runs c ⟨stack, out, frames, .collect run left⟩
      ⟨stack, out ++ List.replicate left run, frames, .next⟩ := by
  induction left generalizing out with
  | zero =>
    rw [List.replicate_zero, List.append_nil]
    exact .single .collected
  | succ left ih =>
    rw [List.replicate_succ, List.append_cons]
    exact .head .collect (ih (out ++ [run]))

/-- A scenario that fits under the limit is collected as often as it runs. -/
theorem runs_scenario (hname : Text.isBlankText s.name = false) (hlt : out.length < UInt64.size)
    (hfits : out.length + s.repeats ≤ Catalog.runLimit) :
    Runs c ⟨stack, out, ⟨profile, index, .scenario s :: rest⟩ :: frames, .next⟩
      ⟨stack, out ++ Catalog.scenarioRuns profile s, ⟨profile, index + 1, rest⟩ :: frames, .next⟩ :=
  .head (.scenario hname fun hover => Nat.not_lt.mpr hfits ((overflows_iff hlt s).mp hover))
    (runs_collect s.repeats out)

theorem comesTo_expandScenario (h : Holds path used stack out) :
    ComesTo c ⟨stack, out, ⟨profile, index, .scenario s :: rest⟩ :: frames, .next⟩ stack out
      (⟨profile, index + 1, rest⟩ :: frames)
      (Catalog.expandScenario profile index used s) := by
  rw [Catalog.expandScenario, ← h.used_eq]
  cases hblank : Text.isBlankText s.name with
  | true => exact comesTo_fail (.blankScenario hblank) rfl
  | false =>
    rw [if_neg (by simp)]
    by_cases hmany : Catalog.runLimit < out.length + s.repeats
    · rw [if_pos hmany]
      exact comesTo_fail (.tooManyRuns hblank ((overflows_iff h.lt_size s).mpr hmany)) rfl
    · rw [if_neg hmany]
      exact runs_scenario hblank h.lt_size (Nat.not_lt.mp hmany)

/-- The induction follows the calls of the expansion: a profile, its entries, and each of them. What
was expanded before fits under the limit, so that the count in words stays exact. -/
theorem comesTo_expand (c : Catalog) :
    (∀ path name referrer used, ∀ stack out frames, Holds path used stack out →
      ComesTo c ⟨stack, out, frames, .call name referrer⟩ stack out frames
        (c.expand path name referrer used)) ∧
    (∀ path profile index entries used, ∀ stack out frames, Holds path used stack out →
      ComesTo c ⟨stack, out, ⟨profile, index, entries⟩ :: frames, .next⟩ stack out
        (⟨profile, index + entries.length, []⟩ :: frames)
        (c.expandEntries path profile index entries used)) ∧
    (∀ path profile index entry used, ∀ stack out frames rest, Holds path used stack out →
      ComesTo c ⟨stack, out, ⟨profile, index, entry :: rest⟩ :: frames, .next⟩ stack out
        (⟨profile, index + 1, rest⟩ :: frames)
        (c.expandEntry path profile index entry used)) := by
  apply Catalog.expand.mutual_induct c
  -- a profile: on the path, undefined, or expanded as its entries are
  · intro path name referrer used hmem stack out frames h
    rw [Catalog.expand_of_mem hmem, ← h.cycleNames_eq (h.mem_iff.mp hmem)]
    exact comesTo_fail (.cycle (h.mem_iff.mp hmem)) rfl
  · intro path name referrer used hn hget stack out frames h
    rw [Catalog.expand_of_undefined hn hget]
    exact comesTo_fail (.undefined (fun hmem => hn (h.mem_iff.mpr hmem)) hget) rfl
  · intro path name referrer used hn entries hget _ ih stack out frames h
    rw [Catalog.expand_of_get? hn hget]
    refine .of_step (.enter (fun hmem => hn (h.mem_iff.mpr hmem)) hget) ?_
    exact (ih _ _ frames (h.enter hn)).leave
  -- entries: none, or a first one that fails or is expanded before the others
  · intro path profile index used stack out frames _
    rw [Catalog.expandEntries_nil, ComesTo, List.append_nil]
    exact .refl
  · intro path profile index used entry rest e he ih stack out frames h
    rw [Catalog.expandEntries_cons_of_error he]
    have hentry := ih stack out frames rest h
    rw [he] at hentry
    exact hentry
  · intro path profile index used entry rest first hfirst ihfirst ihrest stack out frames h
    rw [Catalog.expandEntries_cons_of_ok hfirst]
    have hexpanded := (Catalog.expanded_of_expand_eq_ok c).2.2 _ _ _ _ _ _ hfirst
    have hentry := ihfirst stack out frames rest h
    rw [hfirst] at hentry
    have hplace : index + (entry :: rest).length = index + 1 + rest.length := by
      rw [List.length_cons]
      omega
    rw [hplace]
    exact .of_runs hentry (ihrest stack _ frames (h.append (hexpanded.fits h.within))).map
  -- an entry: a scenario, a blank inclusion, or one with a name
  · intro path profile index used s stack out frames rest h
    rw [Catalog.expandEntry_scenario]
    exact comesTo_expandScenario h
  · intro path profile index used name hblank stack out frames rest h
    rw [Catalog.expandEntry_blank hblank]
    exact comesTo_fail (.blankInclusion hblank) rfl
  · intro path profile index used name hblank ih stack out frames rest h
    have hname : Text.isBlankText name = false := by simpa using hblank
    rw [Catalog.expandEntry_inclusion hname]
    exact .of_step (.inclusion hname) (ih stack out _ h)

/-- Where the expansion gives runs, the expander collects them. -/
theorem runs_of_expand (h : Holds path used stack out)
    (hexpand : c.expand path name referrer used = .ok runs) :
    Runs c ⟨stack, out, frames, .call name referrer⟩ ⟨stack, out ++ runs, frames, .next⟩ := by
  have hcomes := (comesTo_expand c).1 path name referrer used stack out frames h
  rw [hexpand] at hcomes
  exact hcomes

theorem comesTo_start (c : Catalog) (name : String) :
    ComesTo c (start name) [] [] [] (c.expand [] name .settings 0) :=
  (comesTo_expand c).1 [] name .settings 0 [] [] [] ⟨rfl, List.nodup_nil, rfl, Nat.zero_le _⟩

end Expander

end SuitePlan
