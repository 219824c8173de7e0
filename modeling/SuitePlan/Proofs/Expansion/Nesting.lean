import SuitePlan.Proofs.Expansion.Context
import SuitePlan.Proofs.Expansion.Cycles

/-!
# How deep expansions are nested

When a profile is called for, the stack of the expander is a path of inclusions to it, and no
profile is on the stack twice (`Awaits.isChain`, `Expander.Runs.nodup`). So there are never more
profiles on the stack than there are profiles, and if all of them are, the call ends at once. An
expander comes to an end for this reason, whatever the catalog holds, and a budget of calls that may
be nested in each other is never exhausted if it is greater than the number of profiles
(`Expander.nesting_bounded`).
-/

namespace SuitePlan

namespace Catalog

/-! ## Budgets -/

/-- The runs of an entry, where `call` gives those of a profile unless it comes to nothing. -/
def entryWithin (call : String → Nat → Option (Except Failure (List Run))) (profile : String)
    (index : Nat) (entry : Entry) (used : Nat) : Option (Except Failure (List Run)) :=
  match entry with
  | .scenario s => some (expandScenario profile index used s)
  | .inclusion name =>
    if Text.isBlankText name then
      some (.error (.profile (.invalidEntry profile index .blankInclusion)))
    else call name used

/-- The runs of the entries of a profile, the first of which has the given index. -/
def entriesWithin (call : String → Nat → Option (Except Failure (List Run))) (profile : String) :
    Nat → List Entry → Nat → Option (Except Failure (List Run))
  | _, [], _ => some (.ok [])
  | index, entry :: rest, used =>
    match entryWithin call profile index entry used with
    | none => none
    | some (.error failure) => some (.error failure)
    | some (.ok runs) =>
      (entriesWithin call profile (index + 1) rest (used + runs.length)).map
        (Except.map (runs ++ ·))

/-- The runs of a profile, unless more calls are nested in each other than the budget allows. -/
def expandWithin (c : Catalog) : Nat → List String → String → Referrer → Nat →
    Option (Except Failure (List Run))
  | 0, _, _, _, _ => none
  | budget + 1, path, name, referrer, used =>
    if name ∈ path then some (.error (.cycle (cycleNames path name)))
    else
      match c.profiles.get? name with
      | none => some (.error (.profile (.undefined name referrer)))
      | some entries =>
        entriesWithin (fun q used => c.expandWithin budget (name :: path) q (.profile name) used)
          name 0 entries used

variable {c : Catalog} {path : List String} {name profile : String} {referrer : Referrer}
  {index used budget : Nat} {entry : Entry} {entries : List Entry}
  {call : String → Nat → Option (Except Failure (List Run))}

theorem entryWithin_eq
    (hcall : ∀ q used, call q used = some (c.expand path q (.profile profile) used)) :
    entryWithin call profile index entry used =
      some (c.expandEntry path profile index entry used) := by
  cases entry with
  | scenario s => rw [entryWithin, expandEntry_scenario]
  | inclusion q =>
    rw [entryWithin]
    cases hblank : Text.isBlankText q with
    | true => rw [if_pos rfl, expandEntry_blank hblank]
    | false => rw [if_neg Bool.false_ne_true, expandEntry_inclusion hblank, hcall]

theorem entriesWithin_eq
    (hcall : ∀ q used, call q used = some (c.expand path q (.profile profile) used)) :
    entriesWithin call profile index entries used =
      some (c.expandEntries path profile index entries used) := by
  induction entries generalizing index used with
  | nil => rw [entriesWithin, expandEntries_nil]
  | cons entry rest ih =>
    rw [entriesWithin, entryWithin_eq hcall]
    cases hentry : c.expandEntry path profile index entry used with
    | error failure => rw [expandEntries_cons_of_error hentry]
    | ok runs =>
      simp only
      rw [expandEntries_cons_of_ok hentry, ih, Option.map_some]

/-- A budget that is greater than the number of profiles off the path does not run out: a profile
that joins the path leaves one less of them, and the calls for what it includes one less to nest. -/
theorem expandWithin_eq (h : c.remaining path < budget) :
    c.expandWithin budget path name referrer used =
      some (c.expand path name referrer used) := by
  induction budget generalizing path name referrer used with
  | zero => exact absurd h (Nat.not_lt_zero _)
  | succ budget ih =>
    rw [expandWithin]
    by_cases hmem : name ∈ path
    · rw [if_pos hmem, expand_of_mem hmem]
    · rw [if_neg hmem]
      cases hget : c.profiles.get? name with
      | none => rw [expand_of_undefined hmem hget]
      | some entries =>
        have hfewer := remaining_lt hmem hget
        rw [expand_of_get? hmem hget]
        exact entriesWithin_eq fun q used => ih (by omega)

end Catalog

/-! ## The stack -/

variable {c : Catalog} {root q : String} {frames : List Frame} {runs : List Run}

/-- The profiles of the frames include each other, from the first one to the one that is awaited. -/
theorem Awaits.isChain (h : Awaits c root frames q runs) :
    ((frames.map Frame.profile).reverse ++ [q]).IsChain c.Includes := by
  induction h with
  | root => exact List.isChain_singleton _
  | @inclusion frames p q i before rest runs own _ hget _ ih =>
    have hstep : c.Includes p q :=
      (Catalog.includes_iff hget).mpr (List.mem_append_right _ List.mem_cons_self)
    rw [List.map_cons, List.reverse_cons]
    refine List.isChain_append.mpr ⟨ih, List.isChain_singleton _, ?_⟩
    intro last hlast next hnext
    rw [List.getLast?_concat] at hlast
    cases hlast
    cases hnext
    exact hstep

theorem Awaits.head?_eq (h : Awaits c root frames q runs) :
    ((frames.map Frame.profile).reverse ++ [q]).head? = some root := by
  induction h with
  | root => rfl
  | inclusion _ _ _ ih =>
    rw [List.map_cons, List.reverse_cons, List.head?_append, ih]
    rfl

theorem Awaits.defines (h : Awaits c root frames q runs) :
    ∀ p ∈ frames.map Frame.profile, c.Defines p := by
  induction h with
  | root =>
    intro p hp
    exact absurd hp List.not_mem_nil
  | inclusion _ hget _ ih =>
    rw [List.map_cons, List.forall_mem_cons]
    exact ⟨Catalog.defines_of_get? hget, ih⟩

/-- The profiles on a stack spell a path of inclusions from `root` to the profile `q`. -/
structure SpellsPath (c : Catalog) (root : String) (stack : List String) (q : String) : Prop where
  nodup : stack.Nodup
  defines : ∀ p ∈ stack, c.Defines p
  isChain : (stack ++ [q]).IsChain c.Includes
  head?_eq : (stack ++ [q]).head? = some root

theorem Catalog.length_le_size {names : List String} (hnodup : names.Nodup)
    (hdefines : ∀ p ∈ names, c.Defines p) : names.length ≤ c.profiles.size := by
  have hle : names.length ≤ c.profiles.keys.length := hnodup.length_le_of_subset hdefines
  rwa [Table.keys, List.length_map] at hle

namespace Expander

/-- How many calls are nested in each other when a profile is called for: one for each profile that
is being expanded, and the one that is made. -/
def depth (e : Expander) : Nat :=
  e.frames.length + 1

variable {name : String} {e e' last : Expander} {stack : List String} {out : List Run}
  {referrer : Referrer} {failure : Failure}

theorem Step.nodup (h : Step c e e') (hnodup : e.stack.Nodup) : e'.stack.Nodup := by
  cases h with
  | enter hnew =>
    rw [← List.concat_eq_append, List.nodup_concat]
    exact ⟨hnew, hnodup⟩
  | leave => exact hnodup.sublist (List.dropLast_sublist _)
  | _ => exact hnodup

theorem Runs.nodup (h : Runs c e e') (hnodup : e.stack.Nodup) : e'.stack.Nodup := by
  induction h with
  | refl => exact hnodup
  | tail _ hstep ih => exact hstep.nodup ih

/-- A profile is called for along the profiles of the frames, which are those on the stack. -/
theorem Runs.spellsPath (h : Runs c (start name) e) (hcall : e.move = .call q referrer) :
    SpellsPath c name e.stack q ∧ e.frames.map Frame.profile = e.stack.reverse := by
  obtain ⟨hstack, runs, -, hsuits⟩ := h.keeps (keeps_call c name .settings [] [])
  rw [List.nil_append] at hstack
  rw [hcall] at hsuits
  have hawaits : Awaits c name e.frames q runs := hsuits
  have hprofiles : e.frames.map Frame.profile = e.stack.reverse := by
    rw [hstack, List.reverse_reverse]
  refine ⟨⟨h.nodup List.nodup_nil, ?_, ?_, ?_⟩, hprofiles⟩
  · intro p hp
    rw [hstack, List.mem_reverse] at hp
    exact hawaits.defines p hp
  · rw [hstack]
    exact hawaits.isChain
  · rw [hstack]
    exact hawaits.head?_eq

/-- Where all profiles are on the stack, the one that is called for is one of them or undefined. -/
theorem fails_of_full (h : SpellsPath c root stack q) (hfull : stack.length = c.profiles.size) :
    ∃ e', Step c ⟨stack, out, frames, .call q referrer⟩ e' ∧
      ((∃ names, e'.move = .fail (.cycle names)) ∨
        e'.move = .fail (.profile (.undefined q referrer))) := by
  by_cases hmem : q ∈ stack
  · exact ⟨_, .cycle hmem, .inl ⟨_, rfl⟩⟩
  · refine ⟨_, .undefined hmem (Catalog.get?_eq_none fun hq => ?_), .inr rfl⟩
    have hmore : (q :: stack).length ≤ c.profiles.size :=
      Catalog.length_le_size (List.nodup_cons.mpr ⟨hmem, h.nodup⟩)
        (List.forall_mem_cons.mpr ⟨hq, h.defines⟩)
    rw [List.length_cons, hfull] at hmore
    exact absurd hmore (Nat.not_succ_le_self _)

/-! ## The end -/

theorem not_step_of_fail (hfail : e.move = .fail failure) : ¬Step c e e' := by
  intro hstep
  cases hstep <;> simp at hfail

theorem not_step_of_done (hdone : e.Done) : ¬Step c e e' := by
  intro hstep
  cases hstep <;> simp [Done] at hdone

/-- There is one way to go on, so an expander ends if it can come to an expander that does. -/
theorem acc_of_runs (h : Runs c e last) (hlast : ∀ e', ¬Step c last e') :
    Acc (fun e' e => Step c e e') e := by
  induction h using Relation.ReflTransGen.head_induction_on with
  | refl => exact .intro _ fun e' hstep => absurd hstep (hlast e')
  | head hfirst _ ih => exact .intro _ fun e' hstep => hstep.unique hfirst ▸ ih

theorem acc_start (c : Catalog) (name : String) : Acc (fun e' e => Step c e e') (start name) := by
  have hcomes := comesTo_start c name
  cases hexpand : c.expand [] name .settings 0 with
  | ok runs =>
    rw [hexpand] at hcomes
    exact acc_of_runs hcomes fun e' => not_step_of_done ⟨rfl, rfl⟩
  | error failure =>
    rw [hexpand] at hcomes
    obtain ⟨last, hruns, hfail⟩ := hcomes
    exact acc_of_runs hruns fun e' => not_step_of_fail hfail

/-- Whenever a profile is called for, the stack spells a path of inclusions to it, on which no
profile is twice, there are at most as many calls as profiles around this one, and it fails at once
if all profiles are on the stack. An expander thus comes to an end, with what the expansion gives,
and a budget of one call more than there are profiles is never exhausted. -/
theorem nesting_bounded (c : Catalog) (name : String) :
    (∀ e q referrer, Runs c (start name) e → e.move = .call q referrer →
      SpellsPath c name e.stack q ∧ e.frames.map Frame.profile = e.stack.reverse ∧
        e.depth ≤ c.profiles.size + 1 ∧
        (e.stack.length = c.profiles.size →
          ∃ e', Step c e e' ∧ ((∃ names, e'.move = .fail (.cycle names)) ∨
            e'.move = .fail (.profile (.undefined q referrer))))) ∧
    Acc (fun e' e => Step c e e') (start name) ∧
    ComesTo c (start name) [] [] [] (c.expand [] name .settings 0) ∧
    ∀ budget, c.profiles.size + 1 ≤ budget →
      c.expandWithin budget [] name .settings 0 = some (c.expand [] name .settings 0) := by
  refine ⟨fun e q referrer hruns hcall => ?_, acc_start c name, comesTo_start c name,
    fun budget hbudget => Catalog.expandWithin_eq ?_⟩
  · obtain ⟨hpath, hprofiles⟩ := hruns.spellsPath hcall
    have hlength : e.frames.length = e.stack.length := by
      rw [← List.length_map Frame.profile, hprofiles, List.length_reverse]
    refine ⟨hpath, hprofiles, ?_, ?_⟩
    · rw [depth, hlength]
      exact Nat.succ_le_succ (Catalog.length_le_size hpath.nodup hpath.defines)
    · obtain ⟨stack, out, frames, move⟩ := e
      cases hcall
      exact fails_of_full hpath
  · rw [Catalog.remaining_nil]
    exact hbudget

theorem nesting_bounded_loopBehind :
    ∃ e e', Runs Catalog.loopBehind (start "a") e ∧ e.move = .call "b" (.profile "b") ∧
      e.stack = ["a", "b"] ∧ SpellsPath Catalog.loopBehind "a" ["a", "b"] "b" ∧
      e.depth = Catalog.loopBehind.profiles.size + 1 ∧ Step Catalog.loopBehind e e' ∧
      e'.move = .fail (.cycle ["b", "b"]) ∧
      Catalog.loopBehind.expandWithin 3 [] "a" .settings 0 = some (.error (.cycle ["b", "b"])) := by
  have hsize : Catalog.loopBehind.profiles.size = 2 := by cbv
  have hexpand : Catalog.loopBehind.expand [] "a" .settings 0 = .error (.cycle ["b", "b"]) := by
    cbv
  have hx : Text.isBlankText "x" = false := by decide +kernel
  have hb : Text.isBlankText "b" = false := by decide +kernel
  have hscenario : Runs Catalog.loopBehind (start "a")
      ⟨["a"], [⟨"x", .middle, "a", .empty⟩], [⟨"a", 1, [.inclusion "b"]⟩], .next⟩ :=
    .head (.enter List.not_mem_nil Catalog.loopBehind_a) (runs_scenario hx (by decide) (by decide))
  have hinner : Runs Catalog.loopBehind (start "a") ⟨["a", "b"], [⟨"x", .middle, "a", .empty⟩],
      [⟨"b", 1, []⟩, ⟨"a", 2, []⟩], .call "b" (.profile "b")⟩ :=
    ((hscenario.tail (.inclusion hb)).tail (.enter (by decide) Catalog.loopBehind_b)).tail
      (.inclusion hb)
  obtain ⟨hcalls, -, -, hbudget⟩ := nesting_bounded Catalog.loopBehind "a"
  obtain ⟨hpath, -, -, hfull⟩ := hcalls _ _ _ hinner rfl
  obtain ⟨e', hstep, -⟩ := hfull hsize.symm
  cases hstep.unique (.cycle (by decide))
  refine ⟨_, _, hinner, rfl, rfl, hpath, ?_, hstep, ?_, ?_⟩
  · rw [hsize]
    rfl
  · rfl
  · rw [hbudget 3 (by rw [hsize]), hexpand]

end Expander

end SuitePlan
