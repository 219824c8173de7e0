import SuitePlan.Proofs.Expansion.Steps

/-!
# What an expansion leaves behind

The frames of an expander tell what it has collected: the runs of the entries before those that are
left, one frame after the other, the outermost first (`Awaits`, `Gathers`). They say nothing of the
stack and the runs with which the expander began, and these stay in front of everything that is
added (`Keeps`).

So an expansion that succeeds leaves the stack as it was and has added runs that depend on the
catalog and the profile alone (`Expander.runs_context_free`).
-/

namespace SuitePlan

/-- The frames wait for the runs of the profile `q`, and the runs before these are collected. -/
inductive Awaits (c : Catalog) (root : String) : List Frame → String → List Run → Prop
  | root : Awaits c root [] root []
  | inclusion {frames p q i before rest runs own} : Awaits c root frames p runs →
      c.profiles.get? p = some (before ++ .inclusion q :: rest) → c.Flattens p before own →
      Awaits c root (⟨p, i, rest⟩ :: frames) q (runs ++ own)

/-- The runs before the entries that are left are collected. -/
inductive Gathers (c : Catalog) (root : String) : List Frame → List Run → Prop
  | all {runs} : c.FlattensTo root runs → Gathers c root [] runs
  | before {frames p i before rest runs own} : Awaits c root frames p runs →
      c.profiles.get? p = some (before ++ rest) → c.Flattens p before own →
      Gathers c root (⟨p, i, rest⟩ :: frames) (runs ++ own)

/-- What holds of the collected runs when a move is made. -/
def Move.Suits (c : Catalog) (root : String) (frames : List Frame) (runs : List Run) : Move → Prop
  | .call name _ => Awaits c root frames name runs
  | .next => Gathers c root frames runs
  | .collect run left => Gathers c root frames (runs ++ List.replicate left run)
  | .fail _ => True

/-- The expander has added the profiles of its frames to a stack, and runs that suit its move to
others. -/
structure Keeps (c : Catalog) (root : String) (stack : List String) (out : List Run)
    (e : Expander) : Prop where
  stack_eq : e.stack = stack ++ (e.frames.map Frame.profile).reverse
  out_eq : ∃ runs, e.out = out ++ runs ∧ e.move.Suits c root e.frames runs

variable {c : Catalog} {root p q name : String} {i : Nat} {s : Scenario} {entries rest : List Entry}
  {frames : List Frame} {stack : List String} {out runs : List Run} {referrer : Referrer}
  {e e' : Expander}

/-! ## Frames -/

theorem Awaits.enter (h : Awaits c root frames q runs) (hget : c.profiles.get? q = some entries) :
    Gathers c root (⟨q, 0, entries⟩ :: frames) runs := by
  have hgathers : Gathers c root (⟨q, 0, entries⟩ :: frames) (runs ++ []) :=
    .before h (by rwa [List.nil_append]) .nil
  rwa [List.append_nil] at hgathers

/-- The runs of a profile without entries that are left are those of the inclusion of it. -/
theorem Gathers.leave (h : Gathers c root (⟨p, i, []⟩ :: frames) runs) :
    Gathers c root frames runs := by
  cases h with
  | @before _ _ _ entries _ _ own hawaits hget hflat =>
    rw [List.append_nil] at hget
    cases hawaits with
    | root => exact .all ⟨entries, hget, hflat⟩
    | inclusion houter hlisted hbefore =>
      have hprofile : c.FlattensTo p own := ⟨entries, hget, hflat⟩
      rw [List.append_assoc]
      rw [List.append_cons] at hlisted
      exact .before houter hlisted (hbefore.append (hprofile.inclusion _))

theorem Gathers.scenario (h : Gathers c root (⟨p, i, .scenario s :: rest⟩ :: frames) runs) :
    Gathers c root (⟨p, i + 1, rest⟩ :: frames) (runs ++ Catalog.scenarioRuns p s) := by
  cases h with
  | before hawaits hget hflat =>
    rw [List.append_assoc]
    rw [List.append_cons] at hget
    exact .before hawaits hget (hflat.append (Catalog.flattens_scenario c p s))

theorem Gathers.inclusion (h : Gathers c root (⟨p, i, .inclusion q :: rest⟩ :: frames) runs) :
    Awaits c root (⟨p, i + 1, rest⟩ :: frames) q runs := by
  cases h with
  | before hawaits hget hflat => exact .inclusion hawaits hget hflat

/-! ## Steps -/

theorem keeps_call (c : Catalog) (name : String) (referrer : Referrer) (stack : List String)
    (out : List Run) : Keeps c name stack out ⟨stack, out, [], .call name referrer⟩ :=
  ⟨(List.append_nil stack).symm, [], (List.append_nil out).symm, .root⟩

/-- One case for each step: what the frames tell of the runs grows with the runs. -/
theorem Keeps.step (h : Keeps c root stack out e) (hstep : Expander.Step c e e') :
    Keeps c root stack out e' := by
  obtain ⟨hstack, runs, hout, hsuits⟩ := h
  cases hstep with
  | cycle | undefined | blankScenario | tooManyRuns | blankInclusion =>
    exact ⟨hstack, runs, hout, trivial⟩
  | enter _ hget =>
    refine ⟨?_, runs, hout, Awaits.enter hsuits hget⟩
    simp only at hstack
    rw [hstack, List.map_cons, List.reverse_cons, List.append_assoc]
  | leave =>
    refine ⟨?_, runs, hout, Gathers.leave hsuits⟩
    simp only at hstack
    rw [hstack, List.map_cons, List.reverse_cons, ← List.append_assoc, List.dropLast_concat]
  | scenario => exact ⟨hstack, runs, hout, Gathers.scenario hsuits⟩
  | @collect _ _ _ run left =>
    refine ⟨hstack, runs ++ [run], ?_, ?_⟩
    · simp only at hout
      rw [hout, List.append_assoc]
    · rw [Move.Suits, List.replicate_succ, List.append_cons] at hsuits
      exact hsuits
  | collected =>
    rw [Move.Suits, List.replicate_zero, List.append_nil] at hsuits
    exact ⟨hstack, runs, hout, hsuits⟩
  | inclusion => exact ⟨hstack, runs, hout, Gathers.inclusion hsuits⟩

namespace Expander

theorem Runs.keeps (hruns : Runs c e e') (h : Keeps c root stack out e) :
    Keeps c root stack out e' := by
  induction hruns with
  | refl => exact h
  | tail _ hstep ih => exact ih.step hstep

/-- An expansion that is done has added to the runs what the profile stands for, and nothing to the
stack. -/
theorem Runs.of_call (hruns : Runs c ⟨stack, out, [], .call name referrer⟩ e) (hdone : e.Done) :
    e.stack = stack ∧ ∃ runs, c.FlattensTo name runs ∧ e.out = out ++ runs := by
  obtain ⟨hframes, hmove⟩ := hdone
  obtain ⟨hstack, runs, hout, hsuits⟩ := hruns.keeps (keeps_call c name referrer stack out)
  rw [hframes, List.map_nil, List.reverse_nil, List.append_nil] at hstack
  rw [hframes, hmove] at hsuits
  cases hsuits with
  | all hflat => exact ⟨hstack, runs, hflat, hout⟩

/-- Two expanders with any stacks and any runs, which both succeed in expanding a profile, have the
stacks that they had and the same runs behind those that they had. These are the runs that the
profile stands for, and every expansion of it that succeeds gives them. -/
theorem runs_context_free {stack' : List String} {out' : List Run} {referrer' : Referrer}
    (h : Runs c ⟨stack, out, [], .call name referrer⟩ e) (hdone : e.Done)
    (h' : Runs c ⟨stack', out', [], .call name referrer'⟩ e') (hdone' : e'.Done) :
    e.stack = stack ∧ e'.stack = stack' ∧ ∃ runs, e.out = out ++ runs ∧ e'.out = out' ++ runs ∧
      (∀ other, c.FlattensTo name other ↔ other = runs) ∧
      ∀ path from' used found, c.expand path name from' used = .ok found → found = runs := by
  obtain ⟨hstack, runs, hflat, hout⟩ := h.of_call hdone
  obtain ⟨hstack', runs', hflat', hout'⟩ := h'.of_call hdone'
  cases hflat.unique hflat'
  refine ⟨hstack, hstack', runs, hout, hout', fun other => ⟨fun hother => hother.unique hflat, ?_⟩,
    fun path from' used found hfound => ?_⟩
  · rintro rfl
    exact hflat
  · exact ((Catalog.expanded_of_expand_eq_ok c).1 _ _ _ _ _ hfound).flattens.unique hflat

/-- Two profiles include a third one. -/
def diamond : Catalog where
  profiles := .ofList [
    ("top", [.inclusion "left", .scenario ⟨"x", .middle, none, .empty⟩, .inclusion "right"]),
    ("left", [.inclusion "shared"]),
    ("right", [.inclusion "shared"]),
    ("shared", [.scenario ⟨"s", .late, some 2, .empty⟩])]

/-- The runs of the profile that is included twice. -/
def sharedRuns : List Run :=
  [⟨"s", .late, "shared", .empty⟩, ⟨"s", .late, "shared", .empty⟩]

/-- The expander that comes to it along one of the paths. -/
def atShared (through : String) (out : List Run) : Expander :=
  ⟨["top", through], out, [], .call "shared" (.profile through)⟩

theorem runs_context_free_diamond :
    ∃ e e', Runs diamond (atShared "left" []) e ∧ e.Done ∧ e.stack = ["top", "left"] ∧
      Runs diamond (atShared "right" (sharedRuns ++ [⟨"x", .middle, "top", .empty⟩])) e' ∧
      e'.Done ∧ e'.stack = ["top", "right"] ∧ e.out = sharedRuns ∧
      e'.out = sharedRuns ++ [⟨"x", .middle, "top", .empty⟩] ++ e.out := by
  have hexpand : diamond.expand ["left", "top"] "shared" (.profile "left") 0 = .ok sharedRuns := by
    cbv
  have hexpand' : diamond.expand ["right", "top"] "shared" (.profile "right") 3 =
      .ok sharedRuns := by cbv
  have hleft : Runs diamond (atShared "left" []) ⟨["top", "left"], [] ++ sharedRuns, [], .next⟩ :=
    runs_of_expand ⟨rfl, by decide, rfl, by decide⟩ hexpand
  have hright : Runs diamond (atShared "right" (sharedRuns ++ [⟨"x", .middle, "top", .empty⟩]))
      ⟨["top", "right"], sharedRuns ++ [⟨"x", .middle, "top", .empty⟩] ++ sharedRuns, [], .next⟩ :=
    runs_of_expand ⟨rfl, by decide, rfl, by decide⟩ hexpand'
  obtain ⟨hstack, hstack', runs, hout, hout', -, -⟩ :=
    runs_context_free hleft ⟨rfl, rfl⟩ hright ⟨rfl, rfl⟩
  refine ⟨_, _, hleft, ⟨rfl, rfl⟩, hstack, hright, ⟨rfl, rfl⟩, hstack', rfl, ?_⟩
  rw [hout', hout, List.nil_append]

end Expander

end SuitePlan
