import SuitePlan.Proofs.Pipeline.Conservation
import SuitePlan.Proofs.Replay.Pipelines

/-!
# The order of stages

Stages of different kinds may be put in any order. An item is then in the result as often as it was
given, times the number of repetitions, times the number of runs of its scenario; and where items
are repeated at all, one order composes something if every order does
(`Pipeline.stage_order_conserves`).

Without repetitions this is not so: with nothing left of the items a profile finds none, but there
is nothing wrong with leaving nothing of those it has found.
-/

namespace SuitePlan

variable {α : Type} [Item α] {files : Files} {s : Settings} {seeds seeds' : Nat → Int64}
  {items : List α} {kinds other : List StageKind} {r : Composition α} {l : Lineup} {run : Run}

theorem Pipeline.exists_works_of_compose
    (h : (ofKinds kinds).compose files seeds s items = .ok r) {kind : StageKind}
    (hkind : kind ∈ kinds) : ∃ given : List α, kind.Works files s given := by
  obtain ⟨steps, hpass, rfl, -⟩ := compose_ofKinds_eq_ok_iff.mp h
  obtain ⟨step, hmem, rfl⟩ := List.mem_map.mp hkind
  obtain ⟨seed, given, hmade⟩ := hpass.exists_apply hmem
  exact ⟨given, Stage.exists_apply_iff_works.mp ⟨_, hmade⟩⟩

namespace StageKind

/-- No stage takes all items of a scenario away that a profile asks for, unless items are not
repeated even once. -/
theorem copies_pos (hcount : Repetition.count s ≠ .ok 0) (hl : s.lineup? files = .ok (some l))
    (hrun : run ∈ l.runs) (kind : StageKind) : 0 < kind.copies files s run.scenario := by
  cases kind with
  | profile =>
    rw [copies_profile hl]
    exact List.count_pos_iff.mpr (List.mem_map.mpr ⟨run, hrun, rfl⟩)
  | iterate =>
    rw [copies]
    cases hn : Repetition.count s with
    | error e => exact Nat.one_pos
    | ok n => exact Nat.pos_of_ne_zero fun hzero => hcount (hzero ▸ hn)
  | shuffle => exact Nat.one_pos

theorem prod_map_eq_pow (f : StageKind → Nat) (kinds : List StageKind) :
    (kinds.map f).prod = f .profile ^ kinds.count .profile * f .iterate ^ kinds.count .iterate *
      f .shuffle ^ kinds.count .shuffle := by
  induction kinds with
  | nil => rfl
  | cons kind rest ih =>
    rw [List.map_cons, List.prod_cons, ih]
    cases kind <;> simp [pow_succ] <;> ring

/-- Where no kind occurs twice, each takes part once or not at all. -/
theorem prod_map_of_nodup (f : StageKind → Nat) (hnodup : kinds.Nodup) :
    (kinds.map f).prod = (if .profile ∈ kinds then f .profile else 1) *
      (if .iterate ∈ kinds then f .iterate else 1) *
      (if .shuffle ∈ kinds then f .shuffle else 1) := by
  rw [prod_map_eq_pow, hnodup.count, hnodup.count, hnodup.count]
  split_ifs <;> simp

end StageKind

theorem Pipeline.composes_iff_of_perm (hperm : other.Perm kinds)
    (hcount : Repetition.count s ≠ .ok 0) :
    (∃ r, (ofKinds other).compose files seeds' s items = .ok r) ↔
      ∃ r, (ofKinds kinds).compose files seeds s items = .ok r := by
  rw [composes_iff_forall_works fun l hl run hrun kind _ => kind.copies_pos hcount hl hrun,
    composes_iff_forall_works fun l hl run hrun kind _ => kind.copies_pos hcount hl hrun]
  exact forall_congr' fun kind => by rw [hperm.mem_iff]

/-- Stages of different kinds neither lose items nor add any beyond what they are asked for, in
whatever order they are. Two orders of the same stages both compose something or both do not, unless
there are no repetitions. -/
theorem Pipeline.stage_order_conserves [DecidableEq α] (hnodup : kinds.Nodup) :
    (∀ r, (ofKinds kinds).compose files seeds s items = .ok r →
      ∃ n : Nat, ∃ runs : String → Nat,
        (if .iterate ∈ kinds then Repetition.count s = .ok n else n = 1) ∧
        (if .profile ∈ kinds ∧ s.get? Source.option ≠ none then
            ∃ l, s.lineup? files = .ok (some l) ∧
              ∀ scenario, runs scenario = l.scenarioNames.count scenario
          else ∀ scenario, runs scenario = 1) ∧
        ∀ item, r.items.count item = n * items.count item * runs (Item.scenarioName item)) ∧
    ∀ other, other.Perm kinds →
      (s.get? Repetition.option = none ∨ ∃ n, Repetition.count s = .ok n ∧ 1 ≤ n) →
      ((∃ r, (ofKinds other).compose files seeds' s items = .ok r) ↔
        ∃ r, (ofKinds kinds).compose files seeds s items = .ok r) := by
  constructor
  · intro r hr
    refine ⟨if .iterate ∈ kinds then StageKind.iterate.copies files s "" else 1,
      fun scenario => if .profile ∈ kinds then StageKind.profile.copies files s scenario else 1,
      ?_, ?_, ?_⟩
    · split_ifs with hiterate
      · obtain ⟨-, ⟨n, layout⟩, hs⟩ := exists_works_of_compose hr hiterate
        obtain ⟨hn, -⟩ := Repetition.ofSettings_eq_ok_iff.mp hs
        rw [hn, StageKind.copies_iterate hn]
      · rfl
    · by_cases hprofile : .profile ∈ kinds
      · obtain ⟨-, l?, hl, -⟩ := exists_works_of_compose hr hprofile
        cases l? with
        | none =>
          have hnone := Settings.lineup?_eq_none_iff.mp hl
          simp [hnone, StageKind.copies_profile_of_none hnone]
        | some l =>
          have hsome : s.get? Source.option ≠ none := fun hnone => by
            simp [Settings.lineup?_eq_none_iff.mpr hnone] at hl
          simp only [hprofile, hsome, ne_eq, not_false_eq_true, and_self, if_true]
          exact ⟨l, hl, fun scenario => StageKind.copies_profile hl scenario⟩
      · simp [hprofile]
    · intro item
      rw [count_composed hr, StageKind.prod_map_of_nodup _ hnodup]
      simp only [StageKind.copies]
      split_ifs <;> ring
  · intro other hperm hcount
    refine composes_iff_of_perm hperm fun hzero => ?_
    rcases hcount with hnone | ⟨n, hn, hpos⟩
    · rw [Repetition.count_of_get?_eq_none hnone] at hzero
      cases hzero
    · rw [hzero, Except.ok.injEq] at hn
      omega

/-! ## Repeated before it is selected -/

/-- Settings for a profile and for two rounds of the items. -/
def doubledSettings : Settings :=
  .ofList [("profile", inlineText "p"), ("iterations", "2")]

/-- The suite that they compose from `a`, `b` and `a`, if the profile comes last. -/
def doubledSuite : Composition String :=
  ⟨["a", "a", "a", "a"], .ofList [("profile-name", "p")]⟩

theorem lineup?_doubledSettings :
    doubledSettings.lineup? Files.empty = .ok (some (inlineLineup "p")) :=
  lineup?_plainText (by decide +kernel) (by cbv)

theorem compose_doubledSettings :
    (Pipeline.ofKinds [.iterate, .profile]).compose Files.empty (fun _ => 0) doubledSettings
      ["a", "b", "a"] = .ok doubledSuite := by
  have hiterate : Stage.applyIterate doubledSettings ["a", "b", "a"] =
      .ok ⟨["a", "b", "a", "a", "b", "a"], .empty⟩ := by cbv
  have hselect : (inlineLineup "p").select ["a", "b", "a", "a", "b", "a"] =
      .ok ["a", "a", "a", "a"] :=
    Lineup.select_eq_ok_iff.mpr ⟨by decide, by decide⟩
  have hprofile : Stage.applyProfile ⟨Files.empty, 0⟩ doubledSettings
      ["a", "b", "a", "a", "b", "a"] = .ok doubledSuite :=
    Stage.applyProfile_eq_ok_iff.mpr
      (.inr ⟨inlineLineup "p", _, lineup?_doubledSettings, hselect, rfl⟩)
  exact Pipeline.compose_ofKinds_eq_ok_iff.mpr ⟨[⟨.iterate, _⟩, ⟨.profile, _⟩],
    .cons hiterate (.cons hprofile .nil), rfl, by cbv⟩

/-- Both items named `a` are there twice, and they would be if they were selected first. -/
theorem Pipeline.stage_order_conserves_doubledSuite :
    doubledSuite.items.count "a" = 2 * 2 * 1 ∧
      ∃ r, (ofKinds [.profile, .iterate]).compose Files.empty (fun _ => 1) doubledSettings
        ["a", "b", "a"] = .ok r := by
  have hnodup : [StageKind.iterate, .profile].Nodup := by decide
  have hcount : Repetition.count doubledSettings = .ok 2 := by cbv
  obtain ⟨hcounts, horders⟩ := @stage_order_conserves String _ Files.empty doubledSettings
    (fun _ => 0) (fun _ => 1) ["a", "b", "a"] [.iterate, .profile] _ hnodup
  constructor
  · obtain ⟨n, runs, hn, hruns, hcounted⟩ := hcounts doubledSuite compose_doubledSettings
    rw [if_pos (by decide), hcount, Except.ok.injEq] at hn
    rw [if_pos (by decide +kernel)] at hruns
    obtain ⟨l, hl, hruns⟩ := hruns
    rw [lineup?_doubledSettings, Except.ok.injEq, Option.some.injEq] at hl
    rw [hcounted, ← hn, hruns, ← hl]
    rfl
  · exact (horders [.profile, .iterate] (by decide) (.inr ⟨2, hcount, by decide⟩)).mpr
      ⟨doubledSuite, compose_doubledSettings⟩

end SuitePlan
