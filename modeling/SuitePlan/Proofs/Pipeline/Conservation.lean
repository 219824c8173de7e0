import Mathlib.Algebra.BigOperators.Group.List.Basic
import Mathlib.Algebra.Order.Ring.Canonical
import Mathlib.Tactic.Ring
import SuitePlan.Proofs.Pipeline.Passes
import SuitePlan.Proofs.Pipeline.Selection

/-!
# What stages make of an item

How many copies a stage makes of an item hangs on its kind and on the scenario of the item alone
(`Stage.count_of_apply`): not on the other items, and not on a seed. So the order of the stages does
not matter for how often an item is in what a pipeline composes (`Pipeline.count_composed`).

Nor does it matter for whether anything is composed. A stage works on items or not, and as long as
no stage takes all items of a scenario away that a profile asks for, it works on what the stages
before it make exactly if it works on the items that they were given
(`Pipeline.composes_iff_forall_works`).
-/

namespace SuitePlan

variable {α : Type} [Item α] {files : Files} {s : Settings} {seeds seeds' : Nat → Int64}
  {seed : Int64} {items : List α} {kind : StageKind} {kinds : List StageKind} {d r : Composition α}
  {steps : List (Step α)}

namespace Repetition

theorem ofSettings_eq_ok_iff {n : Nat} {layout : Layout} :
    ofSettings s = .ok (n, layout) ↔ count s = .ok n ∧ Layout.ofSettings s = .ok layout := by
  simp only [ofSettings, Attempt.bind_eq_ok_iff]
  constructor
  · rintro ⟨n', hn, layout', hlayout, h⟩
    cases h
    exact ⟨hn, hlayout⟩
  · rintro ⟨hn, hlayout⟩
    exact ⟨n, hn, layout, hlayout, rfl⟩

theorem count_of_get?_eq_none (h : s.get? option = none) : count s = .ok 1 := by
  rw [count, Settings.getInt, h]
  rfl

omit [Item α] in
theorem count_repeated [DecidableEq α] (layout : Layout) (n : Nat) (items : List α) (item : α) :
    (repeated layout n items).count item = n * items.count item := by
  cases layout with
  | cyclic => simp [repeated, cyclic_eq, List.count_flatten]
  | sequential =>
    rw [repeated, sequential]
    induction items with
    | nil => rfl
    | cons first rest ih =>
      rw [List.flatMap_cons, List.count_append, ih, List.count_cons, List.count_replicate]
      by_cases h : first = item <;> simp [h, Nat.mul_add, Nat.add_comm]

end Repetition

/-- How many copies a stage of a kind makes of an item of a scenario. -/
def StageKind.copies (files : Files) (s : Settings) (scenario : String) : StageKind → Nat
  | .profile =>
    match s.lineup? files with
    | .ok (some l) => l.scenarioNames.count scenario
    | _ => 1
  | .iterate => (Repetition.count s).toOption.getD 1
  | .shuffle => 1

namespace StageKind

variable {l : Lineup} {n : Nat}

theorem copies_profile (h : s.lineup? files = .ok (some l)) (scenario : String) :
    profile.copies files s scenario = l.scenarioNames.count scenario := by
  simp only [copies, h]

theorem copies_profile_of_none (h : s.get? Source.option = none) (scenario : String) :
    profile.copies files s scenario = 1 := by
  simp only [copies, Settings.lineup?_eq_none_iff.mpr h]

theorem copies_iterate (h : Repetition.count s = .ok n) (scenario : String) :
    iterate.copies files s scenario = n := by
  rw [copies, h]
  rfl

end StageKind

/-- A stage of a kind can do its work on items. -/
def StageKind.Works (files : Files) (s : Settings) (items : List α) : StageKind → Prop
  | .profile => ∃ l?, s.lineup? files = .ok l? ∧ ∀ l ∈ l?, ∀ run ∈ l.runs,
      ∃ item ∈ items, Item.scenarioName item = run.scenario
  | .iterate => ∃ repetition, Repetition.ofSettings s = .ok repetition
  | .shuffle => ∃ request, Shuffle.Request.ofSettings s = .ok request

/-! ## One stage -/

theorem Stage.exists_apply_iff_works :
    (∃ d, (ofKind kind).apply ⟨files, seed⟩ s items = .ok d) ↔ kind.Works files s items := by
  cases kind with
  | profile =>
    show (∃ d, applyProfile _ s items = .ok d) ↔ _
    simp only [applyProfile_eq_ok_iff, Lineup.select_eq_ok_iff, StageKind.Works]
    constructor
    · rintro ⟨d, ⟨hl, -⟩ | ⟨l, selected, hl, ⟨hall, -⟩, -⟩⟩
      · exact ⟨none, hl, by simp⟩
      · exact ⟨some l, hl, by simpa using hall⟩
    · rintro ⟨l?, hl, hall⟩
      cases l? with
      | none => exact ⟨_, .inl ⟨hl, rfl⟩⟩
      | some l => exact ⟨_, .inr ⟨l, _, hl, ⟨hall l rfl, rfl⟩, rfl⟩⟩
  | iterate =>
    show (∃ d, applyIterate s items = .ok d) ↔ _
    simp only [applyIterate_eq_ok_iff, StageKind.Works]
    constructor
    · rintro ⟨d, n, layout, h, -⟩
      exact ⟨_, h⟩
    · rintro ⟨⟨n, layout⟩, h⟩
      exact ⟨_, n, layout, h, rfl⟩
  | shuffle =>
    show (∃ d, applyShuffle _ s items = .ok d) ↔ _
    simp only [applyShuffle_eq_ok_iff, StageKind.Works]
    constructor
    · rintro ⟨d, request, h, -⟩
      exact ⟨request, h⟩
    · rintro ⟨request, h⟩
      cases hused : request.seed? seed with
      | none => exact ⟨_, request, h, .inl ⟨hused, rfl⟩⟩
      | some used => exact ⟨_, request, h, .inr ⟨used, hused, rfl⟩⟩

theorem Stage.count_of_apply [DecidableEq α]
    (h : (ofKind kind).apply ⟨files, seed⟩ s items = .ok d) (item : α) :
    d.items.count item = kind.copies files s (Item.scenarioName item) * items.count item := by
  cases kind with
  | profile =>
    rcases applyProfile_eq_ok_iff.mp h with ⟨hl, rfl⟩ | ⟨l, selected, hl, hselect, rfl⟩
    · rw [StageKind.copies_profile_of_none (Settings.lineup?_eq_none_iff.mp hl), Nat.one_mul]
    · obtain ⟨-, rfl⟩ := Lineup.select_eq_ok_iff.mp hselect
      rw [StageKind.copies_profile hl]
      exact Item.count_selected l.runs items item
  | iterate =>
    obtain ⟨n, layout, hs, rfl⟩ := applyIterate_eq_ok_iff.mp h
    obtain ⟨hn, -⟩ := Repetition.ofSettings_eq_ok_iff.mp hs
    rw [StageKind.copies_iterate hn]
    exact Repetition.count_repeated layout n items item
  | shuffle =>
    obtain ⟨request, -, ⟨-, rfl⟩ | ⟨used, -, rfl⟩⟩ := applyShuffle_eq_ok_iff.mp h
    · simp [StageKind.copies]
    · simp [StageKind.copies, (Shuffle.permute_perm used items).count_eq]

theorem Stage.mem_items_iff_of_apply (h : (ofKind kind).apply ⟨files, seed⟩ s items = .ok d)
    {item : α} :
    item ∈ d.items ↔ 0 < kind.copies files s (Item.scenarioName item) ∧ item ∈ items := by
  classical
  rw [← List.count_pos_iff, count_of_apply h, CanonicallyOrderedAdd.mul_pos, List.count_pos_iff]

/-- A stage that leaves items of every scenario that a profile asks for leaves enough for any
stage. -/
theorem Stage.works_iff_of_apply (h : (ofKind kind).apply ⟨files, seed⟩ s items = .ok d)
    (hleft : ∀ l, s.lineup? files = .ok (some l) → ∀ run ∈ l.runs,
      0 < kind.copies files s run.scenario) (other : StageKind) :
    other.Works files s d.items ↔ other.Works files s items := by
  cases other with
  | profile =>
    apply exists_congr
    intro l?
    apply and_congr_right
    intro hl
    refine forall_congr' fun l => forall_congr' fun hl? => ?_
    cases hl?
    refine forall_congr' fun run => forall_congr' fun hrun => exists_congr fun item => ?_
    rw [mem_items_iff_of_apply h, and_assoc]
    constructor
    · rintro ⟨-, hmem, hname⟩
      exact ⟨hmem, hname⟩
    · rintro ⟨hmem, hname⟩
      exact ⟨hname ▸ hleft l hl run hrun, hmem, hname⟩
  | iterate => exact Iff.rfl
  | shuffle => exact Iff.rfl

/-! ## A pipeline -/

theorem Passes.count_merged [DecidableEq α] {c : Composition α}
    (h : Passes files s seeds items steps) (hc : c.items = items) (item : α) :
    (Step.merged c steps).items.count item = ((steps.map Step.kind).map
      (StageKind.copies files s (Item.scenarioName item))).prod * items.count item := by
  induction h generalizing c with
  | nil => simp [Step.merged, hc]
  | @cons _ _ kind made rest hmade _ ih =>
    show (Step.merged (c.followedBy made) rest).items.count item = _
    rw [ih (c := c.followedBy made) rfl, Stage.count_of_apply hmade, List.map_cons, List.map_cons,
      List.prod_cons]
    ring

theorem Pipeline.count_composed [DecidableEq α]
    (h : (ofKinds kinds).compose files seeds s items = .ok r) (item : α) :
    r.items.count item =
      (kinds.map (StageKind.copies files s (Item.scenarioName item))).prod * items.count item := by
  obtain ⟨steps, hpass, rfl, rfl⟩ := compose_ofKinds_eq_ok_iff.mp h
  exact hpass.count_merged rfl item

/-- Nothing is composed that was not there before. -/
theorem Pipeline.mem_of_mem_composed (h : (ofKinds kinds).compose files seeds s items = .ok r)
    {item : α} (hitem : item ∈ r.items) : item ∈ items := by
  classical
  rw [← List.count_pos_iff, count_composed h] at hitem
  exact List.count_pos_iff.mp (Nat.pos_of_mul_pos_left hitem)

/-- The induction is on the stages: the first one works on the items it is given, and the others on
what it makes of them exactly if they work on these. -/
theorem Pipeline.composes_iff_forall_works
    (hleft : ∀ l, s.lineup? files = .ok (some l) → ∀ run ∈ l.runs, ∀ kind ∈ kinds,
      0 < kind.copies files s run.scenario) :
    (∃ r, (ofKinds kinds).compose files seeds s items = .ok r) ↔
      ∀ kind ∈ kinds, kind.Works files s items := by
  simp only [compose_ofKinds_eq_ok_iff]
  induction kinds generalizing seeds items with
  | nil =>
    simp only [List.not_mem_nil, false_imp_iff, implies_true, iff_true]
    exact ⟨_, [], .nil, rfl, rfl⟩
  | cons kind rest ih =>
    have hrest : ∀ l, s.lineup? files = .ok (some l) → ∀ run ∈ l.runs, ∀ kind ∈ rest,
        0 < kind.copies files s run.scenario := by
      intro l hl run hrun other hother
      exact hleft l hl run hrun other (List.mem_cons_of_mem _ hother)
    have hfirst : ∀ l, s.lineup? files = .ok (some l) → ∀ run ∈ l.runs,
        0 < kind.copies files s run.scenario := by
      intro l hl run hrun
      exact hleft l hl run hrun kind List.mem_cons_self
    rw [List.forall_mem_cons]
    constructor
    · rintro ⟨-, steps, hpass, hkinds, -⟩
      cases hpass with
      | nil => cases hkinds
      | cons hmade hpass =>
        rw [List.map_cons, List.cons.injEq] at hkinds
        obtain ⟨rfl, hkinds⟩ := hkinds
        refine ⟨Stage.exists_apply_iff_works.mp ⟨_, hmade⟩, fun other hother => ?_⟩
        rw [← Stage.works_iff_of_apply hmade hfirst]
        exact (ih hrest).mp ⟨_, _, hpass, hkinds, rfl⟩ other hother
    · rintro ⟨hkind, hothers⟩
      obtain ⟨made, hmade⟩ := Stage.exists_apply_iff_works.mpr hkind
      have hothers' : ∀ other ∈ rest, other.Works files s made.items := by
        intro other hother
        rw [Stage.works_iff_of_apply hmade hfirst]
        exact hothers other hother
      obtain ⟨-, steps, hpass, hkinds, -⟩ := (ih hrest).mpr hothers'
      exact ⟨_, _, .cons hmade hpass, by rw [List.map_cons, hkinds], rfl⟩

end SuitePlan
