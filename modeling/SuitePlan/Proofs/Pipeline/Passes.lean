import SuitePlan.Pipeline
import SuitePlan.Proofs.Pipeline.Options

/-!
# Passes through a pipeline

A pass of items through stages is told by what each stage made of the items it was given. A pipeline
composes a result exactly if there is such a pass (`Pipeline.compose_ofKinds_eq_ok_iff`), and the
chosen values of the result are the last ones that were chosen on it.

Where the stages of each kind choose alike, as they do if no kind occurs twice, the result has the
very values that they chose for the options of their kind (`Passes.get?_merged_of_alike`), since no
other stage chooses values for these.
-/

namespace SuitePlan

/-- A stage of a pass: its kind, and what it made of the items that it was given. -/
structure Step (α : Type) where
  kind : StageKind
  made : Composition α

/-- Items pass through stages, each of which is given what the one before it made. -/
inductive Passes [Item α] (files : Files) (s : Settings) :
    (Nat → Int64) → List α → List (Step α) → Prop
  | nil {seeds : Nat → Int64} {items : List α} : Passes files s seeds items []
  | cons {seeds : Nat → Int64} {items : List α} {kind : StageKind} {made : Composition α}
      {steps : List (Step α)} :
      (Stage.ofKind kind).apply ⟨files, seeds 0⟩ s items = .ok made →
      Passes files s (fun i => seeds (i + 1)) made.items steps →
      Passes files s seeds items (⟨kind, made⟩ :: steps)

/-- What the steps of a pass make of a composition before them. -/
def Step.merged (c : Composition α) (steps : List (Step α)) : Composition α :=
  steps.foldl (fun c step => c.followedBy step.made) c

variable {α : Type} [Item α] {files : Files} {s : Settings} {seeds : Nat → Int64} {items : List α}
  {kinds : List StageKind} {c r : Composition α} {step : Step α} {steps : List (Step α)}
  {key value : String}

theorem Pipeline.applyFrom_ofKinds_eq_ok_iff :
    applyFrom files seeds s (ofKinds kinds) c = .ok r ↔
      ∃ steps, Passes files s seeds c.items steps ∧ steps.map Step.kind = kinds ∧
        Step.merged c steps = r := by
  induction kinds generalizing seeds c with
  | nil =>
    constructor
    · intro h
      exact ⟨[], .nil, rfl, Except.ok.inj h⟩
    · intro h
      obtain ⟨steps, -, hkinds, rfl⟩ := h
      rw [List.map_eq_nil_iff.mp hkinds]
      rfl
  | cons kind rest ih =>
    rw [ofKinds, List.map_cons, applyFrom]
    constructor
    · intro h
      cases hmade : (Stage.ofKind kind).apply ⟨files, seeds 0⟩ s c.items with
      | error e =>
        rw [hmade] at h
        cases h
      | ok made =>
        rw [hmade] at h
        obtain ⟨steps, hpass, hkinds, rfl⟩ := ih.mp h
        exact ⟨⟨kind, made⟩ :: steps, .cons hmade hpass, by rw [List.map_cons, hkinds], rfl⟩
    · intro h
      obtain ⟨steps, hpass, hkinds, rfl⟩ := h
      cases hpass with
      | nil => cases hkinds
      | @cons _ _ kind' made steps hmade hpass =>
        rw [List.map_cons, List.cons.injEq] at hkinds
        obtain ⟨rfl, hrest⟩ := hkinds
        rw [hmade]
        exact ih.mpr ⟨steps, hpass, hrest, rfl⟩

theorem Pipeline.compose_ofKinds_eq_ok_iff :
    (ofKinds kinds).compose files seeds s items = .ok r ↔
      ∃ steps, Passes files s seeds items steps ∧ steps.map Step.kind = kinds ∧
        Step.merged ⟨items, .empty⟩ steps = r :=
  applyFrom_ofKinds_eq_ok_iff

omit [Item α] in
theorem Pipeline.applyFrom_congr {p : Pipeline α} {seeds' : Nat → Int64} {t : Settings}
    (h : ∀ stage ∈ p, ∀ i given,
      stage.apply ⟨files, seeds i⟩ s given = stage.apply ⟨files, seeds' i⟩ t given)
    (c : Composition α) : p.applyFrom files seeds s c = p.applyFrom files seeds' t c := by
  induction p generalizing seeds seeds' c with
  | nil => rfl
  | cons stage rest ih =>
    rw [List.forall_mem_cons] at h
    rw [applyFrom, applyFrom, h.1 0]
    cases stage.apply ⟨files, seeds' 0⟩ t c.items with
    | error e => rfl
    | ok made => exact ih (fun stage hstage i => h.2 stage hstage (i + 1)) (c.followedBy made)

/-- Settings that agree on the options of all stages compose the same. -/
theorem Pipeline.compose_congr {t : Settings}
    (h : ∀ kind ∈ kinds, Settings.AgreeOn kind.options s t) :
    (ofKinds kinds).compose files seeds s items = (ofKinds kinds).compose files seeds t items := by
  refine applyFrom_congr (fun stage hstage i given => ?_) _
  obtain ⟨kind, hkind, rfl⟩ := List.mem_map.mp hstage
  exact Stage.apply_congr (h kind hkind)

/-- Which stages settings list means nothing to the stages themselves. -/
theorem Pipeline.compose_set_stages (value : String) :
    (ofKinds kinds).compose files seeds (s.set StageKind.option value) items =
      (ofKinds kinds).compose files seeds s items := by
  refine compose_congr fun kind _ key hkey => ?_
  rw [Settings.get?_set, if_neg]
  rintro rfl
  exact kind.option_not_mem_options hkey

/-- Settings that list stages ask for the pipeline of these, whatever else they say. -/
theorem Pipeline.ofSettings_set_stages
    (hread : StageKind.readNames value [] (StageKind.listedNames value) = .ok kinds)
    (hne : kinds ≠ []) :
    ofSettings (s.set StageKind.option value) = .ok (ofKinds kinds : Pipeline α) := by
  have horder : StageKind.orderOfSettings (s.set StageKind.option value) = .ok kinds := by
    rw [StageKind.orderOfSettings, Settings.get?_set, if_pos rfl]
    show StageKind.readNames value [] (StageKind.listedNames value) >>= _ = _
    rw [hread]
    exact if_neg (by simpa using hne)
  rw [ofSettings, horder]
  rfl

theorem Pipeline.compose_profile :
    (ofKinds [.profile]).compose files seeds s items =
      Stage.applyProfile ⟨files, seeds 0⟩ s items := by
  simp only [compose, ofKinds, List.map_cons, List.map_nil, applyFrom, Stage.ofKind,
    Composition.followedBy_of_start]
  cases Stage.applyProfile ⟨files, seeds 0⟩ s items <;> rfl

/-- Stages without any of their options change nothing. -/
theorem Pipeline.compose_of_unset (h : ∀ kind ∈ kinds, ∀ key ∈ kind.options, s.get? key = none) :
    (ofKinds kinds).compose files seeds s items = .ok ⟨items, .empty⟩ := by
  have hfrom : ∀ seeds, applyFrom files seeds s (ofKinds kinds) ⟨items, .empty⟩ =
      .ok ⟨items, .empty⟩ := by
    induction kinds with
    | nil => exact fun _ => rfl
    | cons kind rest ih =>
      rw [List.forall_mem_cons] at h
      intro seeds
      rw [ofKinds, List.map_cons, applyFrom, Stage.apply_of_unset h.1]
      exact ih h.2 _
  exact hfrom seeds

theorem Passes.exists_apply (h : Passes files s seeds items steps) (hmem : step ∈ steps) :
    ∃ seed given, (Stage.ofKind step.kind).apply ⟨files, seed⟩ s given = .ok step.made := by
  induction h with
  | nil => exact absurd hmem List.not_mem_nil
  | cons hmade _ ih =>
    rcases List.mem_cons.mp hmem with rfl | hmem
    · exact ⟨_, _, hmade⟩
    · exact ih hmem

theorem Passes.mem_options_of_chosen (h : Passes files s seeds items steps) (hmem : step ∈ steps)
    (hchosen : step.made.chosen.get? key = some value) : key ∈ step.kind.options := by
  obtain ⟨seed, given, hmade⟩ := h.exists_apply hmem
  exact Stage.mem_options_of_chosen hmade hchosen

theorem Passes.chosen_eq_none (h : Passes files s seeds items steps) (hmem : step ∈ steps)
    (hkey : key ∉ step.kind.options) : step.made.chosen.get? key = none := by
  obtain ⟨seed, given, hmade⟩ := h.exists_apply hmem
  exact Stage.chosen_eq_none hmade hkey

/-! ## The chosen values -/

omit [Item α] in
theorem Step.get?_merged_of_forall (h : ∀ step ∈ steps, step.made.chosen.get? key = none) :
    (merged c steps).chosen.get? key = c.chosen.get? key := by
  induction steps generalizing c with
  | nil => rfl
  | cons step rest ih =>
    show (merged (c.followedBy step.made) rest).chosen.get? key = _
    rw [ih fun other hmem => h other (List.mem_cons_of_mem _ hmem), Composition.get?_followedBy,
      h step List.mem_cons_self, Option.none_or]

omit [Item α] in
/-- A value of the result was chosen by one of the stages, or was there before. -/
theorem Step.exists_of_get?_merged (h : (merged c steps).chosen.get? key = some value) :
    c.chosen.get? key = some value ∨ ∃ step ∈ steps, step.made.chosen.get? key = some value := by
  induction steps generalizing c with
  | nil => exact .inl h
  | cons step rest ih =>
    rcases ih h with hfirst | ⟨other, hmem, hother⟩
    · rw [Composition.get?_followedBy, Option.or_eq_some_iff] at hfirst
      rcases hfirst with hstep | ⟨-, hc⟩
      · exact .inr ⟨step, List.mem_cons_self, hstep⟩
      · exact .inl hc
    · exact .inr ⟨other, List.mem_cons_of_mem _ hmem, hother⟩

omit [Item α] in
/-- A value is left open exactly if it was open before and no stage has chosen it. -/
theorem Step.get?_merged_eq_none_iff :
    (merged c steps).chosen.get? key = none ↔
      c.chosen.get? key = none ∧ ∀ step ∈ steps, step.made.chosen.get? key = none := by
  induction steps generalizing c with
  | nil => simp [merged]
  | cons step rest ih =>
    show (merged (c.followedBy step.made) rest).chosen.get? key = none ↔ _
    rw [ih, Composition.get?_followedBy, Option.or_eq_none_iff, List.forall_mem_cons, and_assoc,
      and_left_comm]

/-- Where the stages of a kind choose alike, the result has what each of them chose. -/
theorem Passes.get?_merged_of_alike (h : Passes files s seeds items steps) (hmem : step ∈ steps)
    (hkey : key ∈ step.kind.options) (hc : c.chosen.get? key = none)
    (halike : ∀ other ∈ steps, other.kind = step.kind →
      other.made.chosen.get? key = step.made.chosen.get? key) :
    (Step.merged c steps).chosen.get? key = step.made.chosen.get? key := by
  cases hr : (Step.merged c steps).chosen.get? key with
  | none => exact ((Step.get?_merged_eq_none_iff.mp hr).2 step hmem).symm
  | some value =>
    rcases Step.exists_of_get?_merged hr with hfirst | ⟨other, hother, hvalue⟩
    · rw [hc] at hfirst
      cases hfirst
    · -- No other kind of stage chooses a value for the option.
      have hkind : other.kind = step.kind :=
        StageKind.eq_of_mem_options (h.mem_options_of_chosen hother hvalue) hkey
      rw [← halike other hother hkind, hvalue]

omit [Item α] in
theorem Step.eq_of_kind_eq {other : Step α} (hmem : step ∈ steps) (hother : other ∈ steps)
    (hkind : other.kind = step.kind) (hcount : (steps.map Step.kind).count step.kind ≤ 1) :
    other = step := by
  induction steps with
  | nil => exact absurd hmem List.not_mem_nil
  | cons first rest ih =>
    rw [List.map_cons, List.count_cons] at hcount
    have hlater : ∀ later ∈ rest, later.kind = step.kind →
        0 < (rest.map Step.kind).count step.kind := by
      intro later hlater heq
      exact List.count_pos_iff.mpr (List.mem_map.mpr ⟨later, hlater, heq⟩)
    rcases List.mem_cons.mp hmem with rfl | hrest <;>
      rcases List.mem_cons.mp hother with rfl | hrest'
    · rfl
    · have := hlater other hrest' hkind
      simp at hcount
      omega
    · have := hlater step hrest rfl
      simp [hkind] at hcount
      omega
    · exact ih hrest hrest' (by omega)

theorem Passes.get?_merged_of_mem (h : Passes files s seeds items steps)
    (hnodup : (steps.map Step.kind).Nodup) (hmem : step ∈ steps) (hkey : key ∈ step.kind.options)
    (hc : c.chosen.get? key = none) :
    (Step.merged c steps).chosen.get? key = step.made.chosen.get? key := by
  refine h.get?_merged_of_alike hmem hkey hc fun other hother hkind => ?_
  rw [Step.eq_of_kind_eq hmem hother hkind (List.nodup_iff_count.mp hnodup _)]

end SuitePlan
