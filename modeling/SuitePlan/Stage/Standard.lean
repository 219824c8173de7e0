import SuitePlan.Attempt
import SuitePlan.Profile.Resolution
import SuitePlan.Profile.Selection
import SuitePlan.Shuffle.Permutation
import SuitePlan.Shuffle.Request
import SuitePlan.Stage.Basic

/-!
# The stages of each kind

The profile stage selects the items of a resolved profile and passes all items on where settings ask
for none. The iterate stage repeats items, and the shuffle stage reorders them if it is switched on.
A stage reports the profile or seed it has used as a chosen value.
-/

namespace SuitePlan.Stage

/-! ## Profile -/

/-- Selects the items of the profile that settings ask for. -/
def applyProfile [Item α] (around : Surroundings) (s : Settings) (items : List α) :
    Except Failure (Composition α) := do
  match ← s.lineup? around.files with
  | none => return ⟨items, .empty⟩
  | some l =>
    let selected ← (l.select items).mapError .profile
    return ⟨selected, .ofList [(Source.nameOption, l.name)]⟩

/-- The notes taken while a profile is resolved. -/
def profileNotes (files : Files) (s : Settings) : List Note :=
  match Source.ofSettings files s with
  | .error _ => []
  | .ok none => [.noProfile]
  | .ok (some source) =>
    let outcome := match source.lineup files s with
      | .ok l => .resolved l
      | .error failure => .failed source.origin failure
    [.reading source.origin, outcome]

/-! ## Iterate -/

/-- Repeats items as settings ask. -/
def applyIterate (s : Settings) (items : List α) : Except Failure (Composition α) := do
  let (n, layout) ← (Repetition.ofSettings s).mapError .settings
  return ⟨Repetition.repeated layout n items, .empty⟩

/-- The notes taken while items are repeated. -/
def iterateNotes (s : Settings) (input : Nat) : List Note :=
  match Repetition.ofSettings s with
  | .error _ => []
  | .ok (n, layout) => [.repeating n layout input]

/-! ## Shuffle -/

/-- Shuffles items as settings ask. -/
def applyShuffle (around : Surroundings) (s : Settings) (items : List α) :
    Except Failure (Composition α) := do
  let request ← (Shuffle.Request.ofSettings s).mapError .settings
  match request.seed? around.seed with
  | none => return ⟨items, .empty⟩
  | some seed =>
    return ⟨Shuffle.permute seed items,
      .ofList [(Shuffle.Request.seedOption, Text.Decimal.text seed.toInt)]⟩

/-- The notes taken while items are shuffled. -/
def shuffleNotes (around : Surroundings) (s : Settings) (input : Nat) : List Note :=
  match Shuffle.Request.ofSettings s with
  | .error _ => []
  | .ok .off => []
  | .ok (.seeded seed) => [.shuffling seed input]
  | .ok .unseeded => [.generated around.seed, .shuffling around.seed input]

/-! ## By kind -/

/-- The stage of a kind. -/
def ofKind [Item α] (kind : StageKind) : Stage α where
  name := kind.name
  apply around s items :=
    match kind with
    | .profile => applyProfile around s items
    | .iterate => applyIterate s items
    | .shuffle => applyShuffle around s items
  notes around s items :=
    match kind with
    | .profile => profileNotes around.files s
    | .iterate => iterateNotes s items.length
    | .shuffle => shuffleNotes around s items.length

/-! ## What the stages give -/

variable {α : Type} {around : Surroundings} {s : Settings} {items : List α} {d : Composition α}

theorem applyProfile_eq_ok_iff [Item α] :
    applyProfile around s items = .ok d ↔
      (s.lineup? around.files = .ok none ∧ d = ⟨items, .empty⟩) ∨
      ∃ l selected, s.lineup? around.files = .ok (some l) ∧ l.select items = .ok selected ∧
        d = ⟨selected, .ofList [(Source.nameOption, l.name)]⟩ := by
  simp only [applyProfile, Attempt.bind_eq_ok_iff]
  constructor
  · intro h
    obtain ⟨l?, hl, h⟩ := h
    cases l? with
    | none => exact .inl ⟨hl, (Except.ok.inj h).symm⟩
    | some l =>
      obtain ⟨selected, hselect, h⟩ := Attempt.bind_eq_ok_iff.mp h
      exact .inr ⟨l, selected, hl, Attempt.mapError_eq_ok_iff.mp hselect, (Except.ok.inj h).symm⟩
  · intro h
    rcases h with ⟨hl, rfl⟩ | ⟨l, selected, hl, hselect, rfl⟩
    · exact ⟨none, hl, rfl⟩
    · refine ⟨some l, hl, Attempt.bind_eq_ok_iff.mpr ⟨selected, ?_, rfl⟩⟩
      exact Attempt.mapError_eq_ok_iff.mpr hselect

theorem applyIterate_eq_ok_iff :
    applyIterate s items = .ok d ↔ ∃ n layout, Repetition.ofSettings s = .ok (n, layout) ∧
      d = ⟨Repetition.repeated layout n items, .empty⟩ := by
  simp only [applyIterate, Attempt.bind_eq_ok_iff, Attempt.mapError_eq_ok_iff]
  constructor
  · intro h
    obtain ⟨⟨n, layout⟩, hs, h⟩ := h
    exact ⟨n, layout, hs, (Except.ok.inj h).symm⟩
  · intro h
    obtain ⟨n, layout, hs, rfl⟩ := h
    exact ⟨(n, layout), hs, rfl⟩

theorem applyShuffle_eq_ok_iff :
    applyShuffle around s items = .ok d ↔ ∃ request, Shuffle.Request.ofSettings s = .ok request ∧
      ((request.seed? around.seed = none ∧ d = ⟨items, .empty⟩) ∨
        ∃ seed, request.seed? around.seed = some seed ∧ d = ⟨Shuffle.permute seed items,
          .ofList [(Shuffle.Request.seedOption, Text.Decimal.text seed.toInt)]⟩) := by
  simp only [applyShuffle, Attempt.bind_eq_ok_iff, Attempt.mapError_eq_ok_iff]
  apply exists_congr
  intro request
  apply and_congr_right
  intro _
  cases request.seed? around.seed with
  | none => simp [pure, Except.pure, eq_comm]
  | some seed => simp [pure, Except.pure, eq_comm]

end SuitePlan.Stage
