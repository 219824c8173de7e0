import SuitePlan.Attempt
import SuitePlan.Settings.Basic

/-!
# Requests to shuffle

Settings switch shuffling on and may give the seed for it. The seed is checked even where it is not
used.
-/

namespace SuitePlan.Shuffle

/-- What settings ask for. -/
inductive Request where
  | off
  | seeded (seed : Int64)
  /-- Shuffling with a seed that is to be generated. -/
  | unseeded
  deriving DecidableEq, Repr

namespace Request

/-- The option that switches shuffling on. -/
def option : String := "shuffle"

/-- The option that gives the seed. -/
def seedOption : String := "seed"

/-- What settings ask for. -/
def ofSettings (s : Settings) : Except SettingsError Request := do
  let on ← s.getFlag option false
  let seed? ← s.getLong? seedOption
  return if on then (seed?.map Request.seeded).getD .unseeded else .off

/-- The seed to shuffle with, where `generated` is the one to use if none is given. -/
def seed? (generated : Int64) : Request → Option Int64
  | .off => none
  | .seeded seed => some seed
  | .unseeded => some generated

variable {s t : Settings} {request : Request} {generated seed : Int64}

theorem ofSettings_congr (hoption : s.get? option = t.get? option)
    (hseed : s.get? seedOption = t.get? seedOption) : ofSettings s = ofSettings t := by
  simp only [ofSettings, Settings.getFlag_congr hoption, Settings.getLong?_congr hseed]

theorem ofSettings_eq_ok_iff :
    ofSettings s = .ok request ↔
      ∃ on seed?, s.getFlag option false = .ok on ∧ s.getLong? seedOption = .ok seed? ∧
        (if on then (seed?.map Request.seeded).getD .unseeded else .off) = request := by
  simp only [ofSettings, Attempt.bind_eq_ok_iff]
  constructor
  · intro h
    obtain ⟨on, hon, seed?, hseed, h⟩ := h
    exact ⟨on, seed?, hon, hseed, Except.ok.inj h⟩
  · intro h
    obtain ⟨on, seed?, hon, hseed, rfl⟩ := h
    exact ⟨on, hon, seed?, hseed, rfl⟩

/-- A seed is generated exactly if settings switch shuffling on and give none. -/
theorem ofSettings_eq_unseeded_iff :
    ofSettings s = .ok .unseeded ↔
      s.getFlag option false = .ok true ∧ s.get? seedOption = none := by
  rw [ofSettings_eq_ok_iff, ← Settings.getLong?_eq_none_iff]
  constructor
  · intro h
    obtain ⟨on, seed?, hon, hseed, h⟩ := h
    cases on <;> cases seed? <;> cases h
    exact ⟨hon, hseed⟩
  · intro h
    exact ⟨true, none, h.1, h.2, rfl⟩

end Request

end SuitePlan.Shuffle
