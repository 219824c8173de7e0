import SuitePlan.Attempt
import SuitePlan.Settings.Basic

/-!
# The order of stages

The option `stages` lists the kinds of stages in the order in which they are applied, separated by
commas. Blanks around a name, the case of its letters and empty places in the list do not matter.

No kind is listed twice (`nodup_of_orderOfSettings`).
-/

namespace SuitePlan.StageKind

/-- The option that lists the stages. -/
def option : String := "stages"

/-- The names in the value of the option. -/
def listedNames (value : String) : List String :=
  let names := (Text.pieces ',' value.toList).map Text.trimmed
  (names.filter fun name => !name.isEmpty).map fun name => String.ofList (Settings.lowered name)

/-- Adds the kinds of the given names to those listed before them. -/
def readNames (value : String) : List StageKind → List String →
    Except SettingsError (List StageKind)
  | listed, [] => .ok listed
  | listed, name :: rest =>
    match ofName? name with
    | none => .error (.malformed option value .stages)
    | some kind =>
      if kind ∈ listed then .error (.repeatedStage kind)
      else readNames value (listed ++ [kind]) rest

/-- The order of stages that settings ask for. -/
def orderOfSettings (s : Settings) : Except SettingsError (List StageKind) :=
  match s.get? option with
  | none => .ok standardOrder
  | some value => do
    let order ← readNames value [] (listedNames value)
    if order.isEmpty then .error .noStage else .ok order

variable {s t : Settings} {value : String} {names : List String} {listed kinds : List StageKind}

theorem nodup_of_readNames (hlisted : listed.Nodup)
    (h : readNames value listed names = .ok kinds) : kinds.Nodup := by
  induction names generalizing listed with
  | nil =>
    cases h
    exact hlisted
  | cons name rest ih =>
    rw [readNames] at h
    cases hkind : ofName? name with
    | none =>
      rw [hkind] at h
      cases h
    | some kind =>
      simp only [hkind] at h
      by_cases hmem : kind ∈ listed
      · rw [if_pos hmem] at h
        cases h
      · rw [if_neg hmem] at h
        refine ih (List.nodup_append.mpr ⟨hlisted, by simp, ?_⟩) h
        intro other hother new hnew heq
        rw [List.mem_singleton.mp hnew] at heq
        exact hmem (heq ▸ hother)

theorem nodup_of_orderOfSettings (h : orderOfSettings s = .ok kinds) : kinds.Nodup := by
  unfold orderOfSettings at h
  cases hvalue : s.get? option with
  | none =>
    rw [hvalue] at h
    cases h
    decide
  | some value =>
    rw [hvalue] at h
    obtain ⟨order, horder, h⟩ := Attempt.bind_eq_ok_iff.mp h
    split at h
    · cases h
    · cases h
      exact nodup_of_readNames List.nodup_nil horder

theorem orderOfSettings_congr (h : s.get? option = t.get? option) :
    orderOfSettings s = orderOfSettings t := by
  rw [orderOfSettings, orderOfSettings, h]

end SuitePlan.StageKind
