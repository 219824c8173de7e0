import SuitePlan.Settings.Basic

/-!
# Overrides

An override is a text `key=value`. The key is what stands before the first equals sign, without the
blanks at its ends; the value is everything after it as it stands.
-/

namespace SuitePlan.Settings

/-- The option and the value that an override sets. -/
def readOverride (pair : String) : Except SettingsError (String × String) :=
  match Text.cut? '=' pair.toList with
  | none => .error (.noEqualsSign pair)
  | some (before, after) =>
    let key := Text.trimmed before
    if key.isEmpty then .error (.emptyKey pair)
    else .ok (String.ofList key, String.ofList after)

/-- The settings with the given overrides applied in their order. The first override that cannot be
read is reported. -/
def override (s : Settings) : List String → Except SettingsError Settings
  | [] => .ok s
  | pair :: rest =>
    match readOverride pair with
    | .error e => .error e
    | .ok (key, value) => (s.set key value).override rest

@[simp] theorem override_nil (s : Settings) : s.override [] = .ok s := rfl

/-- Overrides applied together are applied one part after the other. -/
theorem override_append (s : Settings) (xs ys : List String) :
    s.override (xs ++ ys) = (s.override xs).bind fun t => t.override ys := by
  induction xs generalizing s with
  | nil => rfl
  | cons pair rest ih =>
    rw [List.cons_append, override, override]
    cases readOverride pair with
    | error e => rfl
    | ok p => exact ih (s.set p.1 p.2)

end SuitePlan.Settings
