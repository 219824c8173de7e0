/-!
# Attempts

A step that may fail gives a value or an error. A chain of such steps gives a value exactly if each
step does.
-/

namespace SuitePlan.Attempt

variable {ε ε' α β γ : Type u} {x : Except ε α}

theorem map_eq_ok_iff {f : α → β} {b : β} : x.map f = .ok b ↔ ∃ a, x = .ok a ∧ f a = b := by
  cases x <;> simp [Except.map]

theorem map_eq_error_iff {f : α → β} {e : ε} : x.map f = .error e ↔ x = .error e := by
  cases x <;> simp [Except.map]

theorem mapError_eq_ok_iff {f : ε → ε'} {a : α} : x.mapError f = .ok a ↔ x = .ok a := by
  cases x with
  | error e =>
    show Except.error (f e) = .ok a ↔ _
    simp
  | ok b =>
    show Except.ok b = .ok a ↔ _
    simp

/-- Attempts need not have decidable equality for their value to be computed. -/
theorem toOption_eq_some_iff {a : α} : x.toOption = some a ↔ x = .ok a := by
  cases x <;> simp [Except.toOption]

theorem bind_eq_ok_iff {f : α → Except ε β} {b : β} :
    (x >>= f) = .ok b ↔ ∃ a, x = .ok a ∧ f a = .ok b := by
  cases x <;> simp [bind, Except.bind]

/-! ## Lists of attempts -/

/-- Where all items of a list are attempted, each is, and another item in the place of one changes
nothing else. -/
theorem mapM_exchange {f : α → Except ε β} {a : α} {xs ys : List α} {bs : List β}
    (h : (xs ++ a :: ys).mapM f = .ok bs) :
    (∃ b, f a = .ok b) ∧ ∃ us vs, xs.mapM f = .ok us ∧ ys.mapM f = .ok vs ∧
      ∀ a', (xs ++ a' :: ys).mapM f = (f a').map fun b => us ++ b :: vs := by
  rw [List.mapM_append, List.mapM_cons] at h
  obtain ⟨us, hus, h⟩ := bind_eq_ok_iff.mp h
  obtain ⟨tail, htail, -⟩ := bind_eq_ok_iff.mp h
  obtain ⟨b, hb, htail⟩ := bind_eq_ok_iff.mp htail
  obtain ⟨vs, hvs, -⟩ := bind_eq_ok_iff.mp htail
  refine ⟨⟨b, hb⟩, us, vs, hus, hvs, fun a' => ?_⟩
  rw [List.mapM_append, List.mapM_cons, hus, hvs]
  cases f a' with
  | error e => rfl
  | ok b' => rfl

/-- What each attempt leaves of its item is left of the whole list. -/
theorem map_of_mapM {f : α → Except ε β} {g : α → γ} {k : β → γ}
    (hf : ∀ a b, f a = .ok b → k b = g a) {xs : List α} {bs : List β} (h : xs.mapM f = .ok bs) :
    bs.map k = xs.map g := by
  induction xs generalizing bs with
  | nil =>
    cases h
    rfl
  | cons a rest ih =>
    rw [List.mapM_cons] at h
    obtain ⟨b, hb, h⟩ := bind_eq_ok_iff.mp h
    obtain ⟨more, hmore, h⟩ := bind_eq_ok_iff.mp h
    cases h
    rw [List.map_cons, List.map_cons, hf a b hb, ih hmore]

end SuitePlan.Attempt
