import SuitePlan.Settings.Basic

/-!
# Repetition

A suite is repeated as a whole, one pass after another, or item by item in place.

`getElem?_cyclic` and `getElem?_sequential` say which item stands at each position.
-/

namespace SuitePlan

/-- How the repetitions of items are laid out. -/
inductive Layout where
  /-- The whole sequence again and again. -/
  | cyclic
  /-- Each item so often before the next. -/
  | sequential
  deriving DecidableEq, Repr

namespace Layout

/-- The option that names the layout. -/
def option : String := "order"

/-- The layout, if none is named. -/
instance : Inhabited Layout := ⟨.cyclic⟩

/-- How a note shows a layout. -/
def title : Layout → String
  | .cyclic => "Cyclic"
  | .sequential => "Sequential"

/-- The layout of the given name, blanks at its ends and the case of its letters aside. -/
def ofName? (s : String) : Option Layout :=
  let word := String.ofList (Settings.lowered (Text.trimmed s.toList))
  if word = "cyclic" then some .cyclic
  else if word = "sequential" then some .sequential
  else none

/-- The layout that settings ask for. -/
def ofSettings (s : Settings) : Except SettingsError Layout :=
  match s.get? option with
  | none => .ok default
  | some value =>
    match ofName? value with
    | some layout => .ok layout
    | none => .error (.malformed option value .layout)

end Layout

namespace Repetition

/-- The option that says how often a suite is repeated. -/
def option : String := "iterations"

/-- How often settings ask a suite to be repeated: once if they say nothing. -/
def count (s : Settings) : Except SettingsError Nat := do
  let n ← s.getInt option 1
  if n < 0 then .error (.negative option n.toInt) else .ok n.toInt.toNat

/-- How often and in which layout settings ask a suite to be repeated. -/
def ofSettings (s : Settings) : Except SettingsError (Nat × Layout) := do
  let n ← count s
  return (n, ← Layout.ofSettings s)

/-- The items `n` times, one pass after another. -/
def cyclic (n : Nat) (items : List α) : List α :=
  if items.isEmpty then [] else (List.replicate n items).flatten

/-- Each item `n` times before the next. -/
def sequential (n : Nat) (items : List α) : List α :=
  items.flatMap (List.replicate n)

/-- The items `n` times in a layout. -/
def repeated (layout : Layout) (n : Nat) (items : List α) : List α :=
  match layout with
  | .cyclic => cyclic n items
  | .sequential => sequential n items

theorem cyclic_eq (n : Nat) (items : List α) :
    cyclic n items = (List.replicate n items).flatten := by
  unfold cyclic
  cases items <;> simp

theorem length_cyclic (n : Nat) (items : List α) : (cyclic n items).length = n * items.length := by
  simp [cyclic_eq]

theorem length_sequential (n : Nat) (items : List α) :
    (sequential n items).length = n * items.length := by
  induction items with
  | nil => rfl
  | cons item rest ih =>
    simp only [sequential, List.flatMap_cons, List.length_append, List.length_replicate,
      List.length_cons] at ih ⊢
    rw [ih, Nat.mul_succ, Nat.add_comm]

/-- In passes the items recur with the length of a pass. -/
theorem getElem?_cyclic {n k : Nat} {items : List α} (h : k < n * items.length) :
    (cyclic n items)[k]? = items[k % items.length]? := by
  rw [cyclic_eq]
  induction n generalizing k with
  | zero => simp at h
  | succ n ih =>
    rw [List.replicate_succ, List.flatten_cons, List.getElem?_append]
    split
    · rw [Nat.mod_eq_of_lt (by assumption)]
    · rename_i hk
      rw [ih (by rw [Nat.succ_mul] at h; omega), ← Nat.mod_eq_sub_mod (by omega)]

/-- In place each item takes as many positions as there are repetitions. -/
theorem getElem?_sequential {n k : Nat} {items : List α} (h : k < n * items.length) :
    (sequential n items)[k]? = items[k / n]? := by
  have hn : 0 < n := Nat.pos_of_mul_pos_right (Nat.zero_lt_of_lt h)
  induction items generalizing k with
  | nil => simp at h
  | cons item rest ih =>
    simp only [sequential, List.flatMap_cons] at ih ⊢
    rw [List.getElem?_append, List.length_replicate]
    split
    · rename_i hk
      rw [Nat.div_eq_of_lt hk, List.getElem?_replicate, if_pos hk, List.getElem?_cons_zero]
    · rename_i hk
      rw [ih (by rw [List.length_cons, Nat.mul_succ] at h; omega)]
      have : k / n = (k - n) / n + 1 := by
        rw [← Nat.add_div_right _ hn, Nat.sub_add_cancel (by omega)]
      rw [this, List.getElem?_cons_succ]

theorem ofSettings_congr {s t : Settings} (hcount : s.get? option = t.get? option)
    (hlayout : s.get? Layout.option = t.get? Layout.option) : ofSettings s = ofSettings t := by
  simp only [ofSettings, count, Layout.ofSettings, hlayout, Settings.getInt_congr hcount]

end Repetition

end SuitePlan
