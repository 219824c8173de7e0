import SuitePlan.Settings.Error
import SuitePlan.Table
import SuitePlan.Text.Blank
import SuitePlan.Text.Decimal
import SuitePlan.Text.Pieces

/-!
# Settings

Settings give options their values as text. A value is read as a number or a switch only when it is
asked for: an absent option takes the default of whoever asks, and a value that cannot be read is an
error, never the default.
-/

namespace SuitePlan

/-- The value of each option that is set. -/
structure Settings where
  options : Table String
  deriving DecidableEq

namespace Settings

/-- Settings without options. -/
def empty : Settings := ⟨.empty⟩

/-- Nothing is set unless it is said. -/
instance : Inhabited Settings := ⟨empty⟩

/-- The settings of the given pairs; of several pairs for one option the last one counts. -/
def ofList (pairs : List (String × String)) : Settings := ⟨.ofList pairs⟩

/-- The options and their values in ascending order of the options. -/
def toList (s : Settings) : List (String × String) := s.options.entries

/-- The settings with one option set. -/
def set (s : Settings) (key value : String) : Settings := ⟨s.options.insert key value⟩

/-- The settings with several options set in the given order. -/
def setAll (s : Settings) (pairs : List (String × String)) : Settings :=
  ⟨s.options.insertAll pairs⟩

/-- The value of an option. -/
def get? (s : Settings) (key : String) : Option String := s.options.get? key

/-- Whether an option is set. -/
def contains (s : Settings) (key : String) : Bool := s.options.contains key

/-- The value of an option, or a default if it is not set. -/
def getText (s : Settings) (key default : String) : String := (s.get? key).getD default

@[simp] theorem get?_set (s : Settings) (key other value : String) :
    (s.set key value).get? other = if key = other then some value else s.get? other :=
  Table.get?_insert s.options key other value

/-- Settings are determined by the values of their options. -/
theorem ext_get? {s t : Settings} (h : ∀ key, s.get? key = t.get? key) : s = t := by
  obtain ⟨s⟩ := s
  obtain ⟨t⟩ := t
  have : s = t := Table.ext_get? h
  rw [this]

/-! ## Numbers and switches -/

/-- The integer that a value denotes, blanks at its ends aside, if it is within the bounds. -/
def integerWithin? (low high : Int) (value : String) : Option Int :=
  (Text.Decimal.read? (Text.trimmed value.toList)).filter fun n => low ≤ n && n ≤ high

/-- The value of an option as a 32-bit integer. -/
def getInt (s : Settings) (key : String) (default : Int32) : Except SettingsError Int32 :=
  match s.get? key with
  | none => .ok default
  | some value =>
    match integerWithin? Int32.minValue.toInt Int32.maxValue.toInt value with
    | some n => .ok (Int32.ofInt n)
    | none => .error (.malformed key value .integer)

/-- The value of an option as a 64-bit integer, if the option is set. -/
def getLong? (s : Settings) (key : String) : Except SettingsError (Option Int64) :=
  match s.get? key with
  | none => .ok none
  | some value =>
    match integerWithin? Int64.minValue.toInt Int64.maxValue.toInt value with
    | some n => .ok (some (Int64.ofInt n))
    | none => .error (.malformed key value .longInteger)

/-- The value of an option as a 64-bit integer. -/
def getLong (s : Settings) (key : String) (default : Int64) : Except SettingsError Int64 := do
  return (← s.getLong? key).getD default

/-- The lower-case form of a text. Only the letters of ASCII have one. -/
def lowered (cs : List Char) : List Char :=
  cs.map Char.toLower

/-- The switch that a value denotes, blanks at its ends and the case of its letters aside. -/
def flag? (value : String) : Option Bool :=
  let word := String.ofList (lowered (Text.trimmed value.toList))
  if word = "true" then some true else if word = "false" then some false else none

/-- The value of an option as a switch. -/
def getFlag (s : Settings) (key : String) (default : Bool) : Except SettingsError Bool :=
  match s.get? key with
  | none => .ok default
  | some value =>
    match flag? value with
    | some b => .ok b
    | none => .error (.malformed key value .flag)

/-! ## Written numbers -/

variable {s t : Settings} {key : String}

theorem isBlank_of_mem_render {n : Int} {c : Char} (h : c ∈ Text.Decimal.render n) :
    Text.isBlank c = false := by
  have hdigit : ∀ c ∈ Text.Decimal.digits n.natAbs, Text.isBlank c = false := by
    intro c hc
    exact Text.isBlank_of_isDigit (List.all_eq_true.mp (Text.Decimal.digits_all _) c hc)
  rw [Text.Decimal.render] at h
  split at h
  · rcases List.mem_cons.mp h with rfl | h
    · decide
    · exact hdigit c h
  · exact hdigit c h

theorem trimmed_text (n : Int) :
    Text.trimmed (Text.Decimal.text n).toList = Text.Decimal.render n := by
  rw [Text.Decimal.text, String.toList_ofList]
  exact Text.trimmed_of_ends (fun c hc => isBlank_of_mem_render (List.mem_of_mem_head? hc))
    (fun c hc => isBlank_of_mem_render (List.mem_of_getLast? hc))

/-- A written integer within the bounds is the one it was written from. -/
theorem integerWithin?_text {low high n : Int} (hlow : low ≤ n) (hhigh : n ≤ high) :
    integerWithin? low high (Text.Decimal.text n) = some n := by
  rw [integerWithin?, trimmed_text, Text.Decimal.read?_render, Option.filter_some,
    if_pos (by simp [hlow, hhigh])]

/-- A 64-bit integer that was written as the value of an option is read back. -/
theorem getLong?_of_text {n : Int64} (h : s.get? key = some (Text.Decimal.text n.toInt)) :
    s.getLong? key = .ok (some n) := by
  have hbounds : integerWithin? Int64.minValue.toInt Int64.maxValue.toInt
      (Text.Decimal.text n.toInt) = some n.toInt := by
    apply integerWithin?_text
    · exact n.minValue_le_toInt
    · exact n.toInt_le
  rw [getLong?, h]
  simp only [hbounds, Int64.ofInt_toInt]

/-! ## What is read -/

theorem getInt_congr (h : s.get? key = t.get? key) (default : Int32) :
    s.getInt key default = t.getInt key default := by
  rw [getInt, getInt, h]

theorem getLong?_congr (h : s.get? key = t.get? key) : s.getLong? key = t.getLong? key := by
  rw [getLong?, getLong?, h]

theorem getLong?_eq_none_iff : s.getLong? key = .ok none ↔ s.get? key = none := by
  cases hvalue : s.get? key with
  | none => simp [getLong?, hvalue]
  | some value =>
    simp only [getLong?, hvalue, reduceCtorEq, iff_false]
    split <;> simp

theorem getFlag_congr (h : s.get? key = t.get? key) (default : Bool) :
    s.getFlag key default = t.getFlag key default := by
  rw [getFlag, getFlag, h]

end Settings

end SuitePlan
