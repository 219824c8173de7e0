import SuitePlan.Repetition

/-!
# Values of options

An option that is not set takes a default. The value of one that is set is read, and is an error if
it cannot be read (`Settings.readAs_eq_ok_iff`, `Settings.readAs_eq_error_iff`).

A value denotes an integer if, blanks at its ends aside, it consists of decimal digits, with one
sign before them at most (`Settings.Denotes`). An option is read as an integer of 32 bits if its
value denotes one (`Settings.getInt_eq_ok_iff`), likewise as one of 64 bits
(`Settings.getLong?_eq_ok_some_iff`), and as a layout if its value is the word for one
(`Layout.ofSettings_eq_ok_iff`).
-/

namespace SuitePlan

variable {s : Settings} {key value : String} {e : SettingsError}

namespace Settings

/-- The value of an option, read by a function that knows the values it can read. -/
def readAs (s : Settings) (key : String) (default : β) (read? : String → Option β)
    (expected : Expected) : Except SettingsError β :=
  match s.get? key with
  | none => .ok default
  | some value =>
    match read? value with
    | some b => .ok b
    | none => .error (.malformed key value expected)

section

variable {β : Type} {default b : β} {read? : String → Option β} {expected : Expected}

theorem readAs_eq_ok_iff :
    s.readAs key default read? expected = .ok b ↔
      (s.get? key = none ∧ b = default) ∨
        ∃ value, s.get? key = some value ∧ read? value = some b := by
  cases hvalue : s.get? key with
  | none => simp [readAs, hvalue, eq_comm]
  | some value => cases hread : read? value <;> simp [readAs, hvalue, hread]

theorem readAs_eq_error_iff :
    s.readAs key default read? expected = .error e ↔
      ∃ value, s.get? key = some value ∧ read? value = none ∧
        e = .malformed key value expected := by
  cases hvalue : s.get? key with
  | none => simp [readAs, hvalue]
  | some value => cases hread : read? value <;> simp [readAs, hvalue, hread, eq_comm]

end

/-! ## Integers -/

/-- Between the blanks at the ends of a value stand digits, after one sign at most, and the integer
is what these mean. -/
def Denotes (value : String) (n : Int) : Prop :=
  ∃ digits : List Char, digits ≠ [] ∧ digits.all Char.isDigit = true ∧
    ((Text.trimmed value.toList = digits ∧ n = Text.Decimal.value digits) ∨
      (Text.trimmed value.toList = '+' :: digits ∧ n = Text.Decimal.value digits) ∨
      (Text.trimmed value.toList = '-' :: digits ∧ n = -(Text.Decimal.value digits : Int)))

theorem denotes_iff_read? {n : Int} :
    Denotes value n ↔ Text.Decimal.read? (Text.trimmed value.toList) = some n :=
  Text.Decimal.read?_eq_some_iff.symm

/-- A written integer denotes itself and nothing else. -/
theorem denotes_text_iff {m n : Int} : Denotes (Text.Decimal.text m) n ↔ n = m := by
  rw [denotes_iff_read?, trimmed_text, Text.Decimal.read?_render, Option.some.injEq, eq_comm]

theorem integerWithin?_eq_some_iff {low high n : Int} :
    integerWithin? low high value = some n ↔ Denotes value n ∧ low ≤ n ∧ n ≤ high := by
  rw [integerWithin?, Option.filter_eq_some_iff, denotes_iff_read?]
  simp

/-- Numbers of a fixed width: they stand for the integers within the bounds. -/
structure IsWidth {β : Type} (low high : Int) (ofInt : Int → β) (toInt : β → Int) : Prop where
  low_le : ∀ m, low ≤ toInt m
  le_high : ∀ m, toInt m ≤ high
  ofInt_toInt : ∀ m, ofInt (toInt m) = m
  toInt_ofInt : ∀ n, low ≤ n → n ≤ high → toInt (ofInt n) = n

theorem isWidth_int32 :
    IsWidth Int32.minValue.toInt Int32.maxValue.toInt Int32.ofInt Int32.toInt where
  low_le := Int32.minValue_le_toInt
  le_high := Int32.toInt_le
  ofInt_toInt := Int32.ofInt_toInt
  toInt_ofInt _ hlow hhigh :=
    Int32.toInt_ofInt_of_le hlow (Int.lt_of_le_of_lt hhigh (by decide))

theorem isWidth_int64 :
    IsWidth Int64.minValue.toInt Int64.maxValue.toInt Int64.ofInt Int64.toInt where
  low_le := Int64.minValue_le_toInt
  le_high := Int64.toInt_le
  ofInt_toInt := Int64.ofInt_toInt
  toInt_ofInt _ hlow hhigh :=
    Int64.toInt_ofInt_of_le hlow (Int.lt_of_le_of_lt hhigh (by decide))

section

variable {β : Type} {low high n : Int} {ofInt : Int → β} {toInt : β → Int}

theorem IsWidth.exists_toInt_iff (w : IsWidth low high ofInt toInt) {P : Int → Prop} :
    (∃ m, P (toInt m) ∧ toInt m = n) ↔ P n ∧ low ≤ n ∧ n ≤ high := by
  constructor
  · intro h
    obtain ⟨m, hm, rfl⟩ := h
    exact ⟨hm, w.low_le m, w.le_high m⟩
  · intro h
    obtain ⟨hn, hlow, hhigh⟩ := h
    have hback := w.toInt_ofInt n hlow hhigh
    exact ⟨ofInt n, by rwa [hback], hback⟩

/-- A value is read as the number of the width that it denotes. -/
theorem IsWidth.map_integerWithin?_eq_some_iff (w : IsWidth low high ofInt toInt) {m : β} :
    (integerWithin? low high value).map ofInt = some m ↔ Denotes value (toInt m) := by
  rw [Option.map_eq_some_iff]
  constructor
  · intro h
    obtain ⟨n, hn, rfl⟩ := h
    obtain ⟨hdenotes, hlow, hhigh⟩ := integerWithin?_eq_some_iff.mp hn
    rwa [w.toInt_ofInt n hlow hhigh]
  · intro h
    exact ⟨toInt m, integerWithin?_eq_some_iff.mpr ⟨h, w.low_le m, w.le_high m⟩, w.ofInt_toInt m⟩

end

/-- The 32-bit integer that a value denotes. -/
def int32? (value : String) : Option Int32 :=
  (integerWithin? Int32.minValue.toInt Int32.maxValue.toInt value).map .ofInt

variable {default m : Int32}

theorem int32?_eq_some_iff : int32? value = some m ↔ Denotes value m.toInt :=
  isWidth_int32.map_integerWithin?_eq_some_iff

theorem int32?_eq_none_iff : int32? value = none ↔ ∀ m : Int32, ¬Denotes value m.toInt := by
  simp only [Option.eq_none_iff_forall_ne_some, ne_eq, int32?_eq_some_iff]

theorem getInt_eq_readAs : s.getInt key default = s.readAs key default int32? .integer := by
  rw [getInt, readAs]
  cases s.get? key with
  | none => rfl
  | some value =>
    simp only [int32?]
    cases integerWithin? Int32.minValue.toInt Int32.maxValue.toInt value <;> rfl

theorem getInt_eq_ok_iff :
    s.getInt key default = .ok m ↔
      (s.get? key = none ∧ m = default) ∨
        ∃ value, s.get? key = some value ∧ Denotes value m.toInt := by
  simp only [getInt_eq_readAs, readAs_eq_ok_iff, int32?_eq_some_iff]

theorem getInt_eq_error_iff :
    s.getInt key default = .error e ↔
      ∃ value, s.get? key = some value ∧ (∀ m : Int32, ¬Denotes value m.toInt) ∧
        e = .malformed key value .integer := by
  simp only [getInt_eq_readAs, readAs_eq_error_iff, int32?_eq_none_iff]

/-- The 64-bit integer that a value denotes. -/
def int64? (value : String) : Option Int64 :=
  (integerWithin? Int64.minValue.toInt Int64.maxValue.toInt value).map .ofInt

variable {n : Int64}

theorem int64?_eq_some_iff : int64? value = some n ↔ Denotes value n.toInt :=
  isWidth_int64.map_integerWithin?_eq_some_iff

theorem int64?_eq_none_iff : int64? value = none ↔ ∀ n : Int64, ¬Denotes value n.toInt := by
  simp only [Option.eq_none_iff_forall_ne_some, ne_eq, int64?_eq_some_iff]

theorem getLong?_eq_readAs :
    s.getLong? key = s.readAs key none (fun value => (int64? value).map some) .longInteger := by
  rw [getLong?, readAs]
  cases s.get? key with
  | none => rfl
  | some value =>
    simp only [int64?]
    cases integerWithin? Int64.minValue.toInt Int64.maxValue.toInt value <;> rfl

theorem getLong?_eq_ok_some_iff :
    s.getLong? key = .ok (some n) ↔
      ∃ value, s.get? key = some value ∧ Denotes value n.toInt := by
  simp [getLong?_eq_readAs, readAs_eq_ok_iff, int64?_eq_some_iff]

theorem getLong?_eq_error_iff :
    s.getLong? key = .error e ↔
      ∃ value, s.get? key = some value ∧ (∀ n : Int64, ¬Denotes value n.toInt) ∧
        e = .malformed key value .longInteger := by
  simp only [getLong?_eq_readAs, readAs_eq_error_iff, Option.map_eq_none_iff, int64?_eq_none_iff]

end Settings

/-! ## Layouts -/

namespace Layout

variable {layout : Layout}

/-- The word that asks for a layout. -/
def word : Layout → String
  | .cyclic => "cyclic"
  | .sequential => "sequential"

/-- Between the blanks at the ends of a value stands the word for a layout, in whatever case its
letters are. -/
def IsNamedBy (layout : Layout) (value : String) : Prop :=
  (Text.trimmed value.toList).map Char.toLower = layout.word.toList

theorem ofName?_eq_some_iff : ofName? value = some layout ↔ layout.IsNamedBy value := by
  have hword : ∀ word : String,
      String.ofList (Settings.lowered (Text.trimmed value.toList)) = word ↔
        (Text.trimmed value.toList).map Char.toLower = word.toList := by
    intro word
    rw [← String.toList_inj, String.toList_ofList, Settings.lowered]
  rw [IsNamedBy, ← hword, ofName?]
  cases layout <;> grind [word]

theorem ofName?_eq_none_iff :
    ofName? value = none ↔ ∀ layout : Layout, ¬layout.IsNamedBy value := by
  simp only [Option.eq_none_iff_forall_ne_some, ne_eq, ofName?_eq_some_iff]

theorem ofSettings_eq_readAs : ofSettings s = s.readAs option .cyclic ofName? .layout := by
  rw [ofSettings, Settings.readAs]
  cases s.get? option with
  | none => rfl
  | some value =>
    dsimp only
    cases ofName? value <;> rfl

theorem ofSettings_eq_ok_iff :
    ofSettings s = .ok layout ↔
      (s.get? option = none ∧ layout = .cyclic) ∨
        ∃ value, s.get? option = some value ∧ layout.IsNamedBy value := by
  simp only [ofSettings_eq_readAs, Settings.readAs_eq_ok_iff, ofName?_eq_some_iff]

theorem ofSettings_eq_error_iff :
    ofSettings s = .error e ↔
      ∃ value, s.get? option = some value ∧ (∀ layout : Layout, ¬layout.IsNamedBy value) ∧
        e = .malformed option value .layout := by
  simp only [ofSettings_eq_readAs, Settings.readAs_eq_error_iff, ofName?_eq_none_iff]

end Layout

end SuitePlan
