import Mathlib.Algebra.Group.Int.Defs
import SuitePlan.Proofs.Settings.Acceptance
import SuitePlan.Proofs.Settings.Overrides
import SuitePlan.Proofs.Settings.Values
import SuitePlan.Stage.Standard

/-!
# Integers as values of options

A value is read as an integer if it spells one (`Settings.Spells`) that is within the bounds of the
width that is asked for, and is an error otherwise (`Settings.integer_options_accept`). Digits may
be taken one after another into a number of that width: nothing is lost to the bounds on the way
that would be within them in the end (`Settings.integerWithin?_eq_readWithin?`).

An integer of 64 bits reads back as itself, whichever way it became the value of the option
(`Settings.integer_reads_back`).
-/

namespace SuitePlan.Settings

open Json (Value)
open Text (isBlank)

variable {s : Settings} {key value : String} {low high n : Int} {digits : List Char}

/-! ## Spelling -/

/-- Nothing but blanks stands around the decimal digits of an integer, one at least, and one sign
before them at most. -/
def Spells (value : String) (n : Int) : Prop :=
  ∃ before sign digits after : List Char,
    value.toList = before ++ (sign ++ digits) ++ after ∧
      before.all isBlank = true ∧ after.all isBlank = true ∧
      digits ≠ [] ∧ digits.all Char.isDigit = true ∧
      ((sign = [] ∨ sign = ['+']) ∧ n = Text.Decimal.value digits ∨
        sign = ['-'] ∧ n = -(Text.Decimal.value digits : Int))

theorem denotes_iff_spells : Denotes value n ↔ Spells value n := by
  constructor
  · intro h
    obtain ⟨digits, hne, hall, h⟩ := h
    obtain ⟨before, after, hsplit, hbefore, hafter⟩ :=
      Text.exists_blanks_append_trimmed value.toList
    rcases h with ⟨htrimmed, hn⟩ | ⟨htrimmed, hn⟩ | ⟨htrimmed, hn⟩
    · rw [htrimmed] at hsplit
      exact ⟨before, [], digits, after, hsplit, hbefore, hafter, hne, hall, .inl ⟨.inl rfl, hn⟩⟩
    · rw [htrimmed] at hsplit
      exact ⟨before, ['+'], digits, after, hsplit, hbefore, hafter, hne, hall,
        .inl ⟨.inr rfl, hn⟩⟩
    · rw [htrimmed] at hsplit
      exact ⟨before, ['-'], digits, after, hsplit, hbefore, hafter, hne, hall, .inr ⟨rfl, hn⟩⟩
  · intro h
    obtain ⟨before, sign, digits, after, hsplit, hbefore, hafter, hne, hall, h⟩ := h
    have hdigit : ∀ c ∈ digits, isBlank c = false := by
      intro c hc
      exact Text.isBlank_of_isDigit (List.all_eq_true.mp hall c hc)
    have hsign : ∀ c ∈ sign, isBlank c = false := by
      intro c hc
      rcases h with ⟨rfl | rfl, -⟩ | ⟨rfl, -⟩
      · cases hc
      · rw [List.mem_singleton.mp hc]
        decide
      · rw [List.mem_singleton.mp hc]
        decide
    have hends : ∀ c ∈ sign ++ digits, isBlank c = false := by
      intro c hc
      exact (List.mem_append.mp hc).elim (hsign c) (hdigit c)
    have htrimmed : Text.trimmed value.toList = sign ++ digits := by
      rw [hsplit]
      exact Text.trimmed_append_blanks hbefore hafter
        (fun c hc => hends c (List.mem_of_mem_head? hc))
        (fun c hc => hends c (List.mem_of_getLast? hc))
    refine ⟨digits, hne, hall, ?_⟩
    rcases h with ⟨rfl | rfl, hn⟩ | ⟨rfl, hn⟩
    · exact .inl ⟨htrimmed, hn⟩
    · exact .inr (.inl ⟨htrimmed, hn⟩)
    · exact .inr (.inr ⟨htrimmed, hn⟩)

/-- A value spells one integer at most. -/
theorem Spells.unique {m : Int} (hm : Spells value m) (hn : Spells value n) : m = n := by
  rw [← denotes_iff_spells, denotes_iff_read?] at hm hn
  rw [hm, Option.some.injEq] at hn
  exact hn

theorem spells_text_iff {m : Int} : Spells (Text.Decimal.text m) n ↔ n = m := by
  rw [← denotes_iff_spells, denotes_text_iff]

/-! ## One digit after another -/

/-- A number, if it is within the bounds. -/
def within? (low high n : Int) : Option Int :=
  if low ≤ n ∧ n ≤ high then some n else none

/-- A natural number with a sign. -/
def signed (negative : Bool) (n : Nat) : Int :=
  if negative then -n else n

/-- Takes digits on to a number, which has to be within the bounds after each multiplication and
after each addition, or subtraction where it is negative. -/
def accumulate? (low high : Int) (negative : Bool) (n : Int) : List Char → Option Int
  | [] => some n
  | c :: rest =>
    if c.isDigit then do
      let shifted ← within? low high (10 * n)
      let next ← within? low high (shifted + signed negative (c.toNat - '0'.toNat))
      accumulate? low high negative next rest
    else none

/-- The number of one digit or more. -/
def digitsWithin? (low high : Int) (negative : Bool) (digits : List Char) : Option Int :=
  if digits.isEmpty then none else accumulate? low high negative 0 digits

/-- The integer that a value denotes, read one digit after another within the bounds. -/
def readWithin? (low high : Int) (value : String) : Option Int :=
  match Text.trimmed value.toList with
  | '+' :: digits => digitsWithin? low high false digits
  | '-' :: digits => digitsWithin? low high true digits
  | digits => digitsWithin? low high false digits

theorem within?_eq_some_iff {m : Int} :
    within? low high n = some m ↔ n = m ∧ low ≤ n ∧ n ≤ high := by
  by_cases h : low ≤ n ∧ n ≤ high <;> simp [within?, h]

@[simp] theorem signed_zero (negative : Bool) : signed negative 0 = 0 := by
  cases negative <;> rfl

theorem mul_add_signed (negative : Bool) (n d : Nat) :
    10 * signed negative n + signed negative d = signed negative (10 * n + d) := by
  cases negative
  · simp [signed]
  · simp only [signed, if_true]
    omega

/-- A number that is nearer to zero than one within the bounds is within them. -/
theorem signed_within {negative : Bool} {k m : Nat} (h : k ≤ m) (hlow : low ≤ 0) (hhigh : 0 ≤ high)
    (hm : low ≤ signed negative m ∧ signed negative m ≤ high) :
    low ≤ signed negative k ∧ signed negative k ≤ high := by
  cases negative <;> simp [signed] at hm ⊢ <;> omega

/-- Digits are taken as long as the number that they mean in the end is within the bounds: on the
way it only grows away from zero. -/
theorem accumulate?_eq_some_iff {negative : Bool} {k : Nat} {m : Int} (hlow : low ≤ 0)
    (hhigh : 0 ≤ high) (hk : low ≤ signed negative k ∧ signed negative k ≤ high) :
    accumulate? low high negative (signed negative k) digits = some m ↔
      digits.all Char.isDigit = true ∧
        signed negative (Nat.ofDigitChars 10 digits k) = m ∧ low ≤ m ∧ m ≤ high := by
  induction digits generalizing k with
  | nil =>
    rw [accumulate?, Option.some.injEq, Nat.ofDigitChars_nil]
    constructor
    · intro h
      subst h
      exact ⟨rfl, rfl, hk⟩
    · intro h
      exact h.2.1
  | cons c rest ih =>
    have hshift : 10 * signed negative k = signed negative (10 * k) := by
      simpa only [signed_zero, Int.add_zero, Nat.add_zero] using mul_add_signed negative k 0
    rw [accumulate?, Nat.ofDigitChars_cons, List.all_cons]
    by_cases hc : c.isDigit = true
    · rw [if_pos hc, hc, Bool.true_and]
      simp only [Option.bind_eq_bind, Option.bind_eq_some_iff, within?_eq_some_iff]
      constructor
      · intro h
        obtain ⟨shifted, ⟨rfl, -⟩, next, ⟨rfl, hnext⟩, h⟩ := h
        rw [mul_add_signed] at hnext h
        exact (ih hnext).mp h
      · intro h
        have hm :
            low ≤ signed negative (Nat.ofDigitChars 10 rest (10 * k + (c.toNat - '0'.toNat))) ∧
              signed negative (Nat.ofDigitChars 10 rest (10 * k + (c.toNat - '0'.toNat))) ≤
                high := by
          rw [h.2.1]
          exact h.2.2
        have hle := Json.Number.le_ofDigitChars rest (10 * k + (c.toNat - '0'.toNat))
        have hnext := signed_within hle hlow hhigh hm
        have hshifted := signed_within (Nat.le_trans (Nat.le_add_right _ _) hle) hlow hhigh hm
        rw [← hshift] at hshifted
        refine ⟨_, ⟨rfl, hshifted⟩, _, ⟨rfl, ?_⟩, ?_⟩
        · rw [mul_add_signed]
          exact hnext
        · rw [mul_add_signed]
          exact (ih hnext).mpr h
    · rw [if_neg hc]
      simp [hc]

theorem digitsWithin?_eq {negative : Bool} (hlow : low ≤ 0) (hhigh : 0 ≤ high) :
    digitsWithin? low high negative digits =
      ((Text.Decimal.natural? digits).map (signed negative)).filter
        fun n => low ≤ n && n ≤ high := by
  apply Option.ext
  intro m
  rw [Option.filter_eq_some_iff, Option.map_eq_some_iff, digitsWithin?]
  simp only [Text.Decimal.natural?_eq_some_iff, Text.Decimal.value, Bool.and_eq_true,
    decide_eq_true_eq]
  cases digits with
  | nil => simp
  | cons c rest =>
    have hiff := @accumulate?_eq_some_iff low high (c :: rest) negative 0 m hlow hhigh
      (by rw [signed_zero]; exact ⟨hlow, hhigh⟩)
    rw [signed_zero] at hiff
    rw [List.isEmpty_cons, if_neg Bool.false_ne_true, hiff]
    simp [and_assoc]

/-- Reading one digit after another within the bounds is the same as reading all of them first. -/
theorem integerWithin?_eq_readWithin? (hlow : low ≤ 0) (hhigh : 0 ≤ high) (value : String) :
    integerWithin? low high value = readWithin? low high value := by
  have hpos : signed false = Int.ofNat := rfl
  have hneg : signed true = Int.negOfNat := by
    funext n
    simp [signed, Int.negOfNat_eq]
  rw [integerWithin?, readWithin?]
  simp only [digitsWithin?_eq hlow hhigh, hpos, hneg]
  split
  · rename_i hplus
    rw [hplus, Text.Decimal.read?]
  · rename_i hminus
    rw [hminus, Text.Decimal.read?]
  · rename_i hnotPlus hnotMinus
    rw [Text.Decimal.read?.eq_3 _ hnotPlus hnotMinus]

/-! ## Integers of both widths -/

theorem exists_getLong?_iff (h : s.get? key = some value) :
    (∃ m : Int64, s.getLong? key = .ok (some m) ∧ m.toInt = n) ↔
      Spells value n ∧ -2 ^ 63 ≤ n ∧ n ≤ 2 ^ 63 - 1 := by
  simp only [getLong?_eq_ok_some_iff, h, Option.some.injEq, exists_eq_left', denotes_iff_spells]
  exact isWidth_int64.exists_toInt_iff

theorem exists_getInt_iff (h : s.get? key = some value) (default : Int32) :
    (∃ m : Int32, s.getInt key default = .ok m ∧ m.toInt = n) ↔
      Spells value n ∧ -2 ^ 31 ≤ n ∧ n ≤ 2 ^ 31 - 1 := by
  simp only [getInt_eq_ok_iff, h, reduceCtorEq, false_and, false_or, Option.some.injEq,
    exists_eq_left', denotes_iff_spells]
  exact isWidth_int32.exists_toInt_iff

theorem getLong?_of_not_spells (h : s.get? key = some value)
    (hno : ¬∃ x, Spells value x ∧ -2 ^ 63 ≤ x ∧ x ≤ 2 ^ 63 - 1) :
    s.getLong? key = .error (.malformed key value .longInteger) := by
  refine getLong?_eq_error_iff.mpr ⟨value, h, fun m hm => hno ?_, rfl⟩
  exact ⟨m.toInt, denotes_iff_spells.mp hm, m.minValue_le_toInt, m.toInt_le⟩

theorem getInt_of_not_spells (h : s.get? key = some value)
    (hno : ¬∃ x, Spells value x ∧ -2 ^ 31 ≤ x ∧ x ≤ 2 ^ 31 - 1) (default : Int32) :
    s.getInt key default = .error (.malformed key value .integer) := by
  refine getInt_eq_error_iff.mpr ⟨value, h, fun m hm => hno ?_, rfl⟩
  exact ⟨m.toInt, denotes_iff_spells.mp hm, m.minValue_le_toInt, m.toInt_le⟩

/-- An option that is set is read as an integer of 64 bits exactly if its value spells one of that
width, and as one of 32 bits exactly if it is read as one of 64 bits that has this width too. In
every other case the error shows the option and its value as it stands. The bounds may be checked
at each digit as well as at the end. -/
theorem integer_options_accept (h : s.get? key = some value) :
    (∀ x : Int, (∃ m : Int64, s.getLong? key = .ok (some m) ∧ m.toInt = x) ↔
      Spells value x ∧ -2 ^ 63 ≤ x ∧ x ≤ 2 ^ 63 - 1) ∧
    (∀ (default : Int32) (x : Int), (∃ m : Int32, s.getInt key default = .ok m ∧ m.toInt = x) ↔
      (∃ m : Int64, s.getLong? key = .ok (some m) ∧ m.toInt = x) ∧
        -2 ^ 31 ≤ x ∧ x ≤ 2 ^ 31 - 1) ∧
    ((¬∃ x, Spells value x ∧ -2 ^ 63 ≤ x ∧ x ≤ 2 ^ 63 - 1) →
      s.getLong? key = .error (.malformed key value .longInteger)) ∧
    ((¬∃ x, Spells value x ∧ -2 ^ 31 ≤ x ∧ x ≤ 2 ^ 31 - 1) →
      ∀ default, s.getInt key default = .error (.malformed key value .integer)) ∧
    ∀ low high, low ≤ 0 → 0 ≤ high →
      integerWithin? low high value = readWithin? low high value := by
  refine ⟨fun x => exists_getLong?_iff h, fun default x => ?_, getLong?_of_not_spells h,
    getInt_of_not_spells h, fun low high hlow hhigh => integerWithin?_eq_readWithin? hlow hhigh _⟩
  rw [exists_getInt_iff h, exists_getLong?_iff h]
  constructor
  · intro hx
    obtain ⟨hspells, hlow, hhigh⟩ := hx
    exact ⟨⟨hspells, by omega, by omega⟩, hlow, hhigh⟩
  · intro hx
    exact ⟨hx.1.1, hx.2⟩

/-- Settings whose one value is the least integer of 64 bits, with zeros in front and with blanks of
two kinds around it. -/
def paddedSettings : Settings := .ofList [("seed", "\u3000-009223372036854775808 ")]

theorem integer_options_accept_padded :
    paddedSettings.get? "seed" = some "\u3000-009223372036854775808 " ∧
    (∃ m : Int64, paddedSettings.getLong? "seed" = .ok (some m) ∧
      m.toInt = -9223372036854775808) ∧
    paddedSettings.getInt "seed" 7 =
      .error (.malformed "seed" "\u3000-009223372036854775808 " .integer) ∧
    readWithin? (-2 ^ 63) (2 ^ 63 - 1) "\u3000-009223372036854775808 " =
      some (-9223372036854775808) := by
  have hvalue : paddedSettings.get? "seed" = some "\u3000-009223372036854775808 " := by
    decide +kernel
  have hspells : Spells "\u3000-009223372036854775808 " (-9223372036854775808) :=
    ⟨['\u3000'], ['-'], "009223372036854775808".toList, [' '], by decide +kernel, by decide,
      by decide, by decide +kernel, by decide +kernel, .inr ⟨rfl, by decide +kernel⟩⟩
  obtain ⟨hlong, hint, -, hmalformed, hread⟩ := integer_options_accept hvalue
  refine ⟨hvalue, (hlong _).mpr ⟨hspells, by decide, by decide⟩, hmalformed ?_ 7, ?_⟩
  · intro h
    obtain ⟨x, hx, hlow, -⟩ := h
    rw [hx.unique hspells] at hlow
    exact absurd hlow (by decide)
  · rw [← hread _ _ (by decide) (by decide), integerWithin?_eq_some_iff, denotes_iff_spells]
    exact ⟨hspells, by decide, by decide⟩

/-! ## However the value was given -/

/-- The option is read as the integer wherever that fits. -/
structure ReadsAs (s : Settings) (key : String) (n : Int64) : Prop where
  optional : s.getLong? key = .ok (some n)
  long : ∀ default, s.getLong key default = .ok n
  int : ∀ default, -2 ^ 31 ≤ n.toInt ∧ n.toInt ≤ 2 ^ 31 - 1 →
    ∃ m : Int32, s.getInt key default = .ok m ∧ m.toInt = n.toInt
  tooWide : ∀ default, ¬(-2 ^ 31 ≤ n.toInt ∧ n.toInt ≤ 2 ^ 31 - 1) →
    s.getInt key default = .error (.malformed key (Text.Decimal.text n.toInt) .integer)

theorem readsAs_of_text {m : Int64} (h : s.get? key = some (Text.Decimal.text m.toInt)) :
    s.ReadsAs key m where
  optional := getLong?_of_text h
  long default := by
    rw [getLong, getLong?_of_text h]
    rfl
  int default hfits := (exists_getInt_iff h default).mpr ⟨spells_text_iff.mpr rfl, hfits⟩
  tooWide default hfits := by
    refine getInt_of_not_spells h (fun hx => hfits ?_) default
    obtain ⟨x, hspells, hx⟩ := hx
    rwa [spells_text_iff.mp hspells] at hx

/-- A JSON value that is an integer, as a number or as the text of its digits. -/
def IsInteger (u : Value) (n : Int64) : Prop :=
  u = .scalar (.number (.integer n.toInt)) ∨ u = .ofString (Text.Decimal.text n.toInt)

variable {u : Value} {m : Int64}

theorem IsInteger.gives (h : IsInteger u m) : Gives u (Text.Decimal.text m.toInt) := by
  rcases h with rfl | rfl
  · exact .number (.integer m.toInt)
  · exact .string _

theorem IsInteger.isReadable (h : IsInteger u m) :
    (Value.object [(key, u)]).IsReadable Json.Draft.depthLimit := by
  refine .object fun e he => ?_
  rw [List.mem_singleton.mp he]
  rcases h with rfl | rfl
  · have hhigh : m.toInt ≤ Json.Number.greatestSignificand :=
      Int.le_trans m.toInt_le (by decide)
    exact .scalar ⟨m.minValue_le_toInt, hhigh⟩
  · exact Value.isReadable_ofString _

theorem applyShuffle_of_seed {α : Type} {around : Surroundings} {items : List α}
    (hon : s.getFlag Shuffle.Request.option false = .ok true)
    (hseed : s.getLong? Shuffle.Request.seedOption = .ok (some m)) :
    Stage.applyShuffle around s items = .ok ⟨Shuffle.permute m items,
      .ofList [(Shuffle.Request.seedOption, Text.Decimal.text m.toInt)]⟩ := by
  have hrequest : Shuffle.Request.ofSettings s = .ok (.seeded m) :=
    Shuffle.Request.ofSettings_eq_ok_iff.mpr ⟨true, some m, hon, hseed, rfl⟩
  exact Stage.applyShuffle_eq_ok_iff.mpr ⟨.seeded m, hrequest, .inr ⟨m, rfl, rfl⟩⟩

/-- An integer of 64 bits is the value of an option in the same way whether it is set, assigned by
an override, or given by a member of an object as a number or as a text. Read from there, it is the
integer again, and as the seed it is what items are shuffled with and what is reported. -/
theorem integer_reads_back (hkey : IsKey key) (s : Settings) (n : Int64) :
    s.override [key ++ "=" ++ Text.Decimal.text n.toInt] =
      .ok (s.set key (Text.Decimal.text n.toInt)) ∧
    (∀ u, IsInteger u n →
      (∀ bytes before after, HoldJson bytes (.object (before ++ (key, u) :: after)) →
        key ∉ after.map Prod.fst → ofValue (.object (before ++ after)) = .ok s →
        ofBytes bytes = .ok (s.set key (Text.Decimal.text n.toInt))) ∧
      ∀ text, text = (Value.object [(key, u)]).compactText ∨
          text = (Value.object [(key, u)]).indentedText →
        ofBytes text.toUTF8 = .ok (empty.set key (Text.Decimal.text n.toInt))) ∧
    (s.set key (Text.Decimal.text n.toInt)).ReadsAs key n ∧
    (key = Shuffle.Request.seedOption → s.getFlag Shuffle.Request.option false = .ok true →
      ∀ (α : Type) (around : Surroundings) (items : List α),
        Stage.applyShuffle around (s.set key (Text.Decimal.text n.toInt)) items =
          .ok ⟨Shuffle.permute n items,
            .ofList [(Shuffle.Request.seedOption, Text.Decimal.text n.toInt)]⟩) := by
  have hget : (s.set key (Text.Decimal.text n.toInt)).get? key =
      some (Text.Decimal.text n.toInt) := by
    rw [get?_set, if_pos rfl]
  refine ⟨?_, fun u hu => ⟨fun bytes before after hbytes hafter hs => ?_, fun text htext => ?_⟩,
    readsAs_of_text hget, ?_⟩
  · rw [override, readOverride_of_isKey hkey]
    rfl
  · rw [ofBytes_of_holdJson hbytes]
    exact ofValue_append_cons hs hafter hu.gives
  · rw [ofBytes_of_holdJson (holdJson_written hu.isReadable htext)]
    exact @ofValue_append_cons _ _ empty key [] [] rfl List.not_mem_nil hu.gives
  · intro hseed hon α around items
    subst hseed
    apply applyShuffle_of_seed
    · rw [← hon]
      exact getFlag_congr (by rw [get?_set, if_neg (by decide)]) false
    · exact (readsAs_of_text hget).optional

/-- Settings that switch shuffling on. -/
def shufflingSettings : Settings := .ofList [("shuffle", " TRUE ")]

/-- An object that switches shuffling on and gives the least seed as a number. -/
def leastSeed : List (String × Value) :=
  [("seed", .scalar (.number (.integer Int64.minValue.toInt))), ("shuffle", .ofString " TRUE ")]

theorem isReadable_leastSeed : (Value.object leastSeed).IsReadable Json.Draft.depthLimit := by
  refine .object fun e he => ?_
  simp only [leastSeed, List.mem_cons, List.not_mem_nil, or_false] at he
  rcases he with rfl | rfl
  · exact .scalar ⟨by decide, by decide⟩
  · exact Value.isReadable_ofString _

theorem integer_reads_back_least :
    IsKey "seed" ∧
    shufflingSettings.override ["seed=-9223372036854775808"] =
      .ok (shufflingSettings.set "seed" "-9223372036854775808") ∧
    (Value.object leastSeed).compactText =
      "\x7b\"seed\":-9223372036854775808,\"shuffle\":\" TRUE \"\x7d" ∧
    ofBytes (Value.object leastSeed).compactText.toUTF8 =
      .ok (shufflingSettings.set "seed" "-9223372036854775808") ∧
    (shufflingSettings.set "seed" "-9223372036854775808").getLong "seed" 7 =
      .ok Int64.minValue ∧
    (shufflingSettings.set "seed" "-9223372036854775808").getInt "seed" 7 =
      .error (.malformed "seed" "-9223372036854775808" .integer) ∧
    Stage.applyShuffle ⟨Files.empty, 0⟩
      (shufflingSettings.set "seed" "-9223372036854775808") ["a", "b"] =
      .ok ⟨Shuffle.permute Int64.minValue ["a", "b"],
        .ofList [("seed", "-9223372036854775808")]⟩ := by
  have hkey : IsKey "seed" := by decide
  have htext : Text.Decimal.text Int64.minValue.toInt = "-9223372036854775808" := by decide +kernel
  have hon : shufflingSettings.getFlag Shuffle.Request.option false = .ok true :=
    Attempt.toOption_eq_some_iff.mp (by decide +kernel)
  have hshuffle : ofValue (.object [("shuffle", .ofString " TRUE ")]) = .ok shufflingSettings := rfl
  have hback := integer_reads_back hkey shufflingSettings Int64.minValue
  rw [htext] at hback
  obtain ⟨hoverride, hjson, hreads, hseed⟩ := hback
  have hbytes := holdJson_written isReadable_leastSeed (.inl rfl)
  refine ⟨hkey, hoverride, by decide +kernel, ?_, hreads.long 7, ?_, hseed rfl hon String _ _⟩
  · exact (hjson _ (.inl rfl)).1 _ [] [("shuffle", .ofString " TRUE ")] hbytes (by decide) hshuffle
  · rw [hreads.tooWide 7 (by decide), htext]

end SuitePlan.Settings
