import Mathlib.Data.List.Forall2
import SuitePlan.Settings.Overrides

/-!
# Overrides for options

An override assigns a value to an option (`Settings.Assigns`) if it has an equals sign and something
that is not blank before the first one. Overrides that all do so set the options in their order, so
that the last one for an option counts, and the first override that does not is reported
(`Settings.override_sets_in_order`).

The text `key=value` sets the option `key` to `value` as it stands, if `key` is a name that an
override can have (`Settings.IsKey`). Such overrides do the same as setting the options themselves
(`Settings.override_eq_setAll`).
-/

namespace SuitePlan.Settings

/-- A name that an override can have: it is not empty, has no blanks at its ends, and no equals
sign. -/
def IsKey (key : String) : Prop :=
  key ≠ "" ∧ Text.trim key = key ∧ '=' ∉ key.toList

/-- The characters of a name decide. -/
instance (key : String) : Decidable (IsKey key) :=
  inferInstanceAs (Decidable (_ ∧ _ ∧ _))

/-- The override assigns a value to an option: the option is what stands before the first equals
sign, blanks at its ends aside, and not empty, and the value is all that stands after that sign. -/
def Assigns (o : String) (p : String × String) : Prop :=
  ∃ before, o = before ++ "=" ++ p.2 ∧ '=' ∉ before.toList ∧ Text.trim before = p.1 ∧ p.1 ≠ ""

/-- The override assigns nothing, and this is why. -/
inductive Refuses (o : String) : SettingsError → Prop
  | noEqualsSign : '=' ∉ o.toList → Refuses o (.noEqualsSign o)
  | emptyKey {before after : String} :
      o = before ++ "=" ++ after → '=' ∉ before.toList → Text.isBlankText before = true →
      Refuses o (.emptyKey o)

variable {key o : String} {p : String × String} {s t : Settings} {overrides : List String}
  {e : SettingsError}

/-! ## One override -/

theorem readOverride_of_notMem (h : '=' ∉ o.toList) :
    readOverride o = .error (.noEqualsSign o) := by
  rw [readOverride, Text.cut?_eq_none_iff.mpr h]

theorem readOverride_append {before : String} (h : '=' ∉ before.toList) (after : String) :
    readOverride (before ++ "=" ++ after) =
      if Text.isBlankText before then .error (.emptyKey (before ++ "=" ++ after))
      else .ok (Text.trim before, after) := by
  have hcut : Text.cut? '=' (before ++ "=" ++ after).toList = some (before.toList, after.toList) :=
    Text.cut?_eq_some_iff.mpr ⟨by simp, h⟩
  rw [readOverride, hcut]
  simp only [List.isEmpty_iff, Text.trimmed_eq_nil_iff, String.ofList_toList]
  rfl

theorem exists_append_of_mem (h : '=' ∈ o.toList) :
    ∃ before after, o = before ++ "=" ++ after ∧ '=' ∉ before.toList := by
  cases hcut : Text.cut? '=' o.toList with
  | none => exact absurd h (Text.cut?_eq_none_iff.mp hcut)
  | some parts =>
    obtain ⟨before, after⟩ := parts
    obtain ⟨hsplit, hfree⟩ := Text.cut?_eq_some_iff.mp hcut
    refine ⟨String.ofList before, String.ofList after, String.toList_inj.mp ?_, ?_⟩
    · simp [hsplit]
    · simpa using hfree

theorem readOverride_eq_ok_iff : readOverride o = .ok p ↔ Assigns o p := by
  constructor
  · intro h
    by_cases hsign : '=' ∈ o.toList
    · obtain ⟨before, after, rfl, hfree⟩ := exists_append_of_mem hsign
      rw [readOverride_append hfree] at h
      split at h
      · cases h
      · rename_i hblank
        cases h
        exact ⟨before, rfl, hfree, rfl, fun hempty => hblank (Text.trim_eq_empty_iff.mp hempty)⟩
    · rw [readOverride_of_notMem hsign] at h
      cases h
  · intro h
    obtain ⟨key, value⟩ := p
    obtain ⟨before, rfl, hfree, rfl, hne⟩ := h
    rw [readOverride_append hfree, if_neg]
    exact fun hblank => hne (Text.trim_eq_empty_iff.mpr hblank)

theorem readOverride_eq_error_iff : readOverride o = .error e ↔ Refuses o e := by
  constructor
  · intro h
    by_cases hsign : '=' ∈ o.toList
    · obtain ⟨before, after, rfl, hfree⟩ := exists_append_of_mem hsign
      rw [readOverride_append hfree] at h
      split at h
      · rename_i hblank
        cases h
        exact .emptyKey rfl hfree hblank
      · cases h
    · rw [readOverride_of_notMem hsign] at h
      cases h
      exact .noEqualsSign hsign
  · intro h
    cases h with
    | noEqualsSign hsign => exact readOverride_of_notMem hsign
    | emptyKey ho hfree hblank =>
      rw [ho, readOverride_append hfree, if_pos hblank]

theorem exists_assigns_iff :
    (∃ p, Assigns o p) ↔ ∃ before after,
      o = before ++ "=" ++ after ∧ '=' ∉ before.toList ∧ Text.isBlankText before = false := by
  constructor
  · intro h
    obtain ⟨p, before, ho, hfree, htrim, hne⟩ := h
    refine ⟨before, p.2, ho, hfree, Bool.eq_false_iff.mpr fun hblank => hne ?_⟩
    rw [← htrim, Text.trim_eq_empty_iff, hblank]
  · intro h
    obtain ⟨before, after, ho, hfree, hblank⟩ := h
    refine ⟨(Text.trim before, after), before, ho, hfree, rfl, fun hempty => ?_⟩
    rw [Text.trim_eq_empty_iff, hblank] at hempty
    cases hempty

theorem readOverride_of_isKey (h : IsKey key) (value : String) :
    readOverride (key ++ "=" ++ value) = .ok (key, value) :=
  readOverride_eq_ok_iff.mpr ⟨key, rfl, h.2.2, h.2.1, h.1⟩

/-- The message of a refusal quotes the override. -/
theorem Refuses.message_eq (h : Refuses o e) :
    ∃ reason, ∀ json,
      e.message json = "invalid configuration: override " ++ Text.quoted o ++ reason := by
  cases h with
  | noEqualsSign => exact ⟨" must be key=value", fun _ => rfl⟩
  | emptyKey => exact ⟨" has an empty key", fun _ => rfl⟩

/-! ## Several overrides -/

theorem setAll_eq_foldl (s : Settings) (pairs : List (String × String)) :
    s.setAll pairs = pairs.foldl (fun s p => s.set p.1 p.2) s := by
  induction pairs generalizing s with
  | nil => rfl
  | cons p rest ih => exact ih (s.set p.1 p.2)

/-- Overrides set what they assign, one after another. -/
theorem override_eq_ok_iff :
    s.override overrides = .ok t ↔
      ∃ pairs, List.Forall₂ Assigns overrides pairs ∧ s.setAll pairs = t := by
  induction overrides generalizing s with
  | nil =>
    rw [override_nil, Except.ok.injEq]
    constructor
    · intro h
      exact ⟨[], .nil, h⟩
    · intro h
      obtain ⟨pairs, hpairs, rfl⟩ := h
      cases hpairs
      rfl
  | cons o rest ih =>
    rw [override]
    cases ho : readOverride o with
    | error e =>
      constructor
      · intro h
        cases h
      · intro h
        obtain ⟨pairs, hpairs, -⟩ := h
        cases hpairs with
        | cons hp _ =>
          rw [readOverride_eq_ok_iff.mpr hp] at ho
          cases ho
    | ok p =>
      show (s.set p.1 p.2).override rest = .ok t ↔ _
      rw [ih]
      constructor
      · intro h
        obtain ⟨pairs, hpairs, rfl⟩ := h
        exact ⟨p :: pairs, .cons (readOverride_eq_ok_iff.mp ho) hpairs, rfl⟩
      · intro h
        obtain ⟨pairs, hpairs, rfl⟩ := h
        cases hpairs with
        | cons hp hrest =>
          rw [readOverride_eq_ok_iff.mpr hp] at ho
          cases ho
          exact ⟨_, hrest, rfl⟩

theorem exists_override_iff :
    (∃ t, s.override overrides = .ok t) ↔ ∀ o ∈ overrides, ∃ p, Assigns o p := by
  induction overrides generalizing s with
  | nil => simp
  | cons o rest ih =>
    rw [override, List.forall_mem_cons]
    simp only [← readOverride_eq_ok_iff] at ih ⊢
    cases readOverride o with
    | error e => simp
    | ok p =>
      show (∃ t, (s.set p.1 p.2).override rest = .ok t) ↔ _
      rw [ih]
      simp

theorem override_eq_setAll (s : Settings) {pairs : List (String × String)}
    (h : ∀ p ∈ pairs, IsKey p.1) :
    s.override (pairs.map fun p => p.1 ++ "=" ++ p.2) = .ok (s.setAll pairs) := by
  induction pairs generalizing s with
  | nil => rfl
  | cons p rest ih =>
    rw [List.forall_mem_cons] at h
    rw [List.map_cons, override, readOverride_of_isKey h.1]
    exact ih (s.set p.1 p.2) h.2

/-- Overrides fail with the error of the first one that cannot be read. -/
theorem override_eq_error_iff :
    s.override overrides = .error e ↔
      ∃ before pair after, overrides = before ++ pair :: after ∧
        (∀ o ∈ before, ∃ p, readOverride o = .ok p) ∧ readOverride pair = .error e := by
  induction overrides generalizing s with
  | nil => simp
  | cons first rest ih =>
    rw [override]
    cases hfirst : readOverride first with
    | error e' =>
      show Except.error e' = .error e ↔ _
      constructor
      · intro h
        rw [Except.error.injEq] at h
        subst h
        exact ⟨[], first, rest, rfl, by simp, hfirst⟩
      · intro h
        obtain ⟨before, pair, after, hsplit, hbefore, hpair⟩ := h
        cases before with
        | nil =>
          rw [List.nil_append, List.cons.injEq] at hsplit
          rw [← hsplit.1, hfirst, Except.error.injEq] at hpair
          rw [hpair]
        | cons o before =>
          rw [List.cons_append, List.cons.injEq] at hsplit
          obtain ⟨p, hp⟩ := hbefore o List.mem_cons_self
          rw [← hsplit.1, hfirst] at hp
          cases hp
    | ok p =>
      show (s.set p.1 p.2).override rest = .error e ↔ _
      rw [ih]
      constructor
      · intro h
        obtain ⟨before, pair, after, rfl, hbefore, hpair⟩ := h
        exact ⟨first :: before, pair, after, rfl,
          List.forall_mem_cons.mpr ⟨⟨p, hfirst⟩, hbefore⟩, hpair⟩
      · intro h
        obtain ⟨before, pair, after, hsplit, hbefore, hpair⟩ := h
        cases before with
        | nil =>
          rw [List.nil_append, List.cons.injEq] at hsplit
          rw [← hsplit.1, hfirst] at hpair
          cases hpair
        | cons o before =>
          rw [List.cons_append, List.cons.injEq] at hsplit
          rw [List.forall_mem_cons] at hbefore
          exact ⟨before, pair, after, hsplit.2, hbefore.2, hpair⟩

/-- Overrides succeed exactly if each has an equals sign and something that is not blank before the
first one. Then they set, one after another, what stands before that sign to what stands after it,
so that the last one for an option counts and options without one keep their values. Overrides may
be applied in two parts. With names that an override can have, they collect settings like a list of
pairs. An override that assigns nothing is quoted, the first one if there are several. -/
theorem override_sets_in_order (s : Settings) (overrides : List String) :
    ((∃ t, s.override overrides = .ok t) ↔
      ∀ o ∈ overrides, ∃ before after,
        o = before ++ "=" ++ after ∧ '=' ∉ before.toList ∧ Text.isBlankText before = false) ∧
    (∀ t, s.override overrides = .ok t →
      ∃ pairs, List.Forall₂ Assigns overrides pairs ∧
        t = pairs.foldl (fun s p => s.set p.1 p.2) s ∧
        (∀ key value, Table.GivesLast pairs key value → t.get? key = some value) ∧
        ∀ key, key ∉ pairs.map Prod.fst → t.get? key = s.get? key) ∧
    (∀ more, s.override (overrides ++ more) =
      (s.override overrides).bind fun t => t.override more) ∧
    (∀ pairs : List (String × String), (∀ p ∈ pairs, IsKey p.1) →
      empty.override (pairs.map fun p => p.1 ++ "=" ++ p.2) = .ok (ofList pairs)) ∧
    ∀ e, s.override overrides = .error e ↔
      ∃ before o after, overrides = before ++ o :: after ∧ (∀ o ∈ before, ∃ p, Assigns o p) ∧
        Refuses o e ∧
        ∃ reason, ∀ json,
          e.message json = "invalid configuration: override " ++ Text.quoted o ++ reason := by
  refine ⟨?_, fun t h => ?_, override_append s overrides, fun pairs => override_eq_setAll empty,
    fun e => ?_⟩
  · simp only [← exists_assigns_iff]
    exact exists_override_iff
  · obtain ⟨pairs, hpairs, rfl⟩ := override_eq_ok_iff.mp h
    exact ⟨pairs, hpairs, setAll_eq_foldl s pairs,
      fun key value => Table.get?_insertAll_of_givesLast,
      fun key => Table.get?_insertAll_of_notMem⟩
  · simp only [override_eq_error_iff, readOverride_eq_ok_iff, readOverride_eq_error_iff]
    constructor
    · intro h
      obtain ⟨before, o, after, hsplit, hbefore, ho⟩ := h
      exact ⟨before, o, after, hsplit, hbefore, ho, ho.message_eq⟩
    · intro h
      obtain ⟨before, o, after, hsplit, hbefore, ho, -⟩ := h
      exact ⟨before, o, after, hsplit, hbefore, ho⟩

end SuitePlan.Settings
