import SuitePlan.Proofs.Pipeline.Conservation
import SuitePlan.Proofs.Settings.Values

/-!
# Layouts of repetitions

Settings ask for a number of repetitions and for a layout, or for one of them in a way that cannot
be understood. Items are repeated if and only if both are understood, whatever the items are, and
then the number and the layout tell which item stands at each place (`Stage.iterate_lays_out`). Both
layouts are made of the same items. The number is judged before the layout.
-/

namespace SuitePlan

variable {α : Type} {s t : Settings} {items : List α} {n : Nat} {layout : Layout}
  {value : String} {m : Int32} {e : SettingsError} {d d' : Composition α}

/-! ## What settings ask for -/

namespace Repetition

/-- Settings ask for a number of repetitions: for one if they say nothing, and otherwise for what
the value of the option denotes, which must not be below zero. -/
inductive AskedBy (s : Settings) : Nat → Prop
  | unset : s.get? option = none → AskedBy s 1
  | given {value : String} {m : Int32} :
      s.get? option = some value → Settings.Denotes value m.toInt → 0 ≤ m.toInt →
      AskedBy s m.toInt.toNat

theorem count_eq_ok_iff : count s = .ok n ↔ AskedBy s n := by
  rw [count, Attempt.bind_eq_ok_iff]
  constructor
  · intro h
    obtain ⟨m, hm, h⟩ := h
    by_cases hneg : m < 0
    · rw [if_pos hneg] at h
      cases h
    · rw [if_neg hneg, Except.ok.injEq] at h
      subst h
      rcases Settings.getInt_eq_ok_iff.mp hm with ⟨hnone, rfl⟩ | ⟨value, hvalue, hdenotes⟩
      · exact .unset hnone
      · rw [Int32.lt_iff_toInt_lt, Int32.toInt_zero, Int.not_lt] at hneg
        exact .given hvalue hdenotes hneg
  · intro h
    cases h with
    | unset hnone => exact ⟨1, Settings.getInt_eq_ok_iff.mpr (.inl ⟨hnone, rfl⟩), rfl⟩
    | @given value m hvalue hdenotes hpos =>
      have hneg : ¬m < 0 := by
        rw [Int32.lt_iff_toInt_lt, Int32.toInt_zero, Int.not_lt]
        exact hpos
      exact ⟨m, Settings.getInt_eq_ok_iff.mpr (.inr ⟨value, hvalue, hdenotes⟩), if_neg hneg⟩

theorem count_of_not_denotes (h : s.get? option = some value)
    (hm : ∀ m : Int32, ¬Settings.Denotes value m.toInt) :
    count s = .error (.malformed option value .integer) := by
  rw [count, Settings.getInt_eq_error_iff.mpr ⟨value, h, hm, rfl⟩]
  rfl

theorem count_of_negative (h : s.get? option = some value) (hm : Settings.Denotes value m.toInt)
    (hneg : m.toInt < 0) : count s = .error (.negative option m.toInt) := by
  rw [count, Settings.getInt_eq_ok_iff.mpr (.inr ⟨value, h, hm⟩)]
  exact if_pos (Int32.lt_iff_toInt_lt.mpr hneg)

theorem count_congr (h : s.get? option = t.get? option) : count s = count t := by
  rw [count, count, Settings.getInt_congr h]

/-- Both layouts are made of the same items. -/
theorem repeated_perm (layout layout' : Layout) (n : Nat) (items : List α) :
    (repeated layout n items).Perm (repeated layout' n items) := by
  classical
  rw [List.perm_iff_count]
  intro item
  rw [count_repeated, count_repeated]

end Repetition

namespace Layout

/-- Settings ask for a layout: for the cyclic one if they say nothing, and otherwise for the one
that the value of the option names. -/
inductive AskedBy (s : Settings) : Layout → Prop
  | unset : s.get? option = none → AskedBy s .cyclic
  | named {value : String} {layout : Layout} :
      s.get? option = some value → layout.IsNamedBy value → AskedBy s layout

theorem ofSettings_eq_ok_iff_askedBy : ofSettings s = .ok layout ↔ AskedBy s layout := by
  rw [ofSettings_eq_ok_iff]
  constructor
  · intro h
    rcases h with ⟨hnone, rfl⟩ | ⟨value, hvalue, hlayout⟩
    · exact .unset hnone
    · exact .named hvalue hlayout
  · intro h
    cases h with
    | unset hnone => exact .inl ⟨hnone, rfl⟩
    | named hvalue hlayout => exact .inr ⟨_, hvalue, hlayout⟩

end Layout

/-! ## The stage -/

namespace Stage

theorem exists_applyIterate_iff :
    (∃ d, applyIterate s items = .ok d) ↔
      (∃ n, Repetition.AskedBy s n) ∧ ∃ layout, Layout.AskedBy s layout := by
  simp only [applyIterate_eq_ok_iff, Repetition.ofSettings_eq_ok_iff, Repetition.count_eq_ok_iff,
    Layout.ofSettings_eq_ok_iff_askedBy]
  constructor
  · rintro ⟨d, n, layout, ⟨hn, hlayout⟩, -⟩
    exact ⟨⟨n, hn⟩, layout, hlayout⟩
  · rintro ⟨⟨n, hn⟩, layout, hlayout⟩
    exact ⟨_, n, layout, ⟨hn, hlayout⟩, rfl⟩

theorem applyIterate_of_asked (hn : Repetition.AskedBy s n) (hlayout : Layout.AskedBy s layout) :
    applyIterate s items = .ok ⟨Repetition.repeated layout n items, .empty⟩ :=
  applyIterate_eq_ok_iff.mpr ⟨n, layout, Repetition.ofSettings_eq_ok_iff.mpr
    ⟨Repetition.count_eq_ok_iff.mpr hn, Layout.ofSettings_eq_ok_iff_askedBy.mpr hlayout⟩, rfl⟩

theorem applyIterate_of_count (h : Repetition.count s = .error e) :
    applyIterate s items = .error (.settings e) := by
  rw [applyIterate, Repetition.ofSettings, h]
  rfl

theorem applyIterate_of_layout (hn : Repetition.AskedBy s n) (h : Layout.ofSettings s = .error e) :
    applyIterate s items = .error (.settings e) := by
  rw [applyIterate, Repetition.ofSettings, Repetition.count_eq_ok_iff.mpr hn, h]
  rfl

/-- Which layout settings ask for makes no difference to which items there are. -/
theorem perm_of_applyIterate (hcount : s.get? Repetition.option = t.get? Repetition.option)
    (h : applyIterate s items = .ok d) (h' : applyIterate t items = .ok d') :
    d.items.Perm d'.items := by
  obtain ⟨n, layout, hs, rfl⟩ := applyIterate_eq_ok_iff.mp h
  obtain ⟨n', layout', ht, rfl⟩ := applyIterate_eq_ok_iff.mp h'
  have hn := (Repetition.ofSettings_eq_ok_iff.mp hs).1
  have hn' := (Repetition.ofSettings_eq_ok_iff.mp ht).1
  rw [Repetition.count_congr hcount, hn', Except.ok.injEq] at hn
  subst hn
  exact Repetition.repeated_perm layout layout' _ items

/-- Items are repeated exactly if settings ask for it in a way that can be understood. In passes,
the items recur with the length of a pass; in place, each takes as many places as there are
repetitions. Where neither option can be understood, it is the number of repetitions that is
reported. -/
theorem iterate_lays_out (s : Settings) (items : List α) :
    ((∃ d, applyIterate s items = .ok d) ↔
      (∃ n, Repetition.AskedBy s n) ∧ ∃ layout, Layout.AskedBy s layout) ∧
    (∀ n, Repetition.AskedBy s n →
      (Layout.AskedBy s .cyclic → ∃ d, applyIterate s items = .ok d ∧
        d.items.length = n * items.length ∧
        ∀ k < n * items.length, d.items[k]? = items[k % items.length]?) ∧
      (Layout.AskedBy s .sequential → ∃ d, applyIterate s items = .ok d ∧
        d.items.length = n * items.length ∧
        ∀ k < n * items.length, d.items[k]? = items[k / n]?)) ∧
    (∀ t d d', s.get? Repetition.option = t.get? Repetition.option →
      applyIterate s items = .ok d → applyIterate t items = .ok d' → d.items.Perm d'.items) ∧
    (∀ value, s.get? Repetition.option = some value →
      (∀ m : Int32, ¬Settings.Denotes value m.toInt) →
      applyIterate s items = .error (.settings (.malformed Repetition.option value .integer))) ∧
    (∀ (value : String) (m : Int32), s.get? Repetition.option = some value →
      Settings.Denotes value m.toInt → m.toInt < 0 →
      applyIterate s items = .error (.settings (.negative Repetition.option m.toInt))) ∧
    ∀ n value, Repetition.AskedBy s n → s.get? Layout.option = some value →
      (∀ layout : Layout, ¬layout.IsNamedBy value) →
      applyIterate s items = .error (.settings (.malformed Layout.option value .layout)) := by
  refine ⟨exists_applyIterate_iff, fun n hn => ⟨fun hlayout => ?_, fun hlayout => ?_⟩,
    fun t d d' => perm_of_applyIterate, fun value hvalue hm => ?_,
    fun value m hvalue hm hneg => ?_, fun n value hn hvalue hlayout => ?_⟩
  · exact ⟨_, applyIterate_of_asked hn hlayout, Repetition.length_cyclic n items,
      fun k hk => Repetition.getElem?_cyclic hk⟩
  · exact ⟨_, applyIterate_of_asked hn hlayout, Repetition.length_sequential n items,
      fun k hk => Repetition.getElem?_sequential hk⟩
  · exact applyIterate_of_count (Repetition.count_of_not_denotes hvalue hm)
  · exact applyIterate_of_count (Repetition.count_of_negative hvalue hm hneg)
  · exact applyIterate_of_layout hn
      (Layout.ofSettings_eq_error_iff.mpr ⟨value, hvalue, hlayout, rfl⟩)

end Stage

end SuitePlan
