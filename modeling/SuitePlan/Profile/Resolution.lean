import SuitePlan.Attempt
import SuitePlan.Profile.Expansion
import SuitePlan.Profile.Source

/-!
# Resolution

Resolving a profile means to find out which one settings ask for, to read its catalog and to expand
it. Settings that ask for none leave nothing to resolve.
-/

namespace SuitePlan

/-- The lineup of the profile that a source and settings give. -/
def Source.lineup (files : Files) (s : Settings) (source : Source) : Except Failure Lineup := do
  let c ← (source.load files).mapError .profile
  let name ← (source.entryName s c).mapError .profile
  c.lineup name

/-- The lineup of the profile that settings ask for, if they ask for one. -/
def Settings.lineup? (files : Files) (s : Settings) : Except Failure (Option Lineup) :=
  match Source.ofSettings files s with
  | .error e => .error (.profile e)
  | .ok none => .ok none
  | .ok (some source) => (source.lineup files s).map some

variable {files : Files} {s : Settings} {source : Source} {l : Lineup} {text : String}

theorem Source.lineup_eq_ok_iff :
    source.lineup files s = .ok l ↔
      ∃ c, source.load files = .ok c ∧ source.entryName s c = .ok l.name ∧
        c.lineup l.name = .ok l := by
  simp only [Source.lineup, Attempt.bind_eq_ok_iff, Attempt.mapError_eq_ok_iff]
  apply exists_congr
  intro c
  apply and_congr_right
  intro _
  constructor
  · intro h
    obtain ⟨name, hname, hl⟩ := h
    rw [Catalog.name_of_lineup_eq_ok hl]
    exact ⟨hname, hl⟩
  · intro h
    exact ⟨l.name, h⟩

/-- What comes of a source whose text is known. -/
theorem Source.lineup_eq (h : source.text files = .ok text) :
    source.lineup files s =
      match Catalog.ofText text with
      | .error fault => .error (.profile (.unparsable source.origin text fault))
      | .ok c =>
        match source.entryName s c with
        | .error e => .error (.profile e)
        | .ok name => c.lineup name := by
  rw [lineup, load, h]
  show ((Catalog.ofText text).mapError _).mapError _ >>= _ = _
  cases Catalog.ofText text with
  | error fault => rfl
  | ok c =>
    show (source.entryName s c).mapError _ >>= _ = _
    cases hentry : source.entryName s c with
    | error e =>
      simp only [hentry]
      rfl
    | ok name =>
      simp only [hentry]
      rfl

theorem Settings.lineup?_of_source (h : Source.ofSettings files s = .ok (some source)) :
    s.lineup? files = (source.lineup files s).map some := by
  rw [lineup?, h]

theorem Settings.lineup?_eq_none_iff :
    s.lineup? files = .ok none ↔ s.get? Source.option = none := by
  rw [← @Source.ofSettings_eq_none_iff files, lineup?]
  rcases Source.ofSettings files s with e | _ | source
  · simp
  · simp
  · simp [Attempt.map_eq_ok_iff]

theorem Settings.lineup?_eq_some_iff :
    s.lineup? files = .ok (some l) ↔
      ∃ source, Source.ofSettings files s = .ok (some source) ∧ source.lineup files s = .ok l := by
  unfold Settings.lineup?
  rcases Source.ofSettings files s with e | _ | source
  · simp
  · simp
  · simp [Attempt.map_eq_ok_iff]

end SuitePlan
