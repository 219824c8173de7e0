import SuitePlan.Proofs.Expansion.Cycles

/-!
# What an expansion looks at

An expansion looks up the profiles that it reaches and no others. Two catalogs that agree on these
expand a profile to the same runs, or fail with the same failure (`AgreeFrom.expand_eq`), and so
they have the same lineup of it (`lineup_eq_of_agree`). What the rest of a catalog holds, and which
profile the catalog would start from, does not matter.
-/

namespace SuitePlan.Catalog

/-- Two catalogs hold the same under every name that is reached from a name in the first. -/
def AgreeFrom (c d : Catalog) (name : String) : Prop :=
  ∀ p, c.Reaches name p → c.profiles.get? p = d.profiles.get? p

variable {c d : Catalog} {path : List String} {name p q : String} {referrer : Referrer}
  {used : Nat} {entries : List Entry}

theorem AgreeFrom.get?_eq (h : c.AgreeFrom d name) :
    c.profiles.get? name = d.profiles.get? name :=
  h name (Reaches.refl c name)

theorem AgreeFrom.of_includes (h : c.AgreeFrom d p) (hstep : c.Includes p q) : c.AgreeFrom d q :=
  fun r hr => h r (hr.of_includes hstep)

/-- What is included by the entries of a profile is reached from it. -/
theorem AgreeFrom.of_mem (h : c.AgreeFrom d name) (hget : c.profiles.get? name = some entries)
    (hmem : Entry.inclusion q ∈ entries) : c.AgreeFrom d q :=
  h.of_includes ((includes_iff hget).mpr hmem)

/-- The induction follows the calls in the first catalog. The second makes the same calls, since
every look-up finds the same. -/
theorem expand_eq_of_agreeFrom (c d : Catalog) :
    (∀ path name referrer used, c.AgreeFrom d name →
      c.expand path name referrer used = d.expand path name referrer used) ∧
    (∀ path profile index entries used, (∀ q, Entry.inclusion q ∈ entries → c.AgreeFrom d q) →
      c.expandEntries path profile index entries used =
        d.expandEntries path profile index entries used) ∧
    (∀ path profile index entry used, (∀ q, entry = .inclusion q → c.AgreeFrom d q) →
      c.expandEntry path profile index entry used =
        d.expandEntry path profile index entry used) := by
  apply expand.mutual_induct c
  -- a profile: on the path, undefined, or expanded as its entries are
  · intro path name referrer used hmem _
    rw [expand_of_mem hmem, expand_of_mem hmem]
  · intro path name referrer used hn hget h
    rw [expand_of_undefined hn hget, expand_of_undefined hn (h.get?_eq ▸ hget)]
  · intro path name referrer used hn entries hget _ ih h
    rw [expand_of_get? hn hget, expand_of_get? hn (h.get?_eq ▸ hget)]
    exact ih fun q hmem => h.of_mem hget hmem
  -- entries: none, or a first one that fails or is expanded before the others
  · intro path profile index used _
    rw [expandEntries_nil, expandEntries_nil]
  · intro path profile index used entry rest e he ih h
    have hentry := ih fun q heq => h q (heq ▸ List.mem_cons_self)
    rw [expandEntries_cons_of_error he, expandEntries_cons_of_error (hentry ▸ he)]
  · intro path profile index used entry rest first hfirst ihfirst ihrest h
    have hentry := ihfirst fun q heq => h q (heq ▸ List.mem_cons_self)
    rw [expandEntries_cons_of_ok hfirst, expandEntries_cons_of_ok (hentry ▸ hfirst),
      ihrest fun q hmem => h q (List.mem_cons_of_mem _ hmem)]
  -- an entry: a scenario, a blank inclusion, or one with a name
  · intro path profile index used s _
    rw [expandEntry_scenario, expandEntry_scenario]
  · intro path profile index used name hblank _
    rw [expandEntry_blank hblank, expandEntry_blank hblank]
  · intro path profile index used name hblank ih h
    have hname : Text.isBlankText name = false := by simpa using hblank
    rw [expandEntry_inclusion hname, expandEntry_inclusion hname]
    exact ih (h name rfl)

theorem AgreeFrom.expand_eq (h : c.AgreeFrom d name) :
    c.expand path name referrer used = d.expand path name referrer used :=
  (expand_eq_of_agreeFrom c d).1 path name referrer used h

/-- Catalogs that ask for the same number of runs, and hold the same profile, or none, under each
name that is reached from a name, have the same lineup of it or fail alike. -/
theorem lineup_eq_of_agree (hcount : c.count = d.count)
    (h : ∀ p, c.Reaches name p → c.profiles.get? p = d.profiles.get? p) :
    c.lineup name = d.lineup name := by
  have hexpand : c.expand [] name .settings 0 = d.expand [] name .settings 0 :=
    AgreeFrom.expand_eq h
  rw [lineup, lineup, hcount, hexpand]

/-- `loopBehind` with more profiles, none of which could be expanded, and another start. -/
def loopAmongOthers : Catalog where
  entry := some " "
  profiles := loopBehind.profiles.insertAll [
    (" ", [.inclusion "", .inclusion "a"]),
    ("A", [.scenario ⟨"", .late, some 4294967295, .empty⟩, .inclusion "A"])]

theorem lineup_eq_of_agree_loopBehind :
    loopBehind.count = loopAmongOthers.count ∧
    (∀ p, loopBehind.Reaches "a" p →
      loopBehind.profiles.get? p = loopAmongOthers.profiles.get? p) ∧
    loopBehind.lineup "a" = loopAmongOthers.lineup "a" ∧
    loopAmongOthers.lineup "a" = .error (.cycle ["b", "b"]) := by
  have hagree : ∀ p, loopBehind.Reaches "a" p →
      loopBehind.profiles.get? p = loopAmongOthers.profiles.get? p := by
    intro p hp
    rcases reaches_loopBehind hp with rfl | rfl
    · cbv
    · cbv
  have hcount : loopBehind.count = loopAmongOthers.count := rfl
  have heq := lineup_eq_of_agree hcount hagree
  have hl : loopBehind.lineup "a" = .error (.cycle ["b", "b"]) := by cbv
  exact ⟨hcount, hagree, heq, heq ▸ hl⟩

end SuitePlan.Catalog
