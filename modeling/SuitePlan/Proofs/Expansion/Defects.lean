import Mathlib
import SuitePlan.Proofs.Expansion.Cycles

/-!
# The defect that is reported

A route tells how an expansion has come to an entry: the profiles it has entered, each with the
place of the entry it is at and the runs of the entries before that place. It is a fact about the
entries of the catalog, and every call follows one (`Call.Makes.follows`).

So the entry that a failure names is at the end of a route, everything before it on the route was
expanded, and the runs on the route are those that the number of runs is counted from
(`lineup_first_defect`).
-/

namespace SuitePlan

/-- A profile that has been entered, and how far its entries have been expanded. -/
structure Stop where
  profile : String
  place : Nat
  /-- The runs of the entries before the place. -/
  runs : List Run

namespace Stop

/-- The profiles of stops, the last one first. -/
def path (stops : List Stop) : List String :=
  (stops.map profile).reverse

/-- How many runs have been collected at stops. -/
def collected (stops : List Stop) : Nat :=
  (stops.map fun stop => stop.runs.length).sum

variable (stops : List Stop) (stop : Stop)

@[simp] theorem path_concat : path (stops ++ [stop]) = stop.profile :: path stops := by
  simp [path]

@[simp] theorem collected_concat :
    collected (stops ++ [stop]) = collected stops + stop.runs.length := by
  simp [collected]

theorem mem_path_iff {name : String} : name ∈ path stops ↔ name ∈ stops.map profile := by
  simp [path]

end Stop

/-- Stops that follow each other from the profile `root` on, each at an inclusion of the next. The
entries before the place of a stop have been expanded while the profiles up to it were entered. -/
structure Route (c : Catalog) (root : String) (stops : List Stop) : Prop where
  starts : ∀ stop ∈ stops.head?, stop.profile = root
  distinct : (stops.map Stop.profile).Nodup
  defined : ∀ stop ∈ stops, c.Defines stop.profile
  linked : stops.IsChain fun stop next =>
    (c.entriesOf stop.profile)[stop.place]? = some (.inclusion next.profile)
  expanded : ∀ earlier stop, earlier ++ [stop] <+: stops →
    c.expandEntries (Stop.path (earlier ++ [stop])) stop.profile 0
      ((c.entriesOf stop.profile).take stop.place) (Stop.collected earlier) = .ok stop.runs
  flattened : ∀ stop ∈ stops,
    c.Flattens stop.profile ((c.entriesOf stop.profile).take stop.place) stop.runs

/-- The stops of a route are what the call for a profile goes by. -/
structure Call.Follows (c : Catalog) (root : String) (stops : List Stop) (call : Call) : Prop where
  route : Route c root stops
  path_eq : call.path = Stop.path stops
  used_eq : call.used = Stop.collected stops
  first : stops = [] → call.name = root ∧ call.referrer = .settings
  later : ∀ last ∈ stops.getLast?, call.referrer = .profile last.profile ∧
    (c.entriesOf last.profile)[last.place]? = some (.inclusion call.name)

namespace Call

variable {c : Catalog} {call : Call} {root q : String} {stops : List Stop} {index : Nat}
  {entry : Entry} {runs : List Run}

theorem follows_start (c : Catalog) (root : String) : (start root).Follows c root [] := by
  refine ⟨⟨by simp, by simp, by simp, by simp, by simp, by simp⟩, rfl, rfl, ?_, by simp⟩
  intro _
  exact ⟨rfl, rfl⟩

/-- The entry that a call gets to ends a route one stop longer. -/
theorem Follows.route_concat (h : call.Follows c root stops)
    (hgets : call.GetsTo c index entry runs) :
    Route c root (stops ++ [⟨call.name, index, runs⟩]) := by
  have hbefore := hgets.before
  rw [h.path_eq, h.used_eq] at hbefore
  refine ⟨?_, ?_, ?_, ?_, ?_, ?_⟩
  · intro stop hstop
    cases stops with
    | nil =>
      cases hstop
      exact (h.first rfl).1
    | cons first rest => exact h.route.starts stop hstop
  · have hfresh := hgets.fresh
    rw [h.path_eq, Stop.mem_path_iff] at hfresh
    simpa [List.nodup_append] using ⟨h.route.distinct, by simpa using hfresh⟩
  · intro stop hmem
    rcases List.mem_append.mp hmem with hmem | hmem
    · exact h.route.defined stop hmem
    · rw [List.mem_singleton.mp hmem]
      exact hgets.defines
  · refine List.isChain_append.mpr ⟨h.route.linked, List.isChain_singleton _, ?_⟩
    intro last hlast next hnext
    cases hnext
    exact (h.later last hlast).2
  · intro earlier stop hprefix
    rcases List.prefix_concat_iff.mp hprefix with heq | hprefix
    · obtain ⟨rfl, hlast⟩ := List.append_inj' heq rfl
      cases hlast
      rw [Stop.path_concat]
      exact hbefore
    · exact h.route.expanded earlier stop hprefix
  · intro stop hmem
    rcases List.mem_append.mp hmem with hmem | hmem
    · exact h.route.flattened stop hmem
    · rw [List.mem_singleton.mp hmem]
      exact ((Catalog.expanded_of_expand_eq_ok c).2.1 _ _ _ _ _ _ hbefore).flattens

theorem Follows.inner (h : call.Follows c root stops)
    (hgets : call.GetsTo c index (.inclusion q) runs) :
    (call.inner q runs).Follows c root (stops ++ [⟨call.name, index, runs⟩]) := by
  refine ⟨h.route_concat hgets, ?_, ?_, by simp, ?_⟩
  · rw [Stop.path_concat, ← h.path_eq]
    rfl
  · rw [Stop.collected_concat, ← h.used_eq]
    rfl
  · intro last hlast
    rw [List.getLast?_concat] at hlast
    cases hlast
    exact ⟨rfl, hgets.listed⟩

/-- Every call follows a route: the first call does, and each call makes it longer by the entry that
it gets to. -/
theorem Makes.follows (h : (start root).Makes c call) : ∃ stops, call.Follows c root stops := by
  induction h with
  | refl => exact ⟨[], follows_start c root⟩
  | inner _ hgets _ ih =>
    obtain ⟨stops, hfollows⟩ := ih
    exact ⟨_, hfollows.inner hgets⟩

end Call

namespace Catalog

/-- A missing profile is either the one that is started from, or it is included at the end of a
route. A wrong entry is at the end of a route, and what is said about it is true of it: its name is
blank, or its runs are too many after all that were collected on the route. -/
theorem lineup_first_defect (c : Catalog) (name : String) :
    (∀ referrer, c.lineup name = .error (.profile (.undefined name referrer)) →
      referrer.text = "configuration" → ¬c.Defines name) ∧
    (∀ q referrer, c.lineup name = .error (.profile (.undefined q referrer)) →
      ¬(q = name ∧ referrer.text = "configuration") →
      ∃ stops last, Route c name (stops ++ [last]) ∧
        (c.entriesOf last.profile)[last.place]? = some (.inclusion q) ∧ ¬c.Defines q ∧
        referrer.text = "profile " ++ Text.quoted last.profile) ∧
    (∀ p i defect, c.lineup name = .error (.profile (.invalidEntry p i defect)) →
      ∃ stops last, Route c name (stops ++ [last]) ∧ last.profile = p ∧ last.place = i ∧
        ((∃ s, (c.entriesOf p)[i]? = some (.scenario s) ∧ Text.trim s.name = "" ∧
            defect.text = "scenario name must not be empty") ∨
          (∃ q, (c.entriesOf p)[i]? = some (.inclusion q) ∧ Text.trim q = "" ∧
            defect.text = "include must name a profile") ∨
          ∃ s, (c.entriesOf p)[i]? = some (.scenario s) ∧ Text.trim s.name ≠ "" ∧
            10000 < Stop.collected (stops ++ [last]) + s.repeats ∧
            defect.text = "expansion exceeds 10000 scenario runs")) := by
  refine ⟨?_, ?_, ?_⟩
  · intro referrer h _
    obtain ⟨call, -, hfails⟩ :=
      exists_call_of_lineup_eq_error (countFits_of_lineup_eq_error h (by simp)) h
    cases hfails with
    | undefined _ hundefined => exact hundefined
  · intro q referrer h hother
    obtain ⟨call, hmakes, hfails⟩ :=
      exists_call_of_lineup_eq_error (countFits_of_lineup_eq_error h (by simp)) h
    obtain ⟨stops, hfollows⟩ := hmakes.follows
    cases hfails with
    | undefined _ hundefined =>
      rcases stops.eq_nil_or_concat' with rfl | ⟨earlier, last, rfl⟩
      · obtain ⟨hname, hreferrer⟩ := hfollows.first rfl
        exact absurd ⟨hname, by rw [hreferrer, Referrer.text]⟩ hother
      · obtain ⟨hreferrer, hlisted⟩ := hfollows.later last (by simp)
        refine ⟨earlier, last, hfollows.route, hlisted, hundefined, ?_⟩
        rw [hreferrer]
        rfl
  · intro p i defect h
    obtain ⟨call, hmakes, hfails⟩ :=
      exists_call_of_lineup_eq_error (countFits_of_lineup_eq_error h (by simp)) h
    obtain ⟨stops, hfollows⟩ := hmakes.follows
    cases hfails with
    | @entry _ entry runs _ hgets hdefect =>
      refine ⟨stops, ⟨call.name, i, runs⟩, hfollows.route_concat hgets, rfl, rfl, ?_⟩
      have hlisted := hgets.listed
      cases hdefect with
      | @blankScenario s hblank =>
        exact .inl ⟨s, hlisted, Text.trim_eq_empty_iff.mpr hblank, rfl⟩
      | @blankInclusion q hblank =>
        exact .inr (.inl ⟨q, hlisted, Text.trim_eq_empty_iff.mpr hblank, rfl⟩)
      | @tooManyRuns s hname hlimit =>
        refine .inr (.inr ⟨s, hlisted, not_blank_iff.mp hname, ?_, by decide⟩)
        rw [Stop.collected_concat, ← hfollows.used_eq]
        exact hlimit

/-- A profile includes another one twice, and then lists one run too many. -/
def oneTooMany : Catalog where
  profiles := .ofList [
    ("a", [.inclusion "b", .inclusion "c", .inclusion "missing"]),
    ("b", [.scenario ⟨"x", .middle, none, .empty⟩]),
    ("c", [.inclusion "b", .scenario ⟨"y", .late, some 9999, .empty⟩, .inclusion " "])]

theorem lineup_first_defect_oneTooMany :
    oneTooMany.lineup "a" = .error (.profile (.invalidEntry "c" 1 .tooManyRuns)) ∧
    ∃ stops last, Route oneTooMany "a" (stops ++ [last]) ∧ last.profile = "c" ∧ last.place = 1 ∧
      10000 < Stop.collected (stops ++ [last]) + 9999 := by
  have hl : oneTooMany.lineup "a" = .error (.profile (.invalidEntry "c" 1 .tooManyRuns)) := by cbv
  have hc : oneTooMany.entriesOf "c" = [.inclusion "b",
      .scenario ⟨"y", .late, some 9999, .empty⟩, .inclusion " "] := by cbv
  obtain ⟨-, -, hentry⟩ := lineup_first_defect oneTooMany "a"
  obtain ⟨stops, last, hroute, hprofile, hplace, hdefect⟩ := hentry _ _ _ hl
  refine ⟨hl, stops, last, hroute, hprofile, hplace, ?_⟩
  rw [hc] at hdefect
  rcases hdefect with ⟨s, -, -, htext⟩ | ⟨q, hq, -, -⟩ | ⟨s, hs, -, hmany, -⟩
  · exact absurd htext (by decide)
  · cases hq
  · cases hs
    exact hmany

end Catalog

end SuitePlan
