import SuitePlan.Proofs.Expansion.Steps

/-!
# The limit of an expansion

An expander never has more runs than the limit: the runs that are collected and those of a scenario
that are left to be collected fit under it, and every step keeps this (`Expander.Fits.step`). It
also keeps the count of the runs in words exact, so that a scenario is refused exactly if it does
not fit (`Expander.step_tooManyRuns_iff`), and collected otherwise (`Expander.runs_scenario`).

A lineup is what an expander has collected in the end, repeated or cut to a number of runs that is
itself under the limit (`Expander.expansion_within_limit`).
-/

namespace SuitePlan

/-- How often a run is still to be collected. -/
def Move.left : Move → Nat
  | .collect _ left => left
  | _ => 0

namespace Expander

/-- The runs that are collected fit under the limit together with those that are about to be. -/
def Fits (e : Expander) : Prop :=
  e.out.length + e.move.left ≤ Catalog.runLimit

variable {c : Catalog} {e e' : Expander} {name p : String} {stack : List String}
  {out runs : List Run} {frames : List Frame} {i : Nat} {s : Scenario} {rest : List Entry}
  {failure : Failure} {l : Lineup}

theorem Fits.length_le (h : e.Fits) : e.out.length ≤ Catalog.runLimit :=
  Nat.le_trans (Nat.le_add_right _ _) h

theorem Fits.lt_size (h : e.Fits) : e.out.length < UInt64.size :=
  Nat.lt_of_le_of_lt h.length_le (by decide)

theorem fits_start (name : String) : (start name).Fits :=
  Nat.zero_le _

/-- A scenario is let in only if its runs fit, and each of them that is collected is one less to be
collected. Nothing else adds runs. -/
theorem Fits.step (h : e.Fits) (hstep : Step c e e') : e'.Fits := by
  cases hstep with
  | scenario _ hfits =>
    exact Nat.not_lt.mp fun hmany => hfits ((overflows_iff h.lt_size _).mpr hmany)
  | collect =>
    rw [Fits, Move.left, List.length_append, List.length_singleton, Nat.add_right_comm]
    exact h
  | _ => exact h

theorem Runs.fits (hruns : Runs c e e') (h : e.Fits) : e'.Fits := by
  induction hruns with
  | refl => exact h
  | tail _ hstep ih => exact ih.step hstep

/-- The check of a scenario is exact. -/
theorem step_tooManyRuns_iff (hname : Text.isBlankText s.name = false)
    (hlt : out.length < UInt64.size) :
    (∃ e', Step c ⟨stack, out, ⟨p, i, .scenario s :: rest⟩ :: frames, .next⟩ e' ∧
      e'.move = .fail (.profile (.invalidEntry p i .tooManyRuns))) ↔
        Catalog.runLimit < out.length + s.repeats := by
  rw [← overflows_iff hlt]
  constructor
  · rintro ⟨e', hstep, hfail⟩
    cases hstep with
    | blankScenario => cases hfail
    | tooManyRuns _ hover => exact hover
    | scenario => cases hfail
  · intro hover
    exact ⟨_, .tooManyRuns hname hover, rfl⟩

/-! ## Lineups -/

theorem exists_runs_of_lineup_eq_ok (h : c.lineup name = .ok l) :
    ∃ runs, Runs c (start name) ⟨[], runs, [], .next⟩ ∧
      l = ⟨name, Lineup.fit c.count (Lineup.arrange runs)⟩ := by
  have hcomes := comesTo_start c name
  rw [Catalog.lineup_eq_map (Catalog.countFits_of_lineup_eq_ok h), Attempt.map_eq_ok_iff] at h
  obtain ⟨runs, hexpand, rfl⟩ := h
  rw [hexpand] at hcomes
  exact ⟨runs, hcomes, rfl⟩

/-- A profile without a lineup is refused for the number of runs that the catalog asks for, before
anything is expanded, or the expander fails. -/
theorem of_lineup_eq_error (h : c.lineup name = .error failure) :
    (∃ count, c.count = some count ∧ Catalog.runLimit < count.toNat ∧
      failure = .profile (.countTooLarge count.toNat)) ∨
      ∃ last, Runs c (start name) last ∧ last.move = .fail failure := by
  by_cases hcount : c.CountFits
  · have hcomes := comesTo_start c name
    rw [Catalog.lineup_eq_map hcount, Attempt.map_eq_error_iff] at h
    rw [h] at hcomes
    exact .inr hcomes
  · simp only [Catalog.CountFits, not_forall, Nat.not_le] at hcount
    obtain ⟨count, hcount, hlimit⟩ := hcount
    rw [Catalog.lineup_of_count hcount hlimit, Except.error.injEq] at h
    exact .inl ⟨count, hcount, hlimit, h.symm⟩

/-- An expander has at no point more runs than the limit. When it takes a scenario with a name, it
fails for too many runs exactly if the runs are more than the limit together with those of the
scenario, and collects them otherwise. This is how every lineup is made, and why none has more runs
than the limit. -/
theorem expansion_within_limit (c : Catalog) (name : String) :
    (∀ e, Runs c (start name) e → e.out.length ≤ Catalog.runLimit ∧
      ∀ p i s rest frames, e.move = .next → e.frames = ⟨p, i, .scenario s :: rest⟩ :: frames →
        Text.trim s.name ≠ "" →
          ((∃ e', Step c e e' ∧ e'.move = .fail (.profile (.invalidEntry p i .tooManyRuns))) ↔
            Catalog.runLimit < e.out.length + s.repeats) ∧
          (e.out.length + s.repeats ≤ Catalog.runLimit →
            Runs c e ⟨e.stack, e.out ++ Catalog.scenarioRuns p s, ⟨p, i + 1, rest⟩ :: frames,
              .next⟩)) ∧
    (∀ l, c.lineup name = .ok l → l.runs.length ≤ Catalog.runLimit ∧
      ∃ runs, Runs c (start name) ⟨[], runs, [], .next⟩ ∧
        l = ⟨name, Lineup.fit c.count (Lineup.arrange runs)⟩) ∧
    ∀ failure, c.lineup name = .error failure →
      (∃ count, c.count = some count ∧ Catalog.runLimit < count.toNat ∧
        failure = .profile (.countTooLarge count.toNat)) ∨
        ∃ last, Runs c (start name) last ∧ last.move = .fail failure := by
  refine ⟨fun e hruns => ?_, fun l hl => ?_, fun failure => of_lineup_eq_error⟩
  · have hfits := hruns.fits (fits_start name)
    refine ⟨hfits.length_le, fun p i s rest frames hmove hframes hname => ?_⟩
    obtain ⟨stack, out, _, _⟩ := e
    cases hmove
    cases hframes
    have hname : Text.isBlankText s.name = false := Catalog.not_blank_iff.mpr hname
    exact ⟨step_tooManyRuns_iff hname hfits.lt_size, runs_scenario hname hfits.lt_size⟩
  · obtain ⟨runs, hruns, rfl⟩ := exists_runs_of_lineup_eq_ok hl
    refine ⟨Lineup.length_fit_le (Catalog.countFits_of_lineup_eq_ok hl) ?_, runs, hruns, rfl⟩
    rw [Lineup.length_arrange]
    exact (hruns.fits (fits_start name)).length_le

/-- As many runs as may be. -/
def filling : Scenario := ⟨"x", .middle, some 10000, .empty⟩

/-- No run. -/
def idle : Scenario := ⟨"y", .late, some 0, .empty⟩

/-- More runs than may be, the greatest number that can be asked for. -/
def excessive : Scenario := ⟨"z", .middle, some 4294967295, .empty⟩

/-- A profile that is full before it lists a scenario that does not run, and then one that does. -/
def filled : Catalog where
  profiles := .ofList [("a", [.scenario filling, .scenario idle, .scenario excessive])]

/-- The expander of it when it is full, with the entries that are left from an index on. -/
def full (index : Nat) (rest : List Entry) : Expander :=
  ⟨["a"], Catalog.scenarioRuns "a" filling, [⟨"a", index, rest⟩], .next⟩

theorem length_full (index : Nat) (rest : List Entry) :
    (full index rest).out.length = Catalog.runLimit :=
  List.length_replicate

theorem expansion_within_limit_filled :
    Runs filled (start "a") (full 1 [.scenario idle, .scenario excessive]) ∧
    Runs filled (full 1 [.scenario idle, .scenario excessive]) (full 2 [.scenario excessive]) ∧
    ∃ e', Step filled (full 2 [.scenario excessive]) e' ∧
      e'.move = .fail (.profile (.invalidEntry "a" 2 .tooManyRuns)) := by
  have hget : filled.profiles.get? "a" =
      some [.scenario filling, .scenario idle, .scenario excessive] := by cbv
  have hx : Text.trim filling.name ≠ "" := by decide +kernel
  have hy : Text.trim idle.name ≠ "" := by decide +kernel
  have hz : Text.trim excessive.name ≠ "" := by decide +kernel
  obtain ⟨hchecks, -, -⟩ := expansion_within_limit filled "a"
  have henter : Runs filled (start "a")
      ⟨["a"], [], [⟨"a", 0, [.scenario filling, .scenario idle, .scenario excessive]⟩], .next⟩ :=
    .single (.enter List.not_mem_nil hget)
  have hfits : filling.repeats ≤ Catalog.runLimit := by decide +kernel
  have hfirst : Runs filled (start "a") (full 1 [.scenario idle, .scenario excessive]) :=
    henter.trans (((hchecks _ henter).2 _ _ _ _ _ rfl rfl hx).2 ((Nat.zero_add _).trans_le hfits))
  have hidle : (full 1 [.scenario idle, .scenario excessive]).out.length + idle.repeats ≤
      Catalog.runLimit := by
    rw [length_full]
    exact Nat.le_refl _
  have hmany :
      Catalog.runLimit < (full 2 [.scenario excessive]).out.length + excessive.repeats := by
    rw [length_full]
    exact Nat.lt_add_of_pos_right (Nat.succ_pos _)
  have hsecond : Runs filled (full 1 [.scenario idle, .scenario excessive])
      (full 2 [.scenario excessive]) := by
    have hidles := ((hchecks _ hfirst).2 _ _ _ _ _ rfl rfl hy).2 hidle
    have hnothing : Catalog.scenarioRuns "a" idle = [] := rfl
    rwa [hnothing, List.append_nil] at hidles
  exact ⟨hfirst, hsecond, ((hchecks _ (hfirst.trans hsecond)).2 _ _ _ _ _ rfl rfl hz).1.mpr hmany⟩

end Expander

end SuitePlan
