import SuitePlan.Proofs.Pipeline.Passes
import SuitePlan.Proofs.Replay.Pipelines

/-!
# Settings that replays leave as they are

Stages of one kind choose alike under the same settings, unless each of them generates a seed. So
the values that are left of all choices are those of each stage as soon as at most one stage
generates one, or none does (`Passes.kept`). Settings with these values pinned give the same
composition, and the replay of that one has the same settings again (`Pipeline.replay_settles`).
-/

namespace SuitePlan

variable {α : Type} [Item α] {files : Files} {seed seed' : Int64} {seeds seeds' : Nat → Int64}
  {s : Settings} {items items' : List α} {kind : StageKind} {kinds : List StageKind}
  {d d' r : Composition α} {steps : List (Step α)} {key : String}

/-! ## What stages choose -/

theorem Stage.chosen_eq_of_apply (h : (ofKind kind).apply ⟨files, seed⟩ s items = .ok d)
    (h' : (ofKind kind).apply ⟨files, seed'⟩ s items' = .ok d')
    (hseed : kind = .shuffle → Shuffle.Request.ofSettings s ≠ .ok .unseeded) :
    d'.chosen = d.chosen := by
  cases kind with
  | profile =>
    rcases applyProfile_eq_ok_iff.mp h with ⟨hl, rfl⟩ | ⟨l, selected, hl, -, rfl⟩
    · rcases applyProfile_eq_ok_iff.mp h' with ⟨-, rfl⟩ | ⟨l', selected', hl', -, rfl⟩
      · rfl
      · rw [hl] at hl'
        cases hl'
    · rcases applyProfile_eq_ok_iff.mp h' with ⟨hl', rfl⟩ | ⟨l', selected', hl', -, rfl⟩
      · rw [hl] at hl'
        cases hl'
      · rw [hl] at hl'
        cases hl'
        rfl
  | iterate =>
    obtain ⟨n, layout, -, rfl⟩ := applyIterate_eq_ok_iff.mp h
    obtain ⟨n', layout', -, rfl⟩ := applyIterate_eq_ok_iff.mp h'
    rfl
  | shuffle =>
    obtain ⟨request, hs, h⟩ := applyShuffle_eq_ok_iff.mp h
    obtain ⟨request', hs', h'⟩ := applyShuffle_eq_ok_iff.mp h'
    rw [hs] at hs'
    cases hs'
    have hsame : request.seed? seed' = request.seed? seed := by
      cases request with
      | off => rfl
      | seeded given => rfl
      | unseeded => exact absurd hs (hseed rfl)
    rw [hsame] at h'
    rcases h with ⟨hoff, rfl⟩ | ⟨used, hused, rfl⟩ <;>
      rcases h' with ⟨hoff', rfl⟩ | ⟨used', hused', rfl⟩ <;> simp_all

/-- The values that are left of all choices are those of each stage, if no two of them generate a
seed. -/
theorem Passes.kept (h : Passes files s seeds items steps)
    (hseed : (steps.map Step.kind).count .shuffle ≤ 1 ∨
      s.get? Shuffle.Request.seedOption ≠ none ∨
      s.getFlag Shuffle.Request.option false ≠ .ok true) :
    ∀ step ∈ steps, ∀ key ∈ step.kind.options,
      (Step.merged ⟨items, .empty⟩ steps).chosen.get? key = step.made.chosen.get? key := by
  intro step hmem key hkey
  refine h.get?_merged_of_alike hmem hkey (Table.get?_empty key) fun other hother hkind => ?_
  by_cases honce : step.kind = .shuffle ∧ (steps.map Step.kind).count .shuffle ≤ 1
  · rw [Step.eq_of_kind_eq hmem hother hkind (honce.1 ▸ honce.2)]
  · obtain ⟨seed, given, hmade⟩ := h.exists_apply hmem
    obtain ⟨seed', given', hmade'⟩ := h.exists_apply hother
    rw [hkind] at hmade'
    rw [Stage.chosen_eq_of_apply hmade hmade' fun hshuffle hunseeded => ?_]
    obtain ⟨hon, hnone⟩ := Shuffle.Request.ofSettings_eq_unseeded_iff.mp hunseeded
    rcases hseed with hcount | hsome | hoff
    · exact honce ⟨hshuffle, hcount⟩
    · exact hsome hnone
    · exact hoff hon

theorem Pipeline.compose_replaySettings_of_kept
    (h : (ofKinds kinds).compose files seeds s items = .ok r)
    (hseed : kinds.count .shuffle ≤ 1 ∨ s.get? Shuffle.Request.seedOption ≠ none ∨
      s.getFlag Shuffle.Request.option false ≠ .ok true)
    (hname : ∀ name, r.chosen.get? Source.nameOption = some name → Source.Stays name) :
    (ofKinds kinds).compose files seeds' (r.replaySettings s) items = .ok r := by
  obtain ⟨steps, hpass, rfl, rfl⟩ := compose_ofKinds_eq_ok_iff.mp h
  exact compose_replaySettings hpass rfl rfl (hpass.kept hseed) hname

/-! ## Again and again -/

theorem Pipeline.isKey_of_chosen (h : (ofKinds kinds).compose files seeds s items = .ok r) :
    ∀ p ∈ r.chosen.entries, Settings.IsKey p.1 := by
  obtain ⟨steps, hpass, -, rfl⟩ := compose_ofKinds_eq_ok_iff.mp h
  intro p hp
  obtain ⟨value, hvalue⟩ := Table.mem_keys_iff.mp (List.mem_map_of_mem hp)
  rcases Step.exists_of_get?_merged hvalue with hnone | ⟨step, hmem, hchosen⟩
  · cases hnone
  · exact StageKind.isKey_of_mem_options (hpass.mem_options_of_chosen hmem hchosen)

omit [Item α] in
theorem Composition.replaySettings_replaySettings (r : Composition α) (s : Settings) :
    r.replaySettings (r.replaySettings s) = r.replaySettings s := by
  apply Settings.ext_get?
  intro key
  rw [get?_replaySettings, get?_replaySettings, ← Option.or_assoc, Option.or_self]

/-- Composes the same items in one round after the other, each under the settings for the replay of
the one before. A round is given by the seeds that are generated in it. -/
def Pipeline.replays (p : Pipeline α) (files : Files) (items : List α) :
    List (Nat → Int64) → Settings → Except Failure (List (Composition α × Settings))
  | [], _ => .ok []
  | seeds :: rounds, s => do
    let r ← p.compose files seeds s items
    let later ← p.replays files items rounds (r.replaySettings s)
    return (r, r.replaySettings s) :: later

omit [Item α] in
theorem Pipeline.replays_eq_replicate {p : Pipeline α} (hs : r.replaySettings s = s)
    (h : ∀ seeds, p.compose files seeds s items = .ok r) (rounds : List (Nat → Int64)) :
    p.replays files items rounds s = .ok (List.replicate rounds.length (r, s)) := by
  induction rounds with
  | nil => rfl
  | cons seeds rest ih =>
    rw [replays, h seeds]
    show (p.replays files items rest (r.replaySettings s) >>= fun later => _) = _
    rw [hs, ih]
    rfl

/-- The settings for a replay are those with the chosen values as overrides. Under them the same is
composed, whatever seeds are generated, and its replay has the same settings: so it stays for any
number of rounds. -/
theorem Pipeline.replay_settles (h : (ofKinds kinds).compose files seeds s items = .ok r)
    (hseed : kinds.count .shuffle ≤ 1 ∨ s.get? Shuffle.Request.seedOption ≠ none ∨
      s.getFlag Shuffle.Request.option false ≠ .ok true)
    (hname : ∀ name, r.chosen.get? Source.nameOption = some name →
      Text.isBlankText name = true ∨ Text.trim name = name) :
    s.override (r.chosen.entries.map fun p => p.1 ++ "=" ++ p.2) = .ok (r.replaySettings s) ∧
    (∀ seeds', (ofKinds kinds).compose files seeds' (r.replaySettings s) items = .ok r) ∧
    r.replaySettings (r.replaySettings s) = r.replaySettings s ∧
    ∀ rounds, (ofKinds kinds).replays files items rounds (r.replaySettings s) =
      .ok (List.replicate rounds.length (r, r.replaySettings s)) := by
  have hagain : ∀ seeds', (ofKinds kinds).compose files seeds' (r.replaySettings s) items = .ok r :=
    fun _ => compose_replaySettings_of_kept h hseed hname
  have hsame := r.replaySettings_replaySettings s
  refine ⟨?_, hagain, hsame, replays_eq_replicate hsame hagain⟩
  exact Settings.override_eq_setAll s (isKey_of_chosen h)

/-! ## A seed in another spelling -/

/-- Of the seeds of two stages the later one is chosen. -/
theorem Pipeline.compose_shuffle_shuffle {request : Shuffle.Request} {first last : Int64}
    (hs : Shuffle.Request.ofSettings s = .ok request)
    (hfirst : request.seed? (seeds 0) = some first)
    (hlast : request.seed? (seeds 1) = some last) :
    (ofKinds [.shuffle, .shuffle]).compose files seeds s items =
      .ok ⟨Shuffle.permute last (Shuffle.permute first items),
        .ofList [(Shuffle.Request.seedOption, Text.Decimal.text last.toInt)]⟩ := by
  refine compose_ofKinds_eq_ok_iff.mpr ⟨[⟨.shuffle, _⟩, ⟨.shuffle, _⟩],
    .cons (Stage.applyShuffle_eq_ok_iff.mpr ⟨request, hs, .inr ⟨first, hfirst, rfl⟩⟩)
      (.cons (Stage.applyShuffle_eq_ok_iff.mpr ⟨request, hs, .inr ⟨last, hlast, rfl⟩⟩) .nil),
    rfl, ?_⟩
  rw [Step.merged, List.foldl_cons, List.foldl_cons, List.foldl_nil, Composition.followedBy,
    Composition.mk.injEq]
  refine ⟨rfl, Table.ext_get? fun key => ?_⟩
  by_cases h : Shuffle.Request.seedOption = key <;>
    simp [Composition.followedBy, Table.get?_insertAll_entries, Table.get?_singleton, h]

/-- Settings with blanks and a sign around the seed, and with zeros at its start. -/
def spelledSettings : Settings :=
  .ofList [("shuffle", " TRUE "), ("seed", " +007 ")]

/-- The suite that they compose from two items, which are shuffled twice. -/
def spelledSuite : Composition String :=
  ⟨Shuffle.permute 7 (Shuffle.permute 7 ["a", "b"]), .ofList [(Shuffle.Request.seedOption, "7")]⟩

theorem compose_spelledSettings :
    (Pipeline.ofKinds [.shuffle, .shuffle]).compose Files.empty (fun _ => 0) spelledSettings
      ["a", "b"] = .ok spelledSuite := by
  have hvalue : spelledSettings.get? Shuffle.Request.option = some " TRUE " := by decide +kernel
  have hflag : Settings.flag? " TRUE " = some true := by decide +kernel
  have hon : spelledSettings.getFlag Shuffle.Request.option false = .ok true := by
    simp only [Settings.getFlag, hvalue, hflag]
  have hgiven : spelledSettings.getLong? Shuffle.Request.seedOption = .ok (some 7) := rfl
  have hrequest : Shuffle.Request.ofSettings spelledSettings = .ok (.seeded 7) :=
    Shuffle.Request.ofSettings_eq_ok_iff.mpr ⟨true, some 7, hon, hgiven, rfl⟩
  have hseed : Text.Decimal.text (7 : Int64).toInt = "7" := by cbv
  rw [Pipeline.compose_shuffle_shuffle hrequest rfl rfl, hseed, spelledSuite]

/-- The seed is pinned as `7`, and so it stays. -/
theorem Pipeline.replay_settles_spelledSuite :
    spelledSettings.override ["seed=7"] = .ok (spelledSuite.replaySettings spelledSettings) ∧
    (ofKinds [.shuffle, .shuffle]).replays Files.empty ["a", "b"] [fun _ => 1, fun _ => 2]
        (spelledSuite.replaySettings spelledSettings) =
      .ok (List.replicate 2 (spelledSuite, spelledSuite.replaySettings spelledSettings)) := by
  have hseed : spelledSettings.get? Shuffle.Request.seedOption ≠ none := by decide +kernel
  have hname : spelledSuite.chosen.get? Source.nameOption = none := by decide +kernel
  have hpairs : spelledSuite.chosen.entries.map (fun p => p.1 ++ "=" ++ p.2) = ["seed=7"] := by
    decide +kernel
  obtain ⟨hoverride, -, -, hrounds⟩ := replay_settles compose_spelledSettings (.inr (.inl hseed))
    fun name h => by
      rw [hname] at h
      cases h
  rw [hpairs] at hoverride
  exact ⟨hoverride, hrounds [fun _ => 1, fun _ => 2]⟩

end SuitePlan
