import SuitePlan.Proofs.Pipeline.Conservation
import SuitePlan.Proofs.Replay.FixedPoints

/-!
# One seed for several stages

Without a profile, a seed is all that a pipeline may choose, and there is room for one only. Where
several stages have generated a seed, each with its own, the one of the last is pinned, and all
stages of a replay shuffle with it (`Pipeline.replay_perm`). So the items of a replay may be in
another order (`Pipeline.replay_twoShuffles_differs`).
-/

namespace SuitePlan

variable {α : Type} [Item α] {files : Files} {seed seed' generated last : Int64}
  {seeds seeds' : Nat → Int64} {s t : Settings} {items : List α} {kind : StageKind}
  {kinds : List StageKind} {d r : Composition α} {key value : String}

/-- What is chosen is a seed, and one that settings let a stage shuffle with. -/
structure Shuffle.SeedChosen (s : Settings) (key value : String) : Prop where
  key_eq : key = Request.seedOption
  used : ∃ request generated used, Request.ofSettings s = .ok request ∧
    request.seed? generated = some used ∧ value = Text.Decimal.text used.toInt

theorem Stage.seedChosen_of_apply (hprofile : s.get? Source.option = none)
    (h : (ofKind kind).apply ⟨files, seed⟩ s items = .ok d)
    (hchosen : d.chosen.get? key = some value) :
    Shuffle.SeedChosen s key value := by
  cases kind with
  | profile =>
    rcases applyProfile_eq_ok_iff.mp h with ⟨-, rfl⟩ | ⟨l, selected, hl, -, rfl⟩
    · cases hchosen
    · rw [Settings.lineup?_eq_none_iff.mpr hprofile] at hl
      cases hl
  | iterate =>
    obtain ⟨n, layout, -, rfl⟩ := applyIterate_eq_ok_iff.mp h
    cases hchosen
  | shuffle =>
    rcases applyShuffle_eq_ok_iff.mp h with ⟨request, hs, ⟨-, rfl⟩ | ⟨used, hused, rfl⟩⟩
    · cases hchosen
    · obtain ⟨rfl, rfl⟩ := Table.get?_singleton_eq_some_iff.mp hchosen
      exact ⟨rfl, request, seed, used, hs, hused, rfl⟩

theorem Pipeline.seedChosen_of_compose (hprofile : s.get? Source.option = none)
    (h : (ofKinds kinds).compose files seeds s items = .ok r)
    (hchosen : r.chosen.get? key = some value) : Shuffle.SeedChosen s key value := by
  obtain ⟨steps, hpass, -, rfl⟩ := compose_ofKinds_eq_ok_iff.mp h
  rcases Step.exists_of_get?_merged hchosen with hnone | ⟨step, hmem, hstep⟩
  · cases hnone
  · obtain ⟨seed, given, hmade⟩ := hpass.exists_apply hmem
    exact Stage.seedChosen_of_apply hprofile hmade hstep

theorem Pipeline.get?_chosen_eq_none (hprofile : s.get? Source.option = none)
    (h : (ofKinds kinds).compose files seeds s items = .ok r)
    (hkey : key ≠ Shuffle.Request.seedOption) : r.chosen.get? key = none := by
  refine Option.eq_none_iff_forall_ne_some.mpr fun value hvalue => ?_
  exact hkey (seedChosen_of_compose hprofile h hvalue).key_eq

/-! ## Shuffling with the pinned seed -/

omit [Item α] in
theorem Stage.applyShuffle_of_seeded {request : Shuffle.Request}
    (hs : Shuffle.Request.ofSettings s = .ok request) (hlast : request.seed? generated = some last)
    (ht : Shuffle.Request.ofSettings t = .ok (.seeded last)) :
    applyShuffle ⟨files, seed⟩ t items = applyShuffle ⟨files, generated⟩ s items := by
  rw [applyShuffle_eq_ok_iff.mpr ⟨.seeded last, ht, .inr ⟨last, rfl, rfl⟩⟩,
    applyShuffle_eq_ok_iff.mpr ⟨request, hs, .inr ⟨last, hlast, rfl⟩⟩]

/-- Where no stage needs a seed that is generated, it does not matter which one is. -/
theorem Pipeline.compose_seeds_congr
    (h : .shuffle ∈ kinds → Shuffle.Request.ofSettings s ≠ .ok .unseeded) :
    (ofKinds kinds).compose files seeds s items = (ofKinds kinds).compose files seeds' s items := by
  refine applyFrom_congr (fun stage hstage i given => ?_) _
  obtain ⟨kind, hkind, rfl⟩ := List.mem_map.mp hstage
  cases kind with
  | profile => rfl
  | iterate => rfl
  | shuffle =>
    show Stage.applyShuffle _ _ _ = Stage.applyShuffle _ _ _
    rw [Stage.applyShuffle, Stage.applyShuffle]
    rcases hs : Shuffle.Request.ofSettings s with e | request
    · rfl
    · cases request with
      | off => rfl
      | seeded seed => rfl
      | unseeded => exact absurd hs (h hkind)

/-- A replay composes what would be composed if all stages generated the pinned seed. -/
theorem Pipeline.compose_replaySettings_eq (hprofile : s.get? Source.option = none)
    (h : (ofKinds kinds).compose files seeds s items = .ok r)
    (hlast : r.chosen.get? Shuffle.Request.seedOption = some (Text.Decimal.text last.toInt)) :
    (ofKinds kinds).compose files seeds' (r.replaySettings s) items =
      (ofKinds kinds).compose files (fun _ => last) s items := by
  have hother : ∀ key, key ≠ Shuffle.Request.seedOption →
      (r.replaySettings s).get? key = s.get? key := by
    intro key hkey
    rw [Composition.get?_replaySettings, get?_chosen_eq_none hprofile h hkey, Option.none_or]
  have hpinned : (r.replaySettings s).get? Shuffle.Request.seedOption =
      some (Text.Decimal.text last.toInt) := by
    rw [Composition.get?_replaySettings, hlast, Option.some_or]
  refine applyFrom_congr (fun stage hstage i given => ?_) _
  obtain ⟨kind, -, rfl⟩ := List.mem_map.mp hstage
  cases kind with
  | profile =>
    show Stage.applyProfile _ _ _ = Stage.applyProfile _ _ _
    have hagree : Settings.AgreeOn StageKind.profile.options (r.replaySettings s) s := by
      intro key hkey
      exact hother key (ne_of_mem_of_not_mem hkey (by decide))
    rw [Stage.applyProfile, Stage.applyProfile, Stage.lineup?_congr hagree]
  | iterate =>
    exact Stage.apply_congr fun key hkey => hother key (ne_of_mem_of_not_mem hkey (by decide))
  | shuffle =>
    obtain ⟨request, generated, used, hs, hused, htext⟩ :=
      (seedChosen_of_compose hprofile h hlast).used
    obtain rfl : last = used := Int64.toInt_inj.mp (Text.Decimal.text_inj.mp htext)
    have ht := Shuffle.Request.ofSettings_pinned hs hused (hother _ (by decide)) hpinned
    have hrequest : request.seed? last = some last := by
      cases request with
      | off => cases hused
      | seeded given => exact hused
      | unseeded => rfl
    exact Stage.applyShuffle_of_seeded hs hrequest ht

/-! ## Any replay -/

theorem Pipeline.composes_of_seeds (hprofile : s.get? Source.option = none)
    (h : (ofKinds kinds).compose files seeds s items = .ok r) :
    ∃ again, (ofKinds kinds).compose files seeds' s items = .ok again := by
  have hnone : ∀ l, s.lineup? files = .ok (some l) → ∀ run ∈ l.runs, ∀ kind ∈ kinds,
      0 < kind.copies files s run.scenario := by
    intro l hl
    rw [Settings.lineup?_eq_none_iff.mpr hprofile] at hl
    cases hl
  exact (composes_iff_forall_works hnone).mpr ((composes_iff_forall_works hnone).mp ⟨r, h⟩)

theorem Pipeline.perm_of_compose {again : Composition α}
    (h : (ofKinds kinds).compose files seeds s items = .ok r)
    (hagain : (ofKinds kinds).compose files seeds' s items = .ok again) :
    again.items.Perm r.items := by
  classical
  refine List.perm_iff_count.mpr fun item => ?_
  rw [count_composed hagain, count_composed h]

/-- Where a stage generates a seed, a seed is pinned. -/
theorem Pipeline.exists_seed_of_unseeded
    (h : (ofKinds kinds).compose files seeds s items = .ok r) (hkind : .shuffle ∈ kinds)
    (hs : Shuffle.Request.ofSettings s = .ok .unseeded) :
    r.chosen.get? Shuffle.Request.seedOption ≠ none := by
  obtain ⟨steps, hpass, rfl, rfl⟩ := compose_ofKinds_eq_ok_iff.mp h
  obtain ⟨step, hmem, hshuffle⟩ := List.mem_map.mp hkind
  obtain ⟨seed, given, hmade⟩ := hpass.exists_apply hmem
  rw [hshuffle] at hmade
  obtain ⟨request, hs', hmade⟩ := Stage.applyShuffle_eq_ok_iff.mp hmade
  rw [hs, Except.ok.injEq] at hs'
  subst hs'
  intro hnone
  have hstep := (Step.get?_merged_eq_none_iff.mp hnone).2 step hmem
  rcases hmade with ⟨hoff, -⟩ | ⟨used, -, hmade⟩
  · cases hoff
  · rw [hmade, Table.get?_singleton, if_pos rfl] at hstep
    cases hstep

/-- Whatever seeds are generated, a replay without a profile composes one and the same: the items in
some order, namely the one that they would have if each stage had generated the seed that is pinned.
Where at most one stage generates a seed, this is the order that they had. -/
theorem Pipeline.replay_perm (hprofile : s.get? Source.option = none)
    (h : (ofKinds kinds).compose files seeds s items = .ok r) :
    ∃ again,
      (∀ seeds', (ofKinds kinds).compose files seeds' (r.replaySettings s) items = .ok again) ∧
      again.items.Perm r.items ∧
      (∀ last : Int64,
        r.chosen.get? Shuffle.Request.seedOption = some (Text.Decimal.text last.toInt) →
          (ofKinds kinds).compose files (fun _ => last) s items = .ok again) ∧
      (kinds.count .shuffle ≤ 1 ∨ s.get? Shuffle.Request.seedOption ≠ none ∨
        s.getFlag Shuffle.Request.option false ≠ .ok true → again = r) := by
  by_cases hseed : kinds.count .shuffle ≤ 1 ∨ s.get? Shuffle.Request.seedOption ≠ none ∨
      s.getFlag Shuffle.Request.option false ≠ .ok true
  · have hagain : ∀ seeds',
        (ofKinds kinds).compose files seeds' (r.replaySettings s) items = .ok r := by
      refine fun _ => compose_replaySettings_of_kept h hseed fun name hname => ?_
      rw [get?_chosen_eq_none hprofile h (by decide)] at hname
      cases hname
    refine ⟨r, hagain, .refl _, fun last hlast => ?_, fun _ => rfl⟩
    rw [← compose_replaySettings_eq hprofile h hlast, hagain seeds]
  · obtain ⟨hmany, hunset, hon⟩ : 1 < kinds.count .shuffle ∧
        s.get? Shuffle.Request.seedOption = none ∧
        s.getFlag Shuffle.Request.option false = .ok true := by
      simpa only [not_or, not_le, not_not] using hseed
    have hs := Shuffle.Request.ofSettings_eq_unseeded_iff.mpr ⟨hon, hunset⟩
    have hkind : .shuffle ∈ kinds := List.count_pos_iff.mp (by omega)
    obtain ⟨value, hvalue⟩ := Option.ne_none_iff_exists'.mp (exists_seed_of_unseeded h hkind hs)
    obtain ⟨request, generated, last, -, -, rfl⟩ := (seedChosen_of_compose hprofile h hvalue).used
    obtain ⟨again, hagain⟩ : ∃ again, (ofKinds kinds).compose files (fun _ => last) s items =
        .ok again := composes_of_seeds hprofile h
    have hreplay : ∀ seeds',
        (ofKinds kinds).compose files seeds' (r.replaySettings s) items = .ok again := by
      intro seeds'
      rw [compose_replaySettings_eq hprofile h hvalue, hagain]
    refine ⟨again, hreplay, perm_of_compose h hagain, fun last' hlast' => ?_, fun hfew => ?_⟩
    · rw [← compose_replaySettings_eq hprofile h hlast', hreplay seeds]
    · exact absurd hfew hseed

/-! ## Two seeds

The first stage keeps the order of two items, the second one reverses it. With the second seed for
both stages they are reversed twice. -/

/-- Settings that ask for shuffling and give no seed. -/
def unseededSettings : Settings :=
  .ofList [("shuffle", "true")]

/-- The seed 1 for the first stage, and 2 for every other one. -/
def twoSeeds (i : Nat) : Int64 :=
  if i = 0 then 1 else 2

/-- The suite that these settings and seeds compose from `a` and `b`. -/
def reversedSuite : Composition String :=
  ⟨["b", "a"], .ofList [(Shuffle.Request.seedOption, Text.Decimal.text (2 : Int64).toInt)]⟩

theorem ofSettings_unseededSettings :
    Shuffle.Request.ofSettings unseededSettings = .ok .unseeded := by
  cbv

theorem permute_two : Shuffle.permute 2 ["a", "b"] = ["b", "a"] := by
  decide +kernel

theorem compose_unseededSettings :
    (Pipeline.ofKinds [.shuffle, .shuffle]).compose Files.empty twoSeeds unseededSettings
      ["a", "b"] = .ok reversedSuite := by
  have hone : Shuffle.permute 1 ["a", "b"] = ["a", "b"] := by decide +kernel
  have hfirst : Shuffle.Request.unseeded.seed? (twoSeeds 0) = some 1 := rfl
  have hlast : Shuffle.Request.unseeded.seed? (twoSeeds 1) = some 2 := rfl
  rw [Pipeline.compose_shuffle_shuffle ofSettings_unseededSettings hfirst hlast, hone, permute_two,
    reversedSuite]

theorem get?_chosen_reversedSuite :
    reversedSuite.chosen.get? Shuffle.Request.seedOption =
      some (Text.Decimal.text (2 : Int64).toInt) := by
  rw [reversedSuite, Table.get?_singleton, if_pos rfl]

theorem Pipeline.replay_twoShuffles_differs :
    unseededSettings.get? Source.option = none ∧
    (ofKinds [.shuffle, .shuffle]).compose Files.empty twoSeeds unseededSettings ["a", "b"] =
      .ok ⟨["b", "a"], reversedSuite.chosen⟩ ∧
    ∀ seeds', (ofKinds [.shuffle, .shuffle]).compose Files.empty seeds'
        (reversedSuite.replaySettings unseededSettings) ["a", "b"] =
      .ok ⟨["a", "b"], reversedSuite.chosen⟩ := by
  have hprofile : unseededSettings.get? Source.option = none := by decide +kernel
  refine ⟨hprofile, compose_unseededSettings, fun seeds' => ?_⟩
  have hback : Shuffle.permute 2 ["b", "a"] = ["a", "b"] := by decide +kernel
  have hseed : Shuffle.Request.unseeded.seed? 2 = some 2 := rfl
  rw [compose_replaySettings_eq hprofile compose_unseededSettings get?_chosen_reversedSuite,
    compose_shuffle_shuffle ofSettings_unseededSettings hseed hseed, permute_two, hback,
    reversedSuite]

theorem Pipeline.replay_perm_reversedSuite :
    ∃ again,
      (∀ seeds', (ofKinds [.shuffle, .shuffle]).compose Files.empty seeds'
        (reversedSuite.replaySettings unseededSettings) ["a", "b"] = .ok again) ∧
      again.items.Perm ["b", "a"] ∧
      (ofKinds [.shuffle, .shuffle]).compose Files.empty (fun _ => 2) unseededSettings ["a", "b"] =
        .ok again := by
  have hprofile : unseededSettings.get? Source.option = none := by decide +kernel
  obtain ⟨again, hreplay, hperm, hlast, -⟩ := replay_perm hprofile compose_unseededSettings
  exact ⟨again, hreplay, hperm, hlast 2 get?_chosen_reversedSuite⟩

end SuitePlan
