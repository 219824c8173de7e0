import SuitePlan.CommandLine.Invocation

/-!
# Words that ask for a composition

The words `composeWords items overrides` name the items with an attached value and each override in
a word of its own. Read, they ask for just that (`ofWords_composeWords`), as long as no override
starts with a dash, which would make it look like an option.
-/

namespace SuitePlan.CommandLine

variable {word items : String} {overrides : List String} {g : Given}

/-! ## Single words -/

namespace Argument

theorem ofWord_eq_plain (h : word.toList.head? ≠ some '-') : ofWord word = .plain word := by
  unfold ofWord
  split <;> simp_all

theorem value?_eq_some (h : word.toList.head? ≠ some '-') : value? word = some word := by
  rw [value?, ofWord_eq_plain h]

theorem ofWord_attached (name value : String) (hname : '=' ∉ name.toList) :
    ofWord ("--" ++ name ++ "=" ++ value) = .long name (some value) := by
  have hlist : ("--" ++ name ++ "=" ++ value).toList =
      '-' :: '-' :: (name.toList ++ '=' :: value.toList) := by
    simp
  have hcut : Text.cut? '=' (name.toList ++ '=' :: value.toList) =
      some (name.toList, value.toList) :=
    Text.cut?_eq_some_iff.mpr ⟨rfl, hname⟩
  have hlong : ofWord ("--" ++ name ++ "=" ++ value) =
      ofLong (name.toList ++ '=' :: value.toList) := by
    unfold ofWord
    rw [hlist]
    cases name.toList <;> rfl
  rw [hlong, ofLong, hcut]
  simp

end Argument

/-! ## Options that were given -/

namespace Given

theorem all_append (xs ys : List (String × String)) (name : String) :
    all ⟨xs ++ ys⟩ name = all ⟨xs⟩ name ++ all ⟨ys⟩ name := by
  simp [all]

theorem all_map (name other : String) (values : List String) :
    all ⟨values.map fun value => (name, value)⟩ other = if name = other then values else [] := by
  by_cases h : name = other <;> simp [all, List.filter_map, Function.comp_def, h]

end Given

/-- The words that ask `compose` for items under overrides. -/
def composeWords (items : String) (overrides : List String) : List String :=
  ["compose", "--items=" ++ items] ++ overrides.flatMap fun pair => ["--set", pair]

theorem readWords_overrides (h : ∀ pair ∈ overrides, pair.toList.head? ≠ some '-') :
    readWords composeOptions (overrides.flatMap fun pair => ["--set", pair]) g =
      .given ⟨g.values ++ overrides.map fun pair => ("set", pair)⟩ := by
  induction overrides generalizing g with
  | nil => simp [readWords]
  | cons pair rest ih =>
    rw [List.forall_mem_cons] at h
    have hset : Argument.ofWord "--set" = .long "set" none := by decide
    have hspec : composeOptions.find? (fun spec => spec.name == "set") =
        some ⟨"set", .text, true⟩ := by
      decide
    have hadd : g.add? ⟨"set", .text, true⟩ pair = some ⟨g.values ++ [("set", pair)]⟩ := rfl
    rw [List.flatMap_cons, List.cons_append, List.cons_append, List.nil_append, readWords, hset]
    simp only [hspec, reduceCtorEq, if_false, Argument.value?_eq_some h.1, Option.bind_some, hadd]
    rw [ih h.2, List.map_cons, List.append_assoc, List.singleton_append]

theorem ofWords_composeWords (hitems : items ≠ "")
    (h : ∀ pair ∈ overrides, pair.toList.head? ≠ some '-') :
    Invocation.ofWords (composeWords items overrides) = .compose { items, overrides } := by
  have hcommand : Argument.ofWord "compose" = .plain "compose" := by decide
  have hword : Argument.ofWord ("--items=" ++ items) = .long "items" (some items) :=
    Argument.ofWord_attached "items" items (by decide)
  have hspec : composeOptions.find? (fun spec => spec.name == "items") =
      some ⟨"items", .path, false⟩ := by
    decide
  have hadd : Given.add? ⟨[]⟩ ⟨"items", .path, false⟩ items = some ⟨[("items", items)]⟩ := by
    simp [Given.add?, Given.has, Given.value?, Given.all, hitems]
  have hread : readWords composeOptions
      (("--items=" ++ items) :: overrides.flatMap fun pair => ["--set", pair]) ⟨[]⟩ =
        .given ⟨("items", items) :: overrides.map fun pair => ("set", pair)⟩ := by
    rw [readWords, hword]
    simp only [hspec, reduceCtorEq, if_false, hadd]
    exact readWords_overrides h
  have hall : ∀ name, Given.all
      ⟨("items", items) :: overrides.map fun pair => ("set", pair)⟩ name =
        (if "items" = name then [items] else []) ++ if "set" = name then overrides else [] := by
    intro name
    rw [← List.singleton_append, Given.all_append, Given.all_map]
    exact congrArg (· ++ _) (Given.all_map "items" name [items])
  have hgiven : ComposeRequest.ofGiven?
      ⟨("items", items) :: overrides.map fun pair => ("set", pair)⟩ =
        some { items, overrides } := by
    simp [ComposeRequest.ofGiven?, Given.has, Given.value?, hall]
  rw [composeWords, List.cons_append, List.singleton_append, Invocation.ofWords, hcommand]
  simp only [if_true, hread, Invocation.ofReading, hgiven, Option.map_some, Option.getD_some]

end SuitePlan.CommandLine
