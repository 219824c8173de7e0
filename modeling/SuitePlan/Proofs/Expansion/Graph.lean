import Mathlib.Logic.Relation
import SuitePlan.Profile.Expansion

/-!
# The graph of inclusions

The profiles of a catalog are the nodes of a graph and their inclusions its edges. Nothing about the
expansion is said here: what is reached from a profile, and whether a cycle is reached, are read off
the entries alone.

`acyclicFrom_of_acc` says that a profile from which inclusions always come to an end reaches no
cycle. The converse needs that there are finitely many profiles; it follows from the bound on the
length of inclusion paths.
-/

namespace SuitePlan

open Relation

/-- The name that an entry gives, of a scenario or of a profile. -/
def Entry.name : Entry → String
  | .scenario s => s.name
  | .inclusion profile => profile

namespace Catalog

/-- The entries of a profile, none if the catalog does not define it. -/
def entriesOf (c : Catalog) (name : String) : List Entry :=
  (c.profiles.get? name).getD []

/-- The catalog has a profile of that name. -/
def Defines (c : Catalog) (name : String) : Prop :=
  name ∈ c.profiles.keys

/-- An inclusion of `q` is among the entries of `p`. -/
def Includes (c : Catalog) (p q : String) : Prop :=
  Entry.inclusion q ∈ c.entriesOf p

/-- Inclusions lead from `p` to `q`, in any number of steps. -/
def Reaches (c : Catalog) : String → String → Prop :=
  ReflTransGen c.Includes

/-- No cycle of inclusions is reached from a profile. -/
def AcyclicFrom (c : Catalog) (name : String) : Prop :=
  ∀ p, c.Reaches name p → ¬TransGen c.Includes p p

/-- No entry of the profile has a blank name. -/
def NamesEntries (c : Catalog) (name : String) : Prop :=
  ∀ entry ∈ c.entriesOf name, Text.trim entry.name ≠ ""

variable {c : Catalog} {name p q : String} {entries : List Entry}

theorem entriesOf_eq (h : c.profiles.get? name = some entries) : c.entriesOf name = entries := by
  rw [entriesOf, h, Option.getD_some]

theorem defines_of_get? (h : c.profiles.get? name = some entries) : c.Defines name :=
  Table.mem_keys_of_get? h

theorem defines_iff : c.Defines name ↔ ∃ entries, c.profiles.get? name = some entries :=
  Table.mem_keys_iff

theorem get?_eq_none (h : ¬c.Defines name) : c.profiles.get? name = none := by
  cases hget : c.profiles.get? name with
  | none => rfl
  | some entries => exact absurd (defines_of_get? hget) h

theorem entriesOf_eq_nil (h : ¬c.Defines name) : c.entriesOf name = [] := by
  rw [entriesOf, get?_eq_none h, Option.getD_none]

theorem includes_iff (h : c.profiles.get? p = some entries) :
    c.Includes p q ↔ Entry.inclusion q ∈ entries := by
  rw [Includes, entriesOf_eq h]

theorem not_blank_iff {s : String} : Text.isBlankText s = false ↔ Text.trim s ≠ "" := by
  rw [Ne, Text.trim_eq_empty_iff, Bool.not_eq_true]

theorem Reaches.refl (c : Catalog) (p : String) : c.Reaches p p :=
  ReflTransGen.refl

theorem Reaches.of_includes (h : c.Includes p q) {r : String} (hr : c.Reaches q r) :
    c.Reaches p r :=
  ReflTransGen.head h hr

theorem AcyclicFrom.of_includes (h : c.AcyclicFrom p) (hi : c.Includes p q) : c.AcyclicFrom q :=
  fun r hr => h r (hr.of_includes hi)

/-- A profile that reaches no cycle is not reached again from what it includes. -/
theorem AcyclicFrom.not_reaches (h : c.AcyclicFrom p) (hi : c.Includes p q) : ¬c.Reaches q p :=
  fun hr => h p (Reaches.refl c p) (TransGen.head' hi hr)

theorem acc_of_reaches (h : Acc (fun q p => c.Includes p q) p) (hr : c.Reaches p q) :
    Acc (fun q p => c.Includes p q) q := by
  induction hr with
  | refl => exact h
  | tail _ hstep ih => exact ih.inv hstep

theorem acyclicFrom_of_acc (h : Acc (fun q p => c.Includes p q) p) : c.AcyclicFrom p := by
  intro r hr
  have hacc := acc_of_reaches h hr
  clear hr
  induction hacc with
  | intro r _ ih =>
    intro hcycle
    obtain ⟨q, hstep, hback⟩ := TransGen.head'_iff.mp hcycle
    exact ih q hstep (TransGen.tail' hback hstep)

end Catalog

end SuitePlan
