/-!
# Tables

A table gives each of finitely many names a value. Its entries are kept in ascending order of the
names, which is the order of their UTF-8 bytes, and each name occurs once, so that a table is
determined by its look-ups (`ext_get?`). `get?_insert` and `get?_ofList` say what the two ways to
fill a table do to the look-ups.
-/

namespace SuitePlan

/-- A finite map from names to values, listed in ascending order of the names. -/
structure Table (α : Type u) where
  entries : List (String × α)
  ascending : entries.Pairwise fun a b => a.1 < b.1
  deriving DecidableEq

namespace Table

variable {α : Type u} {β : Type v}

/-- The table without entries. -/
def empty : Table α := ⟨[], .nil⟩

/-- The table to start from is the empty one. -/
instance : Inhabited (Table α) := ⟨empty⟩

/-- The value of the first entry named `key`. -/
def lookup (key : String) : List (String × α) → Option α
  | [] => none
  | (name, value) :: rest => if name = key then some value else lookup key rest

/-- The value of `key`, if it has one. -/
def get? (t : Table α) (key : String) : Option α :=
  lookup key t.entries

/-- Whether `key` has a value. -/
def contains (t : Table α) (key : String) : Bool :=
  (t.get? key).isSome

/-- The names that have a value, in ascending order. -/
def keys (t : Table α) : List String :=
  t.entries.map Prod.fst

/-- How many names have a value. -/
def size (t : Table α) : Nat :=
  t.entries.length

/-- Puts `key` at its place among ascending entries, instead of the entry of that name if any. -/
def insertEntry (key : String) (value : α) : List (String × α) → List (String × α)
  | [] => [(key, value)]
  | (name, old) :: rest =>
    if key < name then (key, value) :: (name, old) :: rest
    else if key = name then (key, value) :: rest
    else (name, old) :: insertEntry key value rest

theorem mem_insertEntry {key : String} {value : α} {e : String × α} {entries : List (String × α)}
    (h : e ∈ insertEntry key value entries) : e = (key, value) ∨ e ∈ entries := by
  induction entries with
  | nil => simpa [insertEntry] using h
  | cons head rest ih =>
    obtain ⟨name, old⟩ := head
    unfold insertEntry at h
    split at h
    · simpa using h
    · split at h
      · rcases List.mem_cons.mp h with h | h
        · exact .inl h
        · exact .inr (List.mem_cons_of_mem _ h)
      · rcases List.mem_cons.mp h with h | h
        · exact .inr (by simp [h])
        · exact (ih h).imp id (List.mem_cons_of_mem _)

/-- Names that are neither below nor equal are above. -/
theorem lt_of_not_lt_of_ne {a b : String} (h : ¬a < b) (hne : a ≠ b) : b < a := by
  apply Classical.byContradiction
  intro h'
  exact hne (String.le_antisymm (String.not_lt.mp h') (String.not_lt.mp h))

theorem ascending_insertEntry (key : String) (value : α) {entries : List (String × α)}
    (h : entries.Pairwise fun a b => a.1 < b.1) :
    (insertEntry key value entries).Pairwise fun a b => a.1 < b.1 := by
  induction entries with
  | nil => simp [insertEntry]
  | cons head rest ih =>
    obtain ⟨name, old⟩ := head
    have hr : ∀ e ∈ rest, name < e.1 := fun e he => List.rel_of_pairwise_cons h he
    have ht := List.Pairwise.of_cons h
    unfold insertEntry
    split
    · rename_i hlt
      refine .cons ?_ h
      intro e he
      rcases List.mem_cons.mp he with rfl | he
      · exact hlt
      · exact String.lt_trans hlt (hr e he)
    · split
      · rename_i heq
        subst heq
        exact .cons (fun e he => hr e he) ht
      · rename_i hlt hne
        refine .cons ?_ (ih ht)
        intro e he
        rcases mem_insertEntry he with rfl | he
        · exact lt_of_not_lt_of_ne hlt hne
        · exact hr e he

/-- The table with `key` set to `value`. -/
def insert (t : Table α) (key : String) (value : α) : Table α :=
  ⟨insertEntry key value t.entries, ascending_insertEntry key value t.ascending⟩

/-- The table with all `pairs` inserted in their order, so that the last value of a name stays. -/
def insertAll (t : Table α) (pairs : List (String × α)) : Table α :=
  pairs.foldl (fun t p => t.insert p.1 p.2) t

/-- The table of the given pairs; of several pairs with one name the last one counts. -/
def ofList (pairs : List (String × α)) : Table α :=
  empty.insertAll pairs

/-- The table with every value replaced by its image under `f`. -/
def map (f : α → β) (t : Table α) : Table β :=
  ⟨t.entries.map fun e => (e.1, f e.2), by
    rw [List.pairwise_map]; exact t.ascending.imp fun h => h⟩

/-! ## Look-ups -/

@[simp] theorem get?_empty (key : String) : (empty : Table α).get? key = none := rfl

theorem mem_map_fst_of_lookup {key : String} {value : α} {entries : List (String × α)}
    (h : lookup key entries = some value) : key ∈ entries.map Prod.fst := by
  induction entries with
  | nil => simp [lookup] at h
  | cons head rest ih =>
    by_cases hk : head.1 = key
    · simp [hk]
    · simp only [lookup, hk, if_false] at h
      exact List.mem_cons_of_mem _ (ih h)

/-- A name that has a value is among the names. -/
theorem mem_keys_of_get? {t : Table α} {key : String} {value : α} (h : t.get? key = some value) :
    key ∈ t.keys :=
  mem_map_fst_of_lookup h

theorem lookup_of_mem_map_fst {key : String} {entries : List (String × α)}
    (h : key ∈ entries.map Prod.fst) : ∃ value, lookup key entries = some value := by
  induction entries with
  | nil => simp at h
  | cons head rest ih =>
    by_cases hk : head.1 = key
    · exact ⟨head.2, by simp [lookup, hk]⟩
    · obtain ⟨value, hv⟩ := ih (by simpa [Ne.symm hk] using h)
      exact ⟨value, by simpa [lookup, hk] using hv⟩

/-- Exactly the names that have a value are among the names. -/
theorem mem_keys_iff {t : Table α} {key : String} :
    key ∈ t.keys ↔ ∃ value, t.get? key = some value :=
  ⟨lookup_of_mem_map_fst, fun ⟨_, h⟩ => mem_keys_of_get? h⟩

theorem lookup_eq_none_iff {key : String} {entries : List (String × α)} :
    lookup key entries = none ↔ key ∉ entries.map Prod.fst := by
  constructor
  · intro h hmem
    obtain ⟨value, hv⟩ := lookup_of_mem_map_fst hmem
    rw [h] at hv
    cases hv
  · intro h
    cases hl : lookup key entries with
    | none => rfl
    | some value => exact absurd (mem_map_fst_of_lookup hl) h

/-- Where each name occurs once, the entry that is found is the only one there is. -/
theorem lookup_eq_some_iff {key : String} {value : α} {entries : List (String × α)}
    (h : (entries.map Prod.fst).Nodup) :
    lookup key entries = some value ↔ (key, value) ∈ entries := by
  induction entries with
  | nil => simp [lookup]
  | cons head rest ih =>
    obtain ⟨name, old⟩ := head
    rw [List.map_cons, List.nodup_cons] at h
    by_cases hk : name = key
    · subst hk
      have hrest : (name, value) ∉ rest := fun hmem => h.1 (List.mem_map.mpr ⟨_, hmem, rfl⟩)
      rw [lookup, if_pos rfl, Option.some.injEq, List.mem_cons, or_iff_left hrest, Prod.mk.injEq]
      simp [eq_comm]
    · rw [lookup, if_neg hk, ih h.2, List.mem_cons, Prod.mk.injEq]
      simp [Ne.symm hk]

theorem lookup_insertEntry (key other : String) (value : α) (entries : List (String × α)) :
    lookup other (insertEntry key value entries) =
      if key = other then some value else lookup other entries := by
  induction entries with
  | nil => simp [insertEntry, lookup]
  | cons head rest ih =>
    obtain ⟨name, old⟩ := head
    unfold insertEntry
    split
    · simp [lookup]
    · split
      · rename_i heq; subst heq; by_cases h : key = other <;> simp [lookup, h]
      · rename_i hne
        by_cases h : name = other
        · subst h; simp [lookup, hne]
        · simp [lookup, h, ih]

/-- A look-up in an extended table finds the inserted value under its name and nothing else new. -/
@[simp] theorem get?_insert (t : Table α) (key other : String) (value : α) :
    (t.insert key value).get? other = if key = other then some value else t.get? other :=
  lookup_insertEntry key other value t.entries

@[simp] theorem insertAll_nil (t : Table α) : t.insertAll [] = t := rfl

@[simp] theorem insertAll_cons (t : Table α) (p : String × α) (pairs : List (String × α)) :
    t.insertAll (p :: pairs) = (t.insert p.1 p.2).insertAll pairs := rfl

/-- Later entries are found only where no earlier one has the name. -/
theorem lookup_append (key : String) (ps qs : List (String × α)) :
    lookup key (ps ++ qs) = (lookup key ps).or (lookup key qs) := by
  induction ps with
  | nil => rfl
  | cons p rest ih => by_cases hp : p.1 = key <;> simp [lookup, hp, ih]

theorem lookup_concat (key : String) (entries : List (String × α)) (e : String × α) :
    lookup key (entries ++ [e]) =
      (lookup key entries).or (if e.1 = key then some e.2 else none) :=
  lookup_append key entries [e]

/-- Of several inserted pairs with one name the last one counts. -/
theorem get?_insertAll (t : Table α) (pairs : List (String × α)) (key : String) :
    (t.insertAll pairs).get? key = (lookup key pairs.reverse).or (t.get? key) := by
  induction pairs generalizing t with
  | nil => simp [lookup]
  | cons p pairs ih =>
    rw [insertAll_cons, ih, get?_insert, List.reverse_cons]
    rw [lookup_concat]
    cases lookup key pairs.reverse <;> by_cases h : p.1 = key <;> simp [h]

theorem get?_ofList (pairs : List (String × α)) (key : String) :
    (ofList pairs).get? key = lookup key pairs.reverse := by
  simp [ofList, get?_insertAll]

theorem get?_singleton (name : String) (value : α) (key : String) :
    (ofList [(name, value)]).get? key = if name = key then some value else none := by
  rw [get?_ofList]
  rfl

theorem get?_singleton_eq_some_iff {name key : String} {value other : α} :
    (ofList [(name, value)]).get? key = some other ↔ name = key ∧ value = other := by
  rw [get?_singleton]
  by_cases h : name = key <;> simp [h]

/-! ## Last values -/

/-- Of the values that pairs give a name, this is the last one. -/
def GivesLast (pairs : List (String × α)) (key : String) (value : α) : Prop :=
  ∃ before after, pairs = before ++ (key, value) :: after ∧ key ∉ after.map Prod.fst

theorem lookup_reverse_eq_some_iff {pairs : List (String × α)} {key : String} {value : α} :
    lookup key pairs.reverse = some value ↔ GivesLast pairs key value := by
  constructor
  · intro h
    induction pairs with
    | nil => cases h
    | cons p rest ih =>
      rw [List.reverse_cons, lookup_concat, Option.or_eq_some_iff] at h
      rcases h with h | ⟨hnone, h⟩
      · obtain ⟨before, after, rfl, hafter⟩ := ih h
        exact ⟨p :: before, after, rfl, hafter⟩
      · rw [lookup_eq_none_iff, List.map_reverse, List.mem_reverse] at hnone
        by_cases hp : p.1 = key
        · rw [if_pos hp, Option.some.injEq] at h
          subst hp h
          exact ⟨[], rest, rfl, hnone⟩
        · rw [if_neg hp] at h
          cases h
  · intro h
    obtain ⟨before, after, rfl, hafter⟩ := h
    have hnone : lookup key after.reverse = none := by
      rwa [lookup_eq_none_iff, List.map_reverse, List.mem_reverse]
    rw [List.reverse_append, List.reverse_cons, List.append_assoc, lookup_append, hnone,
      Option.none_or, List.singleton_append, lookup, if_pos rfl]

theorem get?_ofList_eq_some_iff {pairs : List (String × α)} {key : String} {value : α} :
    (ofList pairs).get? key = some value ↔ GivesLast pairs key value := by
  rw [get?_ofList, lookup_reverse_eq_some_iff]

/-- A name that is given a value is given one last. -/
theorem exists_givesLast_iff {pairs : List (String × α)} {key : String} :
    (∃ value, GivesLast pairs key value) ↔ key ∈ pairs.map Prod.fst := by
  simp only [← lookup_reverse_eq_some_iff]
  rw [← List.mem_reverse, ← List.map_reverse]
  exact ⟨fun ⟨_, h⟩ => mem_map_fst_of_lookup h, lookup_of_mem_map_fst⟩

theorem get?_insertAll_of_givesLast {t : Table α} {pairs : List (String × α)} {key : String}
    {value : α} (h : GivesLast pairs key value) : (t.insertAll pairs).get? key = some value := by
  rw [get?_insertAll, lookup_reverse_eq_some_iff.mpr h, Option.some_or]

theorem get?_insertAll_of_notMem {t : Table α} {pairs : List (String × α)} {key : String}
    (h : key ∉ pairs.map Prod.fst) : (t.insertAll pairs).get? key = t.get? key := by
  have hnone : lookup key pairs.reverse = none := by
    rwa [lookup_eq_none_iff, List.map_reverse, List.mem_reverse]
  rw [get?_insertAll, hnone, Option.none_or]

/-! ## Entries -/

theorem nodup_keys (t : Table α) : t.keys.Nodup := by
  rw [keys, List.nodup_iff_pairwise_ne, List.pairwise_map]
  refine t.ascending.imp fun hlt heq => ?_
  rw [heq] at hlt
  exact String.lt_irrefl _ hlt

theorem mem_entries_iff {t : Table α} {key : String} {value : α} :
    (key, value) ∈ t.entries ↔ t.get? key = some value :=
  (lookup_eq_some_iff t.nodup_keys).symm

/-- The first entry of a kind is the one with the least name. -/
theorem first_iff_least {t : Table α} {P : String × α → Prop} {e : String × α} :
    (∃ before after, t.entries = before ++ e :: after ∧ (∀ m ∈ before, ¬P m) ∧ P e) ↔
      e ∈ t.entries ∧ P e ∧ ∀ m ∈ t.entries, P m → e.1 ≤ m.1 := by
  constructor
  · intro h
    obtain ⟨before, after, hsplit, hbefore, he⟩ := h
    refine ⟨hsplit ▸ List.mem_append_right _ List.mem_cons_self, he, fun m hm hPm => ?_⟩
    have hascending := t.ascending
    rw [hsplit] at hm hascending
    rcases List.mem_append.mp hm with hm | hm
    · exact absurd hPm (hbefore m hm)
    · rcases List.mem_cons.mp hm with rfl | hm
      · exact String.le_refl _
      · have hlt : e.1 < m.1 :=
          List.rel_of_pairwise_cons (List.pairwise_append.mp hascending).2.1 hm
        exact String.not_lt.mp (String.lt_asymm hlt)
  · intro h
    obtain ⟨hmem, he, hleast⟩ := h
    obtain ⟨before, after, hsplit⟩ := List.append_of_mem hmem
    refine ⟨before, after, hsplit, fun m hm hPm => ?_, he⟩
    have hascending := t.ascending
    rw [hsplit] at hascending
    have hlt : m.1 < e.1 := (List.pairwise_append.mp hascending).2.2 m hm e List.mem_cons_self
    exact String.not_lt.mpr (hleast m (hsplit ▸ List.mem_append_left _ hm) hPm) hlt

/-! ## Extensionality -/

theorem lookup_eq_none {key : String} {entries : List (String × α)}
    (h : ∀ e ∈ entries, key < e.1) : lookup key entries = none := by
  induction entries with
  | nil => rfl
  | cons head rest ih =>
    have hne : head.1 ≠ key := by
      intro heq
      have := h head (by simp)
      rw [heq] at this
      exact String.lt_irrefl _ this
    simp [lookup, hne, ih fun e he => h e (by simp [he])]

private theorem entries_ext {xs ys : List (String × α)}
    (hx : xs.Pairwise fun a b => a.1 < b.1) (hy : ys.Pairwise fun a b => a.1 < b.1)
    (h : ∀ key, lookup key xs = lookup key ys) : xs = ys := by
  induction xs generalizing ys with
  | nil =>
    cases ys with
    | nil => rfl
    | cons y ys => simpa [lookup] using h y.1
  | cons x xs ih =>
    cases ys with
    | nil => simpa [lookup] using h x.1
    | cons y ys =>
      obtain ⟨xk, xv⟩ := x
      obtain ⟨yk, yv⟩ := y
      have hxr : ∀ e ∈ xs, xk < e.1 := fun e he => List.rel_of_pairwise_cons hx he
      have hyr : ∀ e ∈ ys, yk < e.1 := fun e he => List.rel_of_pairwise_cons hy he
      have hkey : xk = yk := by
        apply Classical.byContradiction
        intro hne
        by_cases hlt : xk < yk
        · have hn : lookup xk ((yk, yv) :: ys) = none := lookup_eq_none (by
            intro e he
            rcases List.mem_cons.mp he with rfl | he
            · exact hlt
            · exact String.lt_trans hlt (hyr e he))
          have := h xk
          rw [hn] at this
          simp [lookup] at this
        · have hlt' := lt_of_not_lt_of_ne hlt hne
          have hn : lookup yk ((xk, xv) :: xs) = none := lookup_eq_none (by
            intro e he
            rcases List.mem_cons.mp he with rfl | he
            · exact hlt'
            · exact String.lt_trans hlt' (hxr e he))
          have := h yk
          rw [hn] at this
          simp [lookup] at this
      subst hkey
      have hval : xv = yv := by simpa [lookup] using h xk
      subst hval
      have hrest : xs = ys := by
        apply ih hx.of_cons hy.of_cons
        intro key
        by_cases hk : xk = key
        · subst hk
          rw [lookup_eq_none hxr, lookup_eq_none hyr]
        · simpa [lookup, hk] using h key
      rw [hrest]

/-- A table is determined by its look-ups. -/
theorem ext_get? {t u : Table α} (h : ∀ key, t.get? key = u.get? key) : t = u := by
  obtain ⟨xs, hx⟩ := t
  obtain ⟨ys, hy⟩ := u
  have := entries_ext hx hy h
  subst this
  rfl

/-- The last pair of a name may as well be inserted after all others. -/
theorem ofList_append_cons (before : List (String × α)) {after : List (String × α)} {key : String}
    (value : α) (h : key ∉ after.map Prod.fst) :
    ofList (before ++ (key, value) :: after) = (ofList (before ++ after)).insert key value := by
  apply ext_get?
  intro other
  rw [get?_insert, get?_ofList, get?_ofList, List.reverse_append, List.reverse_append,
    List.reverse_cons, List.append_assoc, lookup_append, lookup_append, lookup_append]
  by_cases hother : key = other
  · have hnone : lookup other after.reverse = none := by
      rwa [← hother, lookup_eq_none_iff, List.map_reverse, List.mem_reverse]
    rw [hnone, if_pos hother, Option.none_or, lookup, if_pos hother, Option.some_or]
  · rw [if_neg hother, lookup, if_neg hother, lookup, Option.none_or]

/-- Filling an empty table with a table's own entries gives that table back. -/
theorem ofList_entries (t : Table α) : ofList t.entries = t := by
  apply ext_get?
  intro key
  rw [get?_ofList, get?]
  obtain ⟨xs, hx⟩ := t
  simp only
  induction xs with
  | nil => rfl
  | cons x xs ih =>
    have hxr : ∀ e ∈ xs, x.1 < e.1 := fun e he => List.rel_of_pairwise_cons hx he
    rw [List.reverse_cons, lookup_concat, ih hx.of_cons]
    by_cases hk : x.1 = key
    · subst hk
      rw [lookup_eq_none hxr]
      simp [lookup]
    · cases hl : lookup key xs <;> simp [lookup, hk, hl]

/-- Where two tables are merged, the second counts where it has a value. -/
theorem get?_insertAll_entries (t u : Table α) (key : String) :
    (t.insertAll u.entries).get? key = (u.get? key).or (t.get? key) := by
  rw [get?_insertAll, ← get?_ofList, ofList_entries]

end Table

end SuitePlan
