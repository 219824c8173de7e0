import SuitePlan.Json.Value

/-!
# Drafts of JSON values

A draft is what has been read of a JSON text up to its first syntax fault. What stands before the
fault can be judged although the text as a whole is no JSON: a mistake of meaning in an earlier part
comes first. A draft without faults is a value (`value?`).
-/

namespace SuitePlan.Json

/-- What has been read of a value. In `fault` no value could be read. An array or object that is
not closed has a fault after the last of its parts, or in it. -/
inductive Draft where
  | fault
  | scalar (value : Scalar)
  | array (items : List Draft) (closed : Bool)
  | object (members : List (String × Draft)) (closed : Bool)
  deriving Repr

namespace Draft

mutual
/-- The value of a draft that has no fault. -/
def value? : Draft → Option Value
  | .fault => none
  | .scalar s => some (.scalar s)
  | .array items closed => if closed then (values? items).map .array else none
  | .object members closed => if closed then (memberValues? members).map .object else none

/-- The values of drafts that have no fault. -/
def values? : List Draft → Option (List Value)
  | [] => some []
  | d :: rest => do some ((← value? d) :: (← values? rest))

/-- The members of drafts that have no fault. -/
def memberValues? : List (String × Draft) → Option (List (String × Value))
  | [] => some []
  | (key, d) :: rest => do some ((key, ← value? d) :: (← memberValues? rest))
end

end Draft

mutual
/-- The draft that a value written without a fault is read as. -/
def Value.draft : Value → Draft
  | .scalar s => .scalar s
  | .array items => .array (Value.itemDrafts items) true
  | .object members => .object (Value.memberDrafts members) true

/-- The drafts of items. -/
def Value.itemDrafts : List Value → List Draft
  | [] => []
  | v :: rest => Value.draft v :: Value.itemDrafts rest

/-- The drafts of members. -/
def Value.memberDrafts : List (String × Value) → List (String × Draft)
  | [] => []
  | (key, v) :: rest => (key, Value.draft v) :: Value.memberDrafts rest
end

mutual
/-- A value is recovered from its draft. -/
theorem Draft.value?_draft : ∀ v : Value, v.draft.value? = some v
  | .scalar s => rfl
  | .array items => by
    simp [Value.draft, Draft.value?, Draft.values?_itemDrafts items]
  | .object members => by
    simp [Value.draft, Draft.value?, Draft.memberValues?_memberDrafts members]

theorem Draft.values?_itemDrafts : ∀ items : List Value,
    Draft.values? (Value.itemDrafts items) = some items
  | [] => rfl
  | v :: rest => by
    simp [Value.itemDrafts, Draft.values?, Draft.value?_draft v, Draft.values?_itemDrafts rest]

theorem Draft.memberValues?_memberDrafts : ∀ members : List (String × Value),
    Draft.memberValues? (Value.memberDrafts members) = some members
  | [] => rfl
  | (key, v) :: rest => by
    simp [Value.memberDrafts, Draft.memberValues?, Draft.value?_draft v,
      Draft.memberValues?_memberDrafts rest]
end

mutual
/-- A draft without a fault is that of its value. -/
theorem Draft.eq_draft_of_value? : ∀ {d : Draft} {v : Value}, d.value? = some v → d = v.draft
  | .fault, v, h => by simp [value?] at h
  | .scalar s, v, h => by
    rw [value?, Option.some.injEq] at h
    rw [← h, Value.draft]
  | .array items closed, v, h => by
    cases closed with
    | false => simp [value?] at h
    | true =>
      obtain ⟨values, hvalues, rfl⟩ := Option.map_eq_some_iff.mp (by simpa [value?] using h)
      rw [Value.draft, eq_itemDrafts_of_values? hvalues]
  | .object members closed, v, h => by
    cases closed with
    | false => simp [value?] at h
    | true =>
      obtain ⟨values, hvalues, rfl⟩ := Option.map_eq_some_iff.mp (by simpa [value?] using h)
      rw [Value.draft, eq_memberDrafts_of_memberValues? hvalues]

theorem Draft.eq_itemDrafts_of_values? : ∀ {ds : List Draft} {items : List Value},
    Draft.values? ds = some items → ds = Value.itemDrafts items
  | [], items, h => by
    rw [values?, Option.some.injEq] at h
    rw [← h, Value.itemDrafts]
  | d :: rest, items, h => by
    simp only [values?, Option.bind_eq_bind, Option.bind_eq_some_iff, Option.some.injEq] at h
    obtain ⟨v, hv, more, hmore, rfl⟩ := h
    rw [Value.itemDrafts, eq_draft_of_value? hv, eq_itemDrafts_of_values? hmore]

theorem Draft.eq_memberDrafts_of_memberValues? : ∀ {ds : List (String × Draft)}
    {members : List (String × Value)},
    Draft.memberValues? ds = some members → ds = Value.memberDrafts members
  | [], members, h => by
    rw [memberValues?, Option.some.injEq] at h
    rw [← h, Value.memberDrafts]
  | (key, d) :: rest, members, h => by
    simp only [memberValues?, Option.bind_eq_bind, Option.bind_eq_some_iff,
      Option.some.injEq] at h
    obtain ⟨v, hv, more, hmore, rfl⟩ := h
    rw [Value.memberDrafts, eq_draft_of_value? hv, eq_memberDrafts_of_memberValues? hmore]
end

theorem Value.length_itemDrafts (items : List Value) :
    (itemDrafts items).length = items.length := by
  induction items with
  | nil => rfl
  | cons v rest ih => rw [itemDrafts, List.length_cons, ih, List.length_cons]

theorem Value.itemDrafts_append (xs ys : List Value) :
    itemDrafts (xs ++ ys) = itemDrafts xs ++ itemDrafts ys := by
  induction xs with
  | nil => rfl
  | cons v rest ih => rw [List.cons_append, itemDrafts, ih, itemDrafts, List.cons_append]

theorem Value.memberDrafts_append (xs ys : List (String × Value)) :
    memberDrafts (xs ++ ys) = memberDrafts xs ++ memberDrafts ys := by
  induction xs with
  | nil => rfl
  | cons m rest ih => rw [List.cons_append, memberDrafts, ih, memberDrafts, List.cons_append]

end SuitePlan.Json
