/-!
# Pieces of a text

Lists in an option stand between commas and items in a file on lines of their own: both are cut at a
separator, which belongs to no piece (`not_mem_of_mem_pieces`).
-/

namespace SuitePlan.Text

/-- The pieces of `cs` between the separators, empty ones included. -/
def pieces (separator : Char) : List Char → List (List Char)
  | [] => [[]]
  | c :: rest =>
    if c = separator then [] :: pieces separator rest
    else
      match pieces separator rest with
      | [] => [[c]]
      | piece :: more => (c :: piece) :: more

/-- Pieces with the separator between them. -/
def joined (separator : Char) : List (List Char) → List Char
  | [] => []
  | [piece] => piece
  | piece :: rest => piece ++ separator :: joined separator rest

/-- The part before the first separator and the part after it, if there is one. -/
def cut? (separator : Char) : List Char → Option (List Char × List Char)
  | [] => none
  | c :: rest =>
    if c = separator then some ([], rest)
    else (cut? separator rest).map fun (before, after) => (c :: before, after)

theorem joined_map_cons_cons (separator : Char) (f : α → List Char) (x y : α) (rest : List α) :
    joined separator ((x :: y :: rest).map f) =
      f x ++ separator :: joined separator ((y :: rest).map f) := rfl

/-- Whatever writes a list element by element with a separator between them joins their texts. -/
theorem eq_joined_map {separator : Char} {f : α → List Char} {write : List α → List Char}
    (hnil : write [] = []) (hone : ∀ x, write [x] = f x)
    (hmore : ∀ x y rest, write (x :: y :: rest) = f x ++ separator :: write (y :: rest))
    (xs : List α) : write xs = joined separator (xs.map f) := by
  induction xs with
  | nil => exact hnil
  | cons x rest ih =>
    cases rest with
    | nil => exact hone x
    | cons y rest => rw [hmore, ih, joined_map_cons_cons]

theorem pieces_ne_nil (separator : Char) (cs : List Char) : pieces separator cs ≠ [] := by
  cases cs with
  | nil => simp [pieces]
  | cons c rest => unfold pieces; split <;> (try split) <;> simp

/-- No piece has a separator in it. -/
theorem not_mem_of_mem_pieces {separator : Char} {cs piece : List Char}
    (h : piece ∈ pieces separator cs) : separator ∉ piece := by
  induction cs generalizing piece with
  | nil =>
    rw [pieces, List.mem_singleton] at h
    rw [h]
    exact List.not_mem_nil
  | cons c rest ih =>
    by_cases hc : c = separator
    · rw [pieces, if_pos hc, List.mem_cons] at h
      rcases h with rfl | h
      · exact List.not_mem_nil
      · exact ih h
    · rw [pieces, if_neg hc] at h
      cases hp : pieces separator rest with
      | nil => exact absurd hp (pieces_ne_nil separator rest)
      | cons first more =>
        rw [hp] at h ih
        rcases List.mem_cons.mp h with rfl | h
        · rw [List.mem_cons, not_or]
          exact ⟨fun heq => hc heq.symm, ih List.mem_cons_self⟩
        · exact ih (List.mem_cons_of_mem _ h)

/-- What stands before the first separator is a piece. -/
theorem pieces_append_cons {separator : Char} {piece : List Char} (h : separator ∉ piece)
    (rest : List Char) :
    pieces separator (piece ++ separator :: rest) = piece :: pieces separator rest := by
  induction piece with
  | nil => rw [List.nil_append, pieces, if_pos rfl]
  | cons c more ih =>
    rw [List.mem_cons, not_or] at h
    rw [List.cons_append, pieces, if_neg (Ne.symm h.1), ih h.2]

/-- A text is cut at its first separator. -/
theorem cut?_eq_some_iff {separator : Char} {cs before after : List Char} :
    cut? separator cs = some (before, after) ↔
      cs = before ++ separator :: after ∧ separator ∉ before := by
  induction cs generalizing before with
  | nil => simp [cut?]
  | cons c rest ih =>
    by_cases h : c = separator
    · subst h
      cases before with
      | nil => simp [cut?]
      | cons b bs =>
        simp only [cut?, if_true, Option.some.injEq, Prod.mk.injEq, List.cons_append,
          List.cons.injEq, List.mem_cons, not_or]
        constructor
        · rintro ⟨h, -⟩; exact absurd h (by simp)
        · rintro ⟨⟨rfl, -⟩, h, -⟩; exact absurd rfl h
    · cases before with
      | nil => simp [cut?, h]
      | cons b bs =>
        simp only [cut?, h, if_false, Option.map_eq_some_iff, Prod.exists, Prod.mk.injEq,
          List.cons.injEq, List.cons_append, List.mem_cons, not_or]
        constructor
        · rintro ⟨x, y, hx, ⟨rfl, rfl⟩, rfl⟩
          obtain ⟨rfl, hn⟩ := ih.mp hx
          exact ⟨⟨rfl, rfl⟩, fun e => h e.symm, hn⟩
        · rintro ⟨⟨rfl, rfl⟩, -, hn⟩
          exact ⟨bs, after, ih.mpr ⟨rfl, hn⟩, ⟨rfl, rfl⟩, rfl⟩

theorem cut?_eq_none_iff {separator : Char} {cs : List Char} :
    cut? separator cs = none ↔ separator ∉ cs := by
  induction cs with
  | nil => simp [cut?]
  | cons c rest ih =>
    by_cases h : c = separator
    · simp [cut?, h]
    · simp [cut?, h, ih, Ne.symm h]

end SuitePlan.Text
