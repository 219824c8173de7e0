import SuitePlan.Proofs.Json.Scalars
import SuitePlan.Text.Pieces

/-!
# Values read back

What is written of a value is read as its draft, from the compact text as well as from the indented
one (`Value.reads_compact`, `Value.reads_indented`). It has to be within the limits of the reader
(`Value.IsReadable`): a number is an integer of 64 bits, and no more arrays and objects are open at
once than the reader allows.

The items of an array and the members of an object stand between commas, and blanks may come before
each of them and before the bracket at the end. The texts of both forms are of this kind.
-/

namespace SuitePlan.Json

/-- Nothing but blanks. -/
def Blanks (cs : List Char) : Prop :=
  ∀ c ∈ cs, isSpace c = true

/-- The values that are read with so many arrays and objects open at once. -/
inductive Value.IsReadable : Nat → Value → Prop
  | scalar {depth : Nat} {s : Scalar} : s.IsPlain → IsReadable depth (.scalar s)
  | array {depth : Nat} {items : List Value} :
      (∀ v ∈ items, IsReadable depth v) → IsReadable (depth + 1) (.array items)
  | object {depth : Nat} {members : List (String × Value)} :
      (∀ m ∈ members, IsReadable depth m.2) → IsReadable (depth + 1) (.object members)

variable {depth : Nat} {cs bs rest : List Char} {v : Value} {items : List Value}
  {members : List (String × Value)} {f : Value → List Char}

@[simp] theorem Value.isReadable_array_iff :
    (Value.array items).IsReadable (depth + 1) ↔ ∀ v ∈ items, v.IsReadable depth := by
  constructor
  · rintro (_ | h)
    exact h
  · exact .array

@[simp] theorem Value.isReadable_object_iff :
    (Value.object members).IsReadable (depth + 1) ↔ ∀ m ∈ members, m.2.IsReadable depth := by
  constructor
  · rintro (_ | _ | h)
    exact h
  · exact .object

/-! ## Blanks -/

theorem skip_append (hbs : Blanks bs) (cs : List Char) : skip (bs ++ cs) = skip cs :=
  List.dropWhile_append_of_pos hbs

theorem skip_cons {c : Char} (hc : isSpace c = false) (cs : List Char) :
    skip (c :: cs) = c :: cs := by
  simp [skip, hc]

theorem blanks_nil : Blanks [] := by
  simp [Blanks]

theorem blanks_lineBreak (depth : Nat) : Blanks (Value.lineBreak depth) := by
  intro c hc
  rcases List.mem_cons.mp hc with rfl | hc
  · rfl
  · rw [(List.mem_replicate.mp hc).2]
    rfl

theorem endsNumber_of_blanks (hbs : Blanks bs) : EndsNumber bs := by
  cases bs with
  | nil => trivial
  | cons b bs =>
    have hb := hbs b List.mem_cons_self
    simp only [isSpace, Bool.or_eq_true, beq_iff_eq] at hb
    have hends : EndsNumber [b] := by
      rcases hb with ((rfl | rfl) | rfl) | rfl <;> decide
    exact hends

theorem endsNumber_append (hbs : Blanks bs) {c : Char} (hc : EndsNumber [c]) (cs : List Char) :
    EndsNumber (bs ++ c :: cs) := by
  cases bs with
  | nil => exact hc
  | cons b bs =>
    have hends : EndsNumber (b :: bs) := endsNumber_of_blanks hbs
    exact hends

namespace Draft.Reader

/-- The text is read as the value, whatever comes after it. -/
def Reads (r : Reader) (cs : List Char) (v : Value) : Prop :=
  ∀ rest, EndsNumber rest → r.read (cs ++ rest) = (v.draft, some rest)

theorem read_congr {cs' : List Char} (h : skip cs = skip cs') :
    (ofDepth depth).read cs = (ofDepth depth).read cs' := by
  cases depth with
  | zero =>
    show readFlat cs = readFlat cs'
    rw [readFlat, readFlat, h]
  | succ depth =>
    show readNested _ cs = readNested _ cs'
    rw [readNested, readNested, h]

theorem Reads.blanks (h : (ofDepth depth).Reads cs v) (hbs : Blanks bs) :
    (ofDepth depth).Reads (bs ++ cs) v := by
  intro rest hrest
  rw [List.append_assoc, read_congr (skip_append hbs _)]
  exact h rest hrest

/-- No value starts with the end of an array. -/
theorem read_bracket (h : skip cs = ']' :: rest) :
    (ofDepth depth).read cs = (.fault, none) := by
  cases depth with
  | zero =>
    show readFlat cs = _
    rw [readFlat, h]
    rfl
  | succ depth =>
    show readNested _ cs = _
    rw [readNested, h]
    rfl

theorem reads_scalar {s : Scalar} (h : s.IsPlain) :
    (ofDepth depth).Reads s.render (.scalar s) := by
  intro rest hrest
  have hread : scalar (s.render ++ rest) = (.scalar s, some rest) := by
    rw [scalar, Scalar.read?_render h hrest]
  obtain ⟨c, cs, hcs, hspace, hbracket, hbrace⟩ := Scalar.exists_render h
  rw [hcs, List.cons_append] at hread ⊢
  cases depth with
  | zero =>
    show readFlat _ = _
    rw [readFlat, skip_cons hspace]
    split <;> simp_all [Value.draft]
  | succ depth =>
    show readNested _ _ = _
    rw [readNested, skip_cons hspace]
    split <;> simp_all [Value.draft]

/-! ## Arrays -/

theorem items_last {r : Reader} {d : Draft} {after : List Char} (h : r.read cs = (d, some after))
    (hafter : skip after = ']' :: rest) : r.items cs = ([d], some rest) := by
  rw [items_eq, h]
  simp only [hafter]

theorem items_more {r : Reader} {d : Draft} {after : List Char} (h : r.read cs = (d, some after))
    (hafter : skip after = ',' :: rest) :
    r.items cs = (d :: (r.items rest).1, (r.items rest).2) := by
  rw [items_eq, h]
  simp only [hafter]

/-- The items are read one by one, each up to the comma or the bracket after it. -/
theorem items_joined (h : ∀ v ∈ items, (ofDepth depth).Reads (f v) v) (hitems : items ≠ [])
    (hbs : Blanks bs) (rest : List Char) :
    (ofDepth depth).items (Text.joined ',' (items.map f) ++ (bs ++ ']' :: rest)) =
      (Value.itemDrafts items, some rest) := by
  induction items with
  | nil => exact absurd rfl hitems
  | cons v more ih =>
    rw [List.forall_mem_cons] at h
    cases more with
    | nil =>
      have hread := h.1 _ (endsNumber_append hbs (by decide : EndsNumber [']']) rest)
      exact items_last hread (by rw [skip_append hbs, skip_cons (by decide)])
    | cons w later =>
      have hread := h.1 (',' :: (Text.joined ',' ((w :: later).map f) ++ (bs ++ ']' :: rest)))
        (endsNumber_append blanks_nil (by decide : EndsNumber [',']) _)
      have hitems := items_more hread (skip_cons (by decide) _)
      rw [ih h.2 (List.cons_ne_nil _ _)] at hitems
      rw [Text.joined_map_cons_cons, List.append_assoc]
      exact hitems

theorem reads_array (h : ∀ v ∈ items, (ofDepth depth).Reads (f v) v) (hbs : Blanks bs) :
    (ofDepth (depth + 1)).Reads ('[' :: (Text.joined ',' (items.map f) ++ (bs ++ [']'])))
      (.array items) := by
  intro rest hrest
  show readNested _ ('[' :: (_ ++ rest)) = _
  rw [List.append_assoc, List.append_assoc, List.singleton_append, readNested,
    skip_cons (by decide)]
  cases items with
  | nil =>
    have hskip : skip (Text.joined ',' (([] : List Value).map f) ++ (bs ++ ']' :: rest)) =
        ']' :: rest := by
      rw [List.map_nil, Text.joined, List.nil_append, skip_append hbs, skip_cons (by decide)]
    simp only [hskip]
    rfl
  | cons v more =>
    have hitems := items_joined h (List.cons_ne_nil v more) hbs rest
    simp only
    split
    · -- An array with items does not end at once, for no item starts with its end.
      rename_i after hclosed
      rw [items_eq, read_bracket hclosed] at hitems
      cases (Prod.ext_iff.mp hitems).2
    · rw [hitems]
      rfl

/-! ## Objects -/

theorem name?_render (hbs : Blanks bs) (key : String) (rest : List Char) :
    name? (bs ++ (Text.render key ++ ':' :: rest)) = some (key, some rest) := by
  rw [name?, skip_append hbs, Text.render_append, skip_cons (by decide)]
  simp only [Text.read?_flatMap_escaped, Option.map_some,
    skip_cons (by decide : isSpace ':' = false), String.ofList_toList]

theorem members_last {r : Reader} {key : String} {d : Draft} {text after : List Char}
    (hname : name? cs = some (key, some text)) (h : r.read text = (d, some after))
    (hafter : skip after = '}' :: rest) : r.members cs = ([(key, d)], some rest) := by
  rw [members_eq, hname]
  simp only [h, hafter]

theorem members_more {r : Reader} {key : String} {d : Draft} {text after : List Char}
    (hname : name? cs = some (key, some text)) (h : r.read text = (d, some after))
    (hafter : skip after = ',' :: rest) :
    r.members cs = ((key, d) :: (r.members rest).1, (r.members rest).2) := by
  rw [members_eq, hname]
  simp only [h, hafter]

/-- A member as it is written after some blanks. -/
def memberText (bs : List Char) (f : Value → List Char) (m : String × Value) : List Char :=
  bs ++ (Text.render m.1 ++ ':' :: f m.2)

theorem name?_memberText (hbs : Blanks bs) (m : String × Value) (rest : List Char) :
    name? (memberText bs f m ++ rest) = some (m.1, some (f m.2 ++ rest)) := by
  rw [memberText, List.append_assoc, List.append_assoc, List.cons_append]
  exact name?_render hbs m.1 _

theorem members_joined {before : List Char}
    (h : ∀ m ∈ members, (ofDepth depth).Reads (f m.2) m.2) (hmembers : members ≠ [])
    (hbefore : Blanks before) (hbs : Blanks bs) (rest : List Char) :
    (ofDepth depth).members
        (Text.joined ',' (members.map (memberText before f)) ++ (bs ++ '}' :: rest)) =
      (Value.memberDrafts members, some rest) := by
  induction members with
  | nil => exact absurd rfl hmembers
  | cons m more ih =>
    rw [List.forall_mem_cons] at h
    cases more with
    | nil =>
      have hread := h.1 _ (endsNumber_append hbs (by decide : EndsNumber ['}']) rest)
      exact members_last (name?_memberText hbefore m _) hread
        (by rw [skip_append hbs, skip_cons (by decide)])
    | cons n later =>
      have hread := h.1
        (',' :: (Text.joined ',' ((n :: later).map (memberText before f)) ++ (bs ++ '}' :: rest)))
        (endsNumber_append blanks_nil (by decide : EndsNumber [',']) _)
      have hmembers := members_more (name?_memberText hbefore m _) hread (skip_cons (by decide) _)
      rw [ih h.2 (List.cons_ne_nil _ _)] at hmembers
      rw [Text.joined_map_cons_cons, List.append_assoc]
      exact hmembers

theorem reads_object {before : List Char} (h : ∀ m ∈ members, (ofDepth depth).Reads (f m.2) m.2)
    (hbefore : Blanks before) (hbs : Blanks bs) :
    (ofDepth (depth + 1)).Reads
      ('{' :: (Text.joined ',' (members.map (memberText before f)) ++ (bs ++ ['}'])))
      (.object members) := by
  intro rest hrest
  show readNested _ ('{' :: (_ ++ rest)) = _
  rw [List.append_assoc, List.append_assoc, List.singleton_append, readNested,
    skip_cons (by decide)]
  cases members with
  | nil =>
    have hskip : skip (Text.joined ',' (([] : List (String × Value)).map (memberText before f)) ++
        (bs ++ '}' :: rest)) = '}' :: rest := by
      rw [List.map_nil, Text.joined, List.nil_append, skip_append hbs, skip_cons (by decide)]
    simp only [hskip]
    rfl
  | cons m more =>
    have hmembers := members_joined h (List.cons_ne_nil m more) hbefore hbs rest
    simp only
    split
    · rename_i after hclosed
      rw [members_eq, name?, hclosed] at hmembers
      cases (Prod.ext_iff.mp hmembers).2
    · rw [hmembers]
      rfl

end Draft.Reader

/-! ## Both forms -/

namespace Value

open Draft.Reader

theorem compactItems_eq (items : List Value) :
    compactItems items = Text.joined ',' (items.map compact) :=
  Text.eq_joined_map rfl (fun _ => rfl) (fun _ _ _ => rfl) items

theorem compactMembers_eq (members : List (String × Value)) :
    compactMembers members = Text.joined ',' (members.map (memberText [] compact)) := by
  apply Text.eq_joined_map
  · rfl
  · intro m
    rfl
  · intro m n rest
    simp [compactMembers, memberText]

theorem indentedItems_eq (depth : Nat) (items : List Value) :
    indentedItems depth items =
      Text.joined ',' (items.map fun v => lineBreak depth ++ indented depth v) :=
  Text.eq_joined_map rfl (fun _ => rfl) (fun _ _ _ => rfl) items

theorem indentedMembers_eq (depth : Nat) (members : List (String × Value)) :
    indentedMembers depth members = Text.joined ','
      (members.map (memberText (lineBreak depth) fun v => ' ' :: indented depth v)) := by
  apply Text.eq_joined_map
  · rfl
  · intro m
    simp [indentedMembers, memberText]
  · intro m n rest
    simp [indentedMembers, memberText]

/-- The compact text of a value is read as the value. -/
theorem reads_compact (h : v.IsReadable depth) : (ofDepth depth).Reads v.compact v := by
  -- The parts of a value keep the limit that is left for them.
  induction h with
  | scalar hs => exact reads_scalar hs
  | array _ ih =>
    rw [compact, compactItems_eq]
    exact reads_array ih blanks_nil
  | object _ ih =>
    rw [compact, compactMembers_eq]
    exact reads_object ih blanks_nil blanks_nil

/-- The indented text of a value is read as the value, however deep it stands. -/
theorem reads_indented (h : v.IsReadable depth) (place : Nat) :
    (ofDepth depth).Reads (v.indented place) v := by
  induction h generalizing place with
  | scalar hs => exact reads_scalar hs
  | @array depth items _ ih =>
    cases items with
    | nil => exact reads_array (fun v hv => ih v hv place) blanks_nil
    | cons v more =>
      rw [indented, indentedItems_eq, List.append_assoc]
      exact reads_array (fun v hv => (ih v hv _).blanks (blanks_lineBreak _)) (blanks_lineBreak _)
  | @object depth members _ ih =>
    cases members with
    | nil => exact reads_object (fun m hm => ih m hm place) blanks_nil blanks_nil
    | cons m more =>
      have hblank : Blanks [' '] := by simp [Blanks, isSpace]
      rw [indented, indentedMembers_eq, List.append_assoc]
      exact reads_object (fun m hm => (ih m hm _).blanks hblank) (blanks_lineBreak _)
        (blanks_lineBreak _)

theorem ofText_of_reads (h : (ofDepth Draft.depthLimit).Reads cs v) :
    Draft.ofText cs = (v.draft, some []) := by
  have hread := h [] (by decide)
  rwa [List.append_nil] at hread

/-- Blanks may follow a written value. -/
theorem parse?_append_of_reads (h : (ofDepth Draft.depthLimit).Reads cs v) (hbs : Blanks bs) :
    parse? (cs ++ bs) = some v := by
  have hskip : skip bs = [] := by
    simpa [skip] using skip_append hbs []
  rw [parse?, Draft.ofText, h bs (endsNumber_of_blanks hbs)]
  simp only [hskip, List.isEmpty_nil, if_true]
  exact Draft.value?_draft v

/-- A written value is recovered from either of its texts. -/
theorem parse?_of_reads (h : (ofDepth Draft.depthLimit).Reads cs v) : parse? cs = some v := by
  simpa using parse?_append_of_reads h blanks_nil

end Value

end SuitePlan.Json
