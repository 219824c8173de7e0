import SuitePlan.Json.Draft
import SuitePlan.Json.Text

/-!
# Reading JSON text

The reader follows the JSON grammar strictly and gives up at the first syntax fault. Each reader
returns the draft of what it has read together with the rest of the text, or with no rest if it met
a fault. Whatever is read takes at least one character, so that reading ends. At most 127 arrays and
objects may be open at once.

`Value.parse?` reads a whole text as one value.
-/

namespace SuitePlan.Json

/-- The blanks that may stand between the parts of a JSON text. -/
def isSpace (c : Char) : Bool :=
  c == ' ' || c == '\t' || c == '\n' || c == '\r'

/-- The text from its first character that is no blank. -/
def skip (cs : List Char) : List Char :=
  cs.dropWhile isSpace

theorem length_skip_le (cs : List Char) : (skip cs).length ≤ cs.length :=
  (List.dropWhile_suffix isSpace).length_le

/-- Reads a scalar at the start of `cs`. -/
def Scalar.read? : List Char → Option (Scalar × List Char)
  | 'n' :: 'u' :: 'l' :: 'l' :: rest => some (.null, rest)
  | 't' :: 'r' :: 'u' :: 'e' :: rest => some (.bool true, rest)
  | 'f' :: 'a' :: 'l' :: 's' :: 'e' :: rest => some (.bool false, rest)
  | '"' :: rest => (Text.read? rest).map fun (s, rest) => (.string (String.ofList s), rest)
  | cs => (Number.read? cs).map fun (n, rest) => (.number n, rest)

theorem Scalar.length_lt_of_read? {cs rest : List Char} {s : Scalar}
    (h : Scalar.read? cs = some (s, rest)) : rest.length < cs.length := by
  unfold Scalar.read? at h
  split at h
  · simp_all; omega
  · simp_all; omega
  · simp_all; omega
  · obtain ⟨p, hp, h⟩ := Option.map_eq_some_iff.mp h
    have := Text.length_lt_of_read? hp
    simp_all
    omega
  · obtain ⟨p, hp, h⟩ := Option.map_eq_some_iff.mp h
    have := Number.length_lt_of_read? hp
    simp_all

namespace Draft

/-- Whether what is read leaves a shorter text than there was. -/
def Consumes {α : Type} (read : List Char → α × Option (List Char)) : Prop :=
  ∀ {cs a rest}, read cs = (a, some rest) → rest.length < cs.length

/-- A reader of values. -/
structure Reader where
  read : List Char → Draft × Option (List Char)
  consumes : Consumes read

namespace Reader

/-! ## Arrays -/

/-- Reads the items of an array that has at least one, up to and with the closing bracket. -/
def items (r : Reader) (cs : List Char) : List Draft × Option (List Char) :=
  match h : r.read cs with
  | (d, none) => ([d], none)
  | (d, some rest) =>
    match hs : skip rest with
    | ',' :: more =>
      have : more.length < cs.length := by
        have := r.consumes h
        have := length_skip_le rest
        simp_all
        omega
      let (ds, rest) := r.items more
      (d :: ds, rest)
    | ']' :: more => ([d], some more)
    | _ => ([d], none)
termination_by cs.length

theorem items_eq (r : Reader) (cs : List Char) :
    r.items cs =
      match r.read cs with
      | (d, none) => ([d], none)
      | (d, some rest) =>
        match skip rest with
        | ',' :: more => (d :: (r.items more).1, (r.items more).2)
        | ']' :: more => ([d], some more)
        | _ => ([d], none) := by
  rw [items]
  split
  · simp_all
  · split <;> simp_all

theorem items_consumes (r : Reader) : Consumes r.items := by
  intro cs ds rest h
  induction hn : cs.length using Nat.strongRecOn generalizing cs ds with
  | _ n ih =>
    rw [items_eq] at h
    split at h
    · simp at h
    · rename_i d after hr
      have hc := r.consumes hr
      have hs := length_skip_le after
      split at h
      · rename_i more hm
        simp only [hm, List.length_cons] at hs
        have := ih more.length (by omega) (Prod.ext rfl (Prod.ext_iff.mp h).2) rfl
        omega
      · rename_i more hm
        simp only [hm, List.length_cons] at hs
        simp only [Prod.mk.injEq, Option.some.injEq] at h
        rw [← h.2]
        omega
      · simp at h

/-! ## Objects -/

/-- Reads the name of a member and the colon after it. Where the colon is missing, the name has
been read all the same. -/
def name? (cs : List Char) : Option (String × Option (List Char)) :=
  match skip cs with
  | '"' :: rest =>
    (Text.read? rest).map fun (name, rest) =>
      match skip rest with
      | ':' :: rest => (String.ofList name, some rest)
      | _ => (String.ofList name, none)
  | _ => none

theorem length_lt_of_name? {cs rest : List Char} {key : String}
    (h : name? cs = some (key, some rest)) : rest.length < cs.length := by
  have hs := length_skip_le cs
  unfold name? at h
  split at h
  · rename_i quoted hq
    obtain ⟨⟨name, after⟩, hp, h⟩ := Option.map_eq_some_iff.mp h
    have hl := Text.length_lt_of_read? hp
    have ha := length_skip_le after
    rw [hq, List.length_cons] at hs
    simp only at h
    split at h
    · rename_i more hm
      rw [hm, List.length_cons] at ha
      simp only [Prod.mk.injEq, Option.some.injEq] at h
      rw [← h.2]
      omega
    · simp at h
  · simp at h

/-- Reads the members of an object that has at least one, up to and with the closing brace. -/
def members (r : Reader) (cs : List Char) : List (String × Draft) × Option (List Char) :=
  match hn : name? cs with
  | none => ([], none)
  | some (key, none) => ([(key, .fault)], none)
  | some (key, some after) =>
    match h : r.read after with
    | (d, none) => ([(key, d)], none)
    | (d, some rest) =>
      match hs : skip rest with
      | ',' :: more =>
        have : more.length < cs.length := by
          have := length_lt_of_name? hn
          have := r.consumes h
          have := length_skip_le rest
          simp_all
          omega
        let (ms, rest) := r.members more
        ((key, d) :: ms, rest)
      | '}' :: more => ([(key, d)], some more)
      | _ => ([(key, d)], none)
termination_by cs.length

theorem members_eq (r : Reader) (cs : List Char) :
    r.members cs =
      match name? cs with
      | none => ([], none)
      | some (key, none) => ([(key, .fault)], none)
      | some (key, some after) =>
        match r.read after with
        | (d, none) => ([(key, d)], none)
        | (d, some rest) =>
          match skip rest with
          | ',' :: more => ((key, d) :: (r.members more).1, (r.members more).2)
          | '}' :: more => ([(key, d)], some more)
          | _ => ([(key, d)], none) := by
  rw [members]
  split
  · simp_all
  · simp_all
  · split
    · simp_all
    · split <;> simp_all

theorem members_consumes (r : Reader) : Consumes r.members := by
  intro cs ms rest h
  induction hn : cs.length using Nat.strongRecOn generalizing cs ms with
  | _ n ih =>
    rw [members_eq] at h
    split at h
    · simp at h
    · simp at h
    · rename_i key after hk
      have hl := length_lt_of_name? hk
      split at h
      · simp at h
      · rename_i d rest' hr
        have hc := r.consumes hr
        have hs := length_skip_le rest'
        split at h
        · rename_i more hm
          simp only [hm, List.length_cons] at hs
          have := ih more.length (by omega) (Prod.ext rfl (Prod.ext_iff.mp h).2) rfl
          omega
        · rename_i more hm
          simp only [hm, List.length_cons] at hs
          simp only [Prod.mk.injEq, Option.some.injEq] at h
          rw [← h.2]
          omega
        · simp at h

/-! ## Values -/

/-- Reads a scalar. -/
def scalar (cs : List Char) : Draft × Option (List Char) :=
  match Scalar.read? cs with
  | some (s, rest) => (.scalar s, some rest)
  | none => (.fault, none)

theorem scalar_consumes : Consumes scalar := by
  intro cs d rest h
  unfold scalar at h
  split at h
  · rename_i hs
    have := Scalar.length_lt_of_read? hs
    simp_all
  · simp at h

/-- Reads a scalar where no array and no object may be opened. -/
def readFlat (cs : List Char) : Draft × Option (List Char) :=
  match skip cs with
  | '[' :: _ => (.fault, none)
  | '{' :: _ => (.fault, none)
  | rest => scalar rest

/-- Reads a value whose parts are read by `r`. -/
def readNested (r : Reader) (cs : List Char) : Draft × Option (List Char) :=
  match skip cs with
  | '[' :: rest =>
    match skip rest with
    | ']' :: more => (.array [] true, some more)
    | _ =>
      let (ds, rest) := r.items rest
      (.array ds rest.isSome, rest)
  | '{' :: rest =>
    match skip rest with
    | '}' :: more => (.object [] true, some more)
    | _ =>
      let (ms, rest) := r.members rest
      (.object ms rest.isSome, rest)
  | rest => scalar rest

theorem readFlat_consumes : Consumes readFlat := by
  intro cs d rest h
  have hs := length_skip_le cs
  unfold readFlat at h
  split at h
  · simp at h
  · simp at h
  · have := scalar_consumes h
    omega

theorem readNested_consumes (r : Reader) : Consumes (readNested r) := by
  intro cs d rest h
  have hs := length_skip_le cs
  unfold readNested at h
  split at h
  · rename_i after ha
    have hl := length_skip_le after
    simp only [ha, List.length_cons] at hs
    split at h
    · simp_all
      omega
    · have := r.items_consumes (Prod.ext rfl (Prod.ext_iff.mp h).2)
      omega
  · rename_i after ha
    have hl := length_skip_le after
    simp only [ha, List.length_cons] at hs
    split at h
    · simp_all
      omega
    · have := r.members_consumes (Prod.ext rfl (Prod.ext_iff.mp h).2)
      omega
  · have := scalar_consumes h
    omega

/-- The reader of values that open at most so many arrays and objects at once. -/
def ofDepth : Nat → Reader
  | 0 => ⟨readFlat, readFlat_consumes⟩
  | depth + 1 => ⟨readNested (ofDepth depth), readNested_consumes _⟩

end Reader

/-- How many arrays and objects may be open at once. -/
def depthLimit : Nat := 127

/-- Reads the value at the start of a text. -/
def ofText (cs : List Char) : Draft × Option (List Char) :=
  (Reader.ofDepth depthLimit).read cs

end Draft

/-- The value that a whole text denotes. -/
def Value.parse? (cs : List Char) : Option Value :=
  match Draft.ofText cs with
  | (d, some rest) => if (skip rest).isEmpty then d.value? else none
  | (_, none) => none

end SuitePlan.Json
