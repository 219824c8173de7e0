import SuitePlan.CommandLine.Items

/-!
# Items read back

What is read as an item has a line to itself (`isItem_of_mem_readItems`): it is not empty, has no
blanks at its ends and goes over no line break. Written, such items are read back as they were
(`readItems_writeLines`): none is lost, and no two are taken for one.
-/

namespace SuitePlan.CommandLine

/-- A text that is an item as it stands. -/
structure IsItem (item : String) : Prop where
  ne_empty : item ≠ ""
  trim_eq : Text.trim item = item
  no_break : '\n' ∉ item.toList

variable {item text : String} {items : List String}

theorem isItem_of_mem_readItems (h : item ∈ readItems text) : IsItem item := by
  obtain ⟨line, hline, rfl⟩ := List.mem_map.mp h
  obtain ⟨hmem, hne⟩ := List.mem_filter.mp hline
  obtain ⟨piece, hpiece, rfl⟩ := List.mem_map.mp hmem
  constructor
  · intro hempty
    rw [String.ofList_eq_empty_iff] at hempty
    simp [hempty] at hne
  · rw [Text.trim, String.toList_ofList, Text.trimmed_trimmed]
  · rw [String.toList_ofList]
    intro hbreak
    exact Text.not_mem_of_mem_pieces hpiece (Text.mem_of_mem_trimmed hbreak)

theorem readItems_append (h : IsItem item) (rest : String) :
    readItems (item ++ "\n" ++ rest) = item :: readItems rest := by
  have hlist : (item ++ "\n" ++ rest).toList = item.toList ++ '\n' :: rest.toList := by
    simp
  have htrim : Text.trimmed item.toList = item.toList := by
    rw [← Text.toList_trim, h.trim_eq]
  have hne : item.toList.isEmpty = false := by
    simpa using h.ne_empty
  rw [readItems, hlist, Text.pieces_append_cons h.no_break]
  simp only [List.map_cons, htrim, List.filter_cons, hne, Bool.not_false, if_true,
    String.ofList_toList, readItems]

theorem readItems_writeLines (h : ∀ item ∈ items, IsItem item) :
    readItems (writeLines items) = items := by
  induction items with
  | nil => rfl
  | cons item rest ih =>
    rw [List.forall_mem_cons] at h
    rw [writeLines, List.map_cons, String.join_cons]
    show readItems (item ++ "\n" ++ writeLines rest) = _
    rw [readItems_append h.1, ih h.2]

/-- A lone return is no line break, and blanks of any script are left off. -/
example : readItems (writeLines (readItems "\u3000a\r\n \n\tb\rc\n")) = ["a", "b\rc"] := by
  decide +kernel

end SuitePlan.CommandLine
