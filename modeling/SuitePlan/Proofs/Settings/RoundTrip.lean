import SuitePlan.Proofs.Catalog.RoundTrip
import SuitePlan.Settings.Reader

/-!
# Settings read back

Settings are read back from the bytes of what is written of them, with every option and value as it
was, whatever characters these have (`Settings.ofBytes_written`). The text may be compact or
indented.
-/

namespace SuitePlan.Settings

open Json (Value Draft)

variable {s : Settings} {cs : List Char} {text : String}

/-- Texts are taken as they are. -/
theorem readMembers_map (pairs : List (String × String)) :
    readMembers (pairs.map fun (key, value) => (key, Value.ofString value)) = .ok pairs := by
  induction pairs with
  | nil => rfl
  | cons p rest ih =>
    rw [List.map_cons, readMembers, ih]
    rfl

/-- The members that are written are in order already, so that sorting them changes nothing. -/
theorem entries_ofList_members (s : Settings) :
    (Table.ofList (s.toList.map fun (key, value) => (key, Value.ofString value))).entries =
      s.toList.map fun (key, value) => (key, Value.ofString value) :=
  congrArg Table.entries (Table.ofList_entries (s.options.map Value.ofString))

/-- Settings are recovered from their value. -/
theorem ofValue_toValue (s : Settings) : ofValue s.toValue = .ok s := by
  have hread : readMembers (Table.ofList
      (s.toList.map fun (key, value) => (key, Value.ofString value))).entries = .ok s.toList := by
    rw [entries_ofList_members, readMembers_map]
  have hlist : ofList s.toList = s := by
    rw [ofList, toList, Table.ofList_entries]
  rw [toValue, ofValue, hread]
  show Except.ok (ofList s.toList) = _
  rw [hlist]

theorem isReadable_toValue (s : Settings) : s.toValue.IsReadable Draft.depthLimit :=
  s.options.isReadable_toValue

theorem ofText_of_reads (h : (Draft.Reader.ofDepth Draft.depthLimit).Reads cs s.toValue) :
    ofText (String.ofList cs) = .ok s := by
  rw [ofText, String.toList_ofList, Value.parse?_of_reads h]
  exact ofValue_toValue s

/-- Either text of settings denotes them. -/
theorem ofText_written (h : text = s.toText ∨ text = s.toValue.indentedText) :
    ofText text = .ok s := by
  rcases h with rfl | rfl
  · exact ofText_of_reads (Value.reads_compact s.isReadable_toValue)
  · exact ofText_of_reads (Value.reads_indented s.isReadable_toValue 0)

theorem ofBytes_toUTF8 (text : String) : ofBytes text.toUTF8 = ofText text := by
  rw [ofBytes, fromUTF8?_toUTF8]

/-- The bytes of either text of settings give these settings, and so does a file that holds them. -/
theorem ofBytes_written (h : text = s.toText ∨ text = s.toValue.indentedText) :
    ofBytes text.toUTF8 = .ok s ∧
      ∀ (files : Files) (path : String), files.read path = .ok text.toUTF8 →
        load files path = .ok s := by
  have hbytes : ofBytes text.toUTF8 = .ok s := by
    rw [ofBytes_toUTF8, ofText_written h]
  refine ⟨hbytes, fun files path hread => ?_⟩
  rw [load, hread]
  exact hbytes

/-- Settings with every kind of character that is written in its own way, and with an option that
has no name. -/
def escapedSettings : Settings :=
  .ofList [("", ""), ("a\"b", "\\u0041\n\x00"), ("é😀", "\x7f\x7b\x7d\\\"")]

/-- A file system in which every path holds the compact text of `escapedSettings`. -/
def escapedFiles : Files where
  read _ := .ok escapedSettings.toText.toUTF8
  isFile _ := true

theorem ofBytes_written_escapedSettings :
    escapedSettings.toText =
      "\x7b\"\":\"\",\"a\\\"b\":\"\\\\u0041\\n\\u0000\",\"é😀\":\"\x7f\x7b\x7d\\\\\\\"\"\x7d" ∧
    ofBytes escapedSettings.toText.toUTF8 = .ok escapedSettings ∧
    load escapedFiles "c.json" = .ok escapedSettings := by
  obtain ⟨hbytes, hload⟩ := ofBytes_written (s := escapedSettings) (.inl rfl)
  exact ⟨by decide +kernel, hbytes, hload escapedFiles "c.json" rfl⟩

end SuitePlan.Settings
