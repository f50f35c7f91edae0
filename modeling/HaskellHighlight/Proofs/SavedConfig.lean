import HaskellHighlight.Config.Store
import HaskellHighlight.Proofs.UndottedTables
import HaskellHighlight.Proofs.WrittenDocument
import HaskellHighlight.Proofs.WrittenFile

/-! Settings that were saved are the settings that are loaded. The text of settings is a document of
three tables without dotted names, and every table gives back the settings it was made of. -/
namespace HaskellHighlight.Config
open Toml

def tables (config : Config) : List (String × Entries) :=
  [("highlight",
      [("enabled", .scalar (.boolean config.highlight.enabled)),
       ("merge_adjacent", .scalar (.boolean config.highlight.mergeAdjacent)),
       ("theme", .scalar (.string config.highlight.theme.name))]),
   ("colors", config.colors.entries.map fun entry => (entry.1, .scalar (.string entry.2))),
   ("files",
      [("extra_extensions",
        .array (config.extraExtensions.map fun text => .scalar (.string text)))])]

/-- The text of settings has the statements of their tables. -/
theorem reads_write (config : Config) :
    Reads config.write (config.tables.flatMap tableStatements) := by
  have files : Reads
      (writeHeader "files".toList ++ (writeEntry "extra_extensions".toList
        (writeStrings (config.extraExtensions.map String.toList)) ++ []))
      (tableStatements ("files", [("extra_extensions",
        .array (config.extraExtensions.map fun text => .scalar (.string text)))])) := by
    have extensions := writes_strings (config.extraExtensions.map String.toList)
    rw [List.map_map] at extensions
    simp only [Function.comp_def, String.ofList_toList] at extensions
    exact .header _ (.entry _ extensions .nil)
  have colors := Reads.entries (fun entry : String × String => entry.1.toList)
    (fun entry => writeString entry.2.toList) (fun entry => .scalar (.string entry.2))
    (fun entry => by simpa using writes_string entry.2.toList) config.colors.entries files.blank
  have whole := Reads.header "highlight".toList
    (.entry "enabled".toList (writes_boolean config.highlight.enabled)
      (.entry "merge_adjacent".toList (writes_boolean config.highlight.mergeAdjacent)
        (.entry "theme".toList (writes_string config.highlight.theme.name.toList)
          (.blank (.header "colors".toList colors)))))
  simpa [write, tables, tableStatements, Function.comp_def] using whole

/-- The text of settings describes their tables, each opened by its header. -/
theorem document?_write (config : Config) :
    document? config.write = some (config.tables.map Entries.headed) := by
  have unmarked : config.write.head? ≠ some '\uFEFF' := by
    have bracket : config.write.head? = some '[' := by simp [write, writeHeader]
    rw [bracket]
    decide
  rw [(reads_write config).document?_eq unmarked, ofStatements_tables config.tables]
  · simp [tables]
  · intro table mem
    simp only [tables, List.mem_cons, List.not_mem_nil, or_false] at mem
    rcases mem with rfl | rfl | rfl
    · simp
    · rw [List.map_map]
      exact config.colors.names_nodup
    · simp

private theorem mapM_of_undoes {α β ε : Type} {f : β → Except ε α} {g : α → β}
    (undoes : ∀ item, f (g item) = .ok item) (items : List α) :
    (items.map g).mapM f = .ok items := by
  induction items with
  | nil => rfl
  | cons item items ih =>
    rw [List.map_cons, List.mapM_cons, undoes, ih]
    rfl

theorem decodeTheme_name (theme : Theme) :
    decodeTheme (.scalar (.string theme.name)) = .ok theme := by
  cases theme <;> rfl

theorem decodeColors_entries (colors : NameMap String) (origin : Origin) :
    decodeColors (.table origin (colors.entries.map fun entry =>
      (entry.1, .scalar (.string entry.2)))) = .ok colors := by
  rw [decodeColors, mapM_of_undoes]
  · exact congrArg Except.ok colors.ofList_entries
  · exact fun _ => rfl

theorem decodeStrings_items (texts : List String) :
    decodeStrings (.array (texts.map fun text => .scalar (.string text))) = .ok texts := by
  rw [decodeStrings, mapM_of_undoes]
  exact fun _ => rfl

/-- Every setting is taken from the table that it was written to. -/
theorem decode_tables (config : Config) :
    decode (config.tables.map Entries.headed) = .ok config := by
  have colors := decodeColors_entries config.colors .header
  have extensions := decodeStrings_items config.extraExtensions
  have theme := decodeTheme_name config.highlight.theme
  simp only [decode, tables, List.map_cons, List.map_nil, Entries.headed, List.foldlM_cons,
    List.foldlM_nil, setGroup, decodeGroup, setHighlight, setFiles, decodeBoolean, ↓reduceIte,
    String.reduceEq, theme, colors, extensions]
  rfl

/-- Settings that were written are read as they were. -/
theorem ofText_write (config : Config) : ofText (String.ofList config.write) = .ok config := by
  rw [ofText, String.toList_ofList, document?_write]
  simp only [decode_tables]

/-- After settings were saved to a file, the file gives the same settings, whatever it held before
and whatever the names, colours and extensions among them are. -/
theorem load_of_save (config : Config) (tree after : FileTree) (path : String)
    (saved : config.save tree path = (after, .ok ())) : load after path = .ok config := by
  rw [load, FileTree.read_of_save saved, ofRead, ofBytes, decodeUtf8_toUTF8]
  exact ofText_write config

def awkward : Config :=
  ⟨⟨false, true, .light⟩, NameMap.empty.insert "a.\"b\"\n" "\x00'''\\", ["x", "\n\"\"\""]⟩

/-- Such settings are loaded after they were saved over another file. -/
theorem load_of_save_over_file :
    ∃ after, awkward.save ⟨[([['c']], .file "colors = 1".toUTF8)]⟩ "c" = (after, .ok ()) ∧
      load after "c" = .ok awkward := by
  have saved : awkward.save ⟨[([['c']], .file "colors = 1".toUTF8)]⟩ "c" = (_, .ok ()) := rfl
  exact ⟨_, saved, load_of_save _ _ _ _ saved⟩

end HaskellHighlight.Config
