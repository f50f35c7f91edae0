import HaskellHighlight.Config.Store
import HaskellHighlight.Proofs.Assignments
import HaskellHighlight.Proofs.SettingGroups
import Mathlib

/-! A document that gives some of the settings gives all of them: those it names have its values and the
others their standard ones. How and where the document writes a setting does not matter. -/
namespace HaskellHighlight

namespace Toml

namespace Value

def scalar? : Value → Option Scalar
  | .scalar value => some value
  | _ => none

def scalars? : Value → Option (List (Option Scalar))
  | .array items => some (items.map scalar?)
  | .tables items => some (items.map fun _ => none)
  | _ => none

theorem scalar?_eq_some_iff {value : Value} {scalar : Scalar} :
    value.scalar? = some scalar ↔ value = .scalar scalar := by
  cases value <;> simp [scalar?]

end Value

end Toml

namespace Config
open Toml Entries

def IsBoolean (value : Value) (boolean : Bool) : Prop := value = .scalar (.boolean boolean)

def IsString (value : Value) (text : String) : Prop := value = .scalar (.string text)

def IsTheme (value : Value) (theme : Theme) : Prop := IsString value theme.name

def IsStrings (value : Value) (texts : List String) : Prop :=
  value.scalars? = some (texts.map fun text => some (.string text))

/-- A setting is what a value shows, or the standard one where there is no value. -/
def Overrides {α : Type} (Shows : Value → α → Prop) (standard setting : α) : Option Value → Prop
  | none => setting = standard
  | some value => Shows value setting

/-- Groups of settings are tables wherever they are given, and the theme is a string. -/
structure Tabular (entries : Entries) : Prop where
  groups : ∀ group ∈ ["highlight", "colors", "files"], OnlyTable group entries
  theme : ∀ value, valueAt? "highlight" "theme" entries = some value → ∃ text, IsString value text

/-- All settings that are given are of their kinds. -/
structure WellKinded (entries : Entries) : Prop where
  enabled : ∀ value, valueAt? "highlight" "enabled" entries = some value →
    ∃ boolean, IsBoolean value boolean
  mergeAdjacent : ∀ value, valueAt? "highlight" "merge_adjacent" entries = some value →
    ∃ boolean, IsBoolean value boolean
  theme : ∀ value, valueAt? "highlight" "theme" entries = some value → ∃ theme, IsTheme value theme
  colors : ∀ name value, valueAt? "colors" name entries = some value → ∃ text, IsString value text
  extraExtensions : ∀ value, valueAt? "files" "extra_extensions" entries = some value →
    ∃ texts, IsStrings value texts

/-- Settings are the standard ones with those replaced that are given. -/
structure Realizes (entries : Entries) (config : Config) : Prop where
  enabled : Overrides IsBoolean standard.highlight.enabled config.highlight.enabled
    (valueAt? "highlight" "enabled" entries)
  mergeAdjacent : Overrides IsBoolean standard.highlight.mergeAdjacent config.highlight.mergeAdjacent
    (valueAt? "highlight" "merge_adjacent" entries)
  theme : Overrides IsTheme standard.highlight.theme config.highlight.theme
    (valueAt? "highlight" "theme" entries)
  colors : ∀ name, Overrides (fun value color => ∃ text, IsString value text ∧ color = some text)
    (standard.colors.get? name) (config.colors.get? name) (valueAt? "colors" name entries)
  extraExtensions : Overrides IsStrings standard.extraExtensions config.extraExtensions
    (valueAt? "files" "extra_extensions" entries)

theorem decodeBoolean_eq_ok_iff {value : Value} {boolean : Bool} :
    decodeBoolean value = .ok boolean ↔ IsBoolean value boolean := by
  rw [IsBoolean]
  constructor
  · intro decoded
    rw [decodeBoolean.eq_def] at decoded
    split at decoded
    · cases decoded
      rfl
    · contradiction
  · rintro rfl
    rfl

theorem decodeString_eq_ok_iff {value : Value} {text : String} :
    decodeString value = .ok text ↔ IsString value text := by
  rw [IsString]
  constructor
  · intro decoded
    rw [decodeString.eq_def] at decoded
    split at decoded
    · cases decoded
      rfl
    · contradiction
  · rintro rfl
    rfl

/-- Where it is a string, the theme is taken by its name. -/
theorem decodeTheme_eq_ok_iff {value : Value} {text : String} (string : IsString value text)
    {theme : Theme} : decodeTheme value = .ok theme ↔ IsTheme value theme := by
  obtain rfl := string
  have named : Theme.ofName? text = some theme ↔ text = theme.name := by
    constructor
    · intro found
      simpa [eq_comm] using List.find?_some found
    · rintro rfl
      cases theme <;> decide
  simp only [IsTheme, IsString, Value.scalar.injEq, Scalar.string.injEq, ← named]
  rw [decodeTheme]
  cases Theme.ofName? text <;> simp

theorem mapM_decodeString_eq_ok_iff {items : List Value} {texts : List String} :
    items.mapM decodeString = .ok texts ↔
      items.map Value.scalar? = texts.map fun text => some (.string text) := by
  induction items generalizing texts with
  | nil =>
    cases texts with
    | nil => exact iff_of_true rfl rfl
    | cons text texts => simp [pure, Except.pure]
  | cons item items ih =>
    rw [List.mapM_cons, List.map_cons]
    constructor
    · intro decoded
      obtain ⟨text, first, rest⟩ := exists_of_bind decoded
      obtain ⟨others, later, same⟩ := exists_of_bind rest
      cases same
      rw [List.map_cons, ← ih.mp later, decodeString_eq_ok_iff.mp first, Value.scalar?]
    · intro scalars
      cases texts with
      | nil => contradiction
      | cons text texts =>
        obtain ⟨first, rest⟩ := List.cons.inj scalars
        rw [decodeString_eq_ok_iff.mpr (Value.scalar?_eq_some_iff.mp first), ih.mpr rest]
        rfl

/-- Tables with headers are no strings. -/
theorem mapM_decodeTables_eq_ok_iff {items : List Entries} {texts : List String} :
    items.mapM (fun entries => decodeString (.table .header entries)) = .ok texts ↔
      items.map (fun _ => none) = texts.map fun text => some (Scalar.string text) := by
  cases items with
  | nil =>
    cases texts with
    | nil => exact iff_of_true rfl rfl
    | cons text texts => simp [pure, Except.pure]
  | cons entries items =>
    constructor
    · intro decoded
      obtain ⟨text, first, -⟩ := exists_of_bind ((List.mapM_cons).symm.trans decoded)
      contradiction
    · intro scalars
      cases texts <;> simp at scalars

theorem decodeStrings_eq_ok_iff {value : Value} {texts : List String} :
    decodeStrings value = .ok texts ↔ IsStrings value texts := by
  rw [IsStrings]
  cases value with
  | array items => rw [decodeStrings, Value.scalars?, Option.some_inj, mapM_decodeString_eq_ok_iff]
  | tables items => rw [decodeStrings, Value.scalars?, Option.some_inj, mapM_decodeTables_eq_ok_iff]
  | scalar scalar => simp [decodeStrings, wrongKind, Value.scalars?]
  | table origin entries => simp [decodeStrings, wrongKind, Value.scalars?]

/-- A value that is decoded shows one setting only. -/
theorem shown_unique {α : Type} {decode : Decoder α} {Shows : Value → α → Prop} {value : Value}
    (shows : ∀ setting, decode value = .ok setting ↔ Shows value setting) {a b : α}
    (one : Shows value a) (other : Shows value b) : a = b :=
  Except.ok.inj (((shows a).mpr one).symm.trans ((shows b).mpr other))

theorem taken_eq_ok_iff {α : Type} {decode : Decoder α} {Shows : Value → α → Prop} {standard : α}
    {setting : α} {given : Option Value}
    (shows : ∀ value, given = some value → (decode value = .ok setting ↔ Shows value setting)) :
    taken decode standard given = .ok setting ↔ Overrides Shows standard setting given := by
  cases given with
  | none => simp [taken, Overrides, eq_comm]
  | some value => exact shows value rfl

theorem taken_group {σ : Type} {name : String} {entries : Entries} (only : OnlyTable name entries)
    (expected : Expected) (names : List String) (set : Setter σ) (start : σ) :
    taken (decodeGroup expected names set start) start (find? name entries) =
      setAll set (tableAt name entries) start := by
  rw [tableAt]
  cases found : find? name entries with
  | none => rfl
  | some value =>
    obtain ⟨origin, inner, rfl⟩ := only value found
    rfl

theorem taken_colors {entries : Entries} (only : OnlyTable "colors" entries) :
    taken decodeColors .empty (find? "colors" entries) =
      setAll setColor (tableAt "colors" entries) .empty := by
  rw [tableAt]
  cases found : find? "colors" entries with
  | none => rfl
  | some value =>
    obtain ⟨origin, inner, rfl⟩ := only value found
    exact decodeColors_table origin inner

section document
variable {entries : Entries} {config : Config}

theorem groupsGiven_iff (tabular : Tabular entries) :
    GroupsGiven entries config ↔
      setAll setHighlight (tableAt "highlight" entries) .standard = .ok config.highlight ∧
      setAll setColor (tableAt "colors" entries) .empty = .ok config.colors ∧
      setAll setFiles (tableAt "files" entries) [] = .ok config.extraExtensions := by
  have highlight := taken_group (tabular.groups "highlight" (by simp)) .highlightSettings
    ["enabled", "merge_adjacent", "theme"] setHighlight .standard
  have colors := taken_colors (tabular.groups "colors" (by simp))
  have files := taken_group (tabular.groups "files" (by simp)) .fileSettings ["extra_extensions"]
    setFiles []
  rw [← highlight, ← colors, ← files]
  exact ⟨fun given => ⟨given.highlight, given.colors, given.files⟩,
    fun ⟨highlight, colors, files⟩ => ⟨highlight, colors, files⟩⟩

/-- A document is decoded as the standard settings with those replaced that it gives. -/
theorem decode_eq_ok_iff_realizes (wellNamed : WellNamed entries) (tabular : Tabular entries) :
    decode entries = .ok config ↔ Realizes entries config := by
  have boolean {standard setting : Bool} {given : Option Value} :
      taken decodeBoolean standard given = .ok setting ↔ Overrides IsBoolean standard setting given :=
    taken_eq_ok_iff fun _ _ => decodeBoolean_eq_ok_iff
  have theme : taken decodeTheme .dark (valueAt? "highlight" "theme" entries) =
      .ok config.highlight.theme ↔ Overrides IsTheme .dark config.highlight.theme
        (valueAt? "highlight" "theme" entries) := by
    refine taken_eq_ok_iff fun value found => ?_
    obtain ⟨text, string⟩ := tabular.theme value found
    exact decodeTheme_eq_ok_iff string
  have color {setting : Option String} {given : Option Value} :
      taken (fun value => some <$> decodeString value) none given = .ok setting ↔
        Overrides (fun value color => ∃ text, IsString value text ∧ color = some text) none setting
          given := by
    refine taken_eq_ok_iff fun value _ => ⟨fun decoded => ?_, ?_⟩
    · obtain ⟨text, string, same⟩ := exists_of_bind ((bind_pure_comp some _).trans decoded)
      exact ⟨text, decodeString_eq_ok_iff.mp string, (Except.ok.inj same).symm⟩
    · rintro ⟨text, string, rfl⟩
      rw [decodeString_eq_ok_iff.mpr string]
      rfl
  have strings {standard setting : List String} {given : Option Value} :
      taken decodeStrings standard given = .ok setting ↔ Overrides IsStrings standard setting given :=
    taken_eq_ok_iff fun _ _ => decodeStrings_eq_ok_iff
  rw [decode_eq_ok_iff wellNamed.own, groupsGiven_iff tabular,
    setHighlight_eq_ok_iff (wellNamed.tables "highlight"),
    setColor_eq_ok_iff (wellNamed.tables "colors"), setFiles_eq_ok_iff (wellNamed.tables "files")]
  constructor
  · rintro ⟨highlight, colors, files⟩
    exact ⟨boolean.mp highlight.enabled, boolean.mp highlight.mergeAdjacent,
      theme.mp highlight.theme, fun name => color.mp (colors name), strings.mp files⟩
  · intro realizes
    exact ⟨⟨boolean.mpr realizes.enabled, boolean.mpr realizes.mergeAdjacent,
      theme.mpr realizes.theme⟩, fun name => color.mpr (realizes.colors name),
      strings.mpr realizes.extraExtensions⟩

theorem Overrides.given {α : Type} {Shows : Value → α → Prop} {standard setting : α}
    {given : Option Value} (overrides : Overrides Shows standard setting given) {value : Value}
    (found : given = some value) : Shows value setting := by
  subst found
  exact overrides

theorem exists_taken {α : Type} {decode : Decoder α} (standard : α) {given : Option Value}
    (each : ∀ value, given = some value → ∃ setting, decode value = .ok setting) :
    ∃ setting, taken decode standard given = .ok setting := by
  cases given with
  | none => exact ⟨standard, rfl⟩
  | some value => exact each value rfl

/-- A document is decoded exactly if all settings that it gives are of their kinds. -/
theorem exists_decode_iff (wellNamed : WellNamed entries) (tabular : Tabular entries) :
    (∃ config, decode entries = .ok config) ↔ WellKinded entries := by
  constructor
  · rintro ⟨config, decoded⟩
    have realizes := (decode_eq_ok_iff_realizes wellNamed tabular).mp decoded
    refine ⟨fun value found => ⟨_, realizes.enabled.given found⟩,
      fun value found => ⟨_, realizes.mergeAdjacent.given found⟩,
      fun value found => ⟨_, realizes.theme.given found⟩, fun name value found => ?_,
      fun value found => ⟨_, realizes.extraExtensions.given found⟩⟩
    obtain ⟨text, string, -⟩ := (realizes.colors name).given found
    exact ⟨text, string⟩
  · intro kinds
    obtain ⟨enabled, enabled_given⟩ : ∃ setting, taken decodeBoolean true
        (valueAt? "highlight" "enabled" entries) = .ok setting :=
      exists_taken true fun value found =>
        (kinds.enabled value found).imp fun _ => decodeBoolean_eq_ok_iff.mpr
    obtain ⟨merge, merge_given⟩ : ∃ setting, taken decodeBoolean true
        (valueAt? "highlight" "merge_adjacent" entries) = .ok setting :=
      exists_taken true fun value found =>
        (kinds.mergeAdjacent value found).imp fun _ => decodeBoolean_eq_ok_iff.mpr
    obtain ⟨theme, theme_given⟩ : ∃ setting, taken decodeTheme .dark
        (valueAt? "highlight" "theme" entries) = .ok setting := by
      refine exists_taken Theme.dark fun value found => ?_
      obtain ⟨theme, named⟩ := kinds.theme value found
      exact ⟨theme, (decodeTheme_eq_ok_iff named).mpr named⟩
    obtain ⟨colors, colors_set⟩ : ∃ colors, setAll setColor (tableAt "colors" entries) .empty =
        .ok colors := by
      refine exists_setAll takes_color (fun entry mem => ?_) .empty
      have found := (find?_eq_some_iff (wellNamed.tables "colors")).mpr mem
      exact (kinds.colors entry.1 entry.2 found).imp fun _ => decodeString_eq_ok_iff.mpr
    obtain ⟨extensions, extensions_given⟩ : ∃ setting, taken decodeStrings []
        (valueAt? "files" "extra_extensions" entries) = .ok setting :=
      exists_taken [] fun value found =>
        (kinds.extraExtensions value found).imp fun _ => decodeStrings_eq_ok_iff.mpr
    refine ⟨⟨⟨enabled, merge, theme⟩, colors, extensions⟩, ?_⟩
    rw [decode_eq_ok_iff wellNamed.own, groupsGiven_iff tabular,
      setHighlight_eq_ok_iff (wellNamed.tables "highlight"),
      setFiles_eq_ok_iff (wellNamed.tables "files")]
    exact ⟨⟨enabled_given, merge_given, theme_given⟩, colors_set, extensions_given⟩

end document

def IsSetting (group name : String) : Prop :=
  group = "highlight" ∧ name ∈ ["enabled", "merge_adjacent", "theme"] ∨ group = "colors" ∨
    group = "files" ∧ name = "extra_extensions"

/-- Two documents give the same settings: the same scalars, arrays with the same scalars in them, or
both something else. -/
def GiveAlike (entries others : Entries) : Prop := ∀ group name, IsSetting group name →
  (valueAt? group name entries).map (fun value => (value.scalar?, value.scalars?)) =
    (valueAt? group name others).map (fun value => (value.scalar?, value.scalars?))

theorem Overrides.congr {α : Type} {Shows : Value → α → Prop} {standard setting : α}
    {given other : Option Value}
    (alike : given.map (fun value => (value.scalar?, value.scalars?)) =
      other.map (fun value => (value.scalar?, value.scalars?)))
    (respects : ∀ {value other : Value}, value.scalar? = other.scalar? →
      value.scalars? = other.scalars? → Shows value setting → Shows other setting)
    (overrides : Overrides Shows standard setting given) :
    Overrides Shows standard setting other := by
  cases given with
  | none =>
    obtain rfl := Option.map_eq_none_iff.mp alike.symm
    exact overrides
  | some value =>
    obtain ⟨value', rfl, both⟩ := Option.map_eq_some_iff.mp alike.symm
    obtain ⟨scalar, scalars⟩ := Prod.mk.inj both
    exact respects scalar.symm scalars.symm overrides

/-- Settings that one document is decoded as, another one that gives the same is decoded as, too. -/
theorem Realizes.congr {entries others : Entries} {config : Config} (alike : GiveAlike entries others)
    (realizes : Realizes entries config) : Realizes others config := by
  have scalar {value other : Value} {scalar : Scalar} (same : value.scalar? = other.scalar?)
      (shown : value = .scalar scalar) : other = .scalar scalar := by
    rw [← Value.scalar?_eq_some_iff] at shown ⊢
    exact same.symm.trans shown
  refine ⟨realizes.enabled.congr (alike _ _ (by simp [IsSetting])) fun same _ => scalar same,
    realizes.mergeAdjacent.congr (alike _ _ (by simp [IsSetting])) fun same _ => scalar same,
    realizes.theme.congr (alike _ _ (by simp [IsSetting])) fun same _ => scalar same,
    fun name => (realizes.colors name).congr (alike _ _ (by simp [IsSetting])) fun same _ shown => ?_,
    realizes.extraExtensions.congr (alike _ _ (by simp [IsSetting])) fun _ same => same.symm.trans⟩
  obtain ⟨text, string, setting⟩ := shown
  exact ⟨text, scalar same string, setting⟩

/-- A setting that no value without tables gives is the standard one. -/
theorem Overrides.eq_standard {α : Type} {Shows : Value → α → Prop} {standard setting : α}
    {given : Option Value} (overrides : Overrides Shows standard setting given)
    (no_leaf : ∀ value, value.IsLeaf → given ≠ some value)
    (usual : ∀ {value}, ¬value.IsLeaf → Shows value setting → setting = standard) :
    setting = standard := by
  cases given with
  | none => exact overrides
  | some value => exact usual (fun leaf => no_leaf value leaf rfl) overrides

/-- Documents with the same values that are no tables do not differ in a setting that is shown by such
values only. -/
theorem Overrides.eq_of_leaf {α : Type} {Shows : Value → α → Prop} {standard a b : α}
    {given other : Option Value} (left : Overrides Shows standard a given)
    (right : Overrides Shows standard b other)
    (alike : ∀ value, value.IsLeaf → (given = some value ↔ other = some value))
    (functional : ∀ {value}, Shows value a → Shows value b → a = b)
    (usual : ∀ {value setting}, ¬value.IsLeaf → Shows value setting → setting = standard) :
    a = b := by
  by_cases leaf : ∃ value, value.IsLeaf ∧ given = some value
  · obtain ⟨value, leaf, found⟩ := leaf
    exact functional (left.given found) (right.given ((alike value leaf).mp found))
  · have none_left : ∀ value, value.IsLeaf → given ≠ some value := fun value is_leaf found =>
      leaf ⟨value, is_leaf, found⟩
    have none_right : ∀ value, value.IsLeaf → other ≠ some value := fun value is_leaf found =>
      none_left value is_leaf ((alike value is_leaf).mpr found)
    rw [left.eq_standard none_left usual, right.eq_standard none_right usual]

/-- Only the empty array of strings can be written with tables. -/
theorem IsStrings.eq_nil {value : Value} {texts : List String} (strings : IsStrings value texts)
    (no_leaf : ¬value.IsLeaf) : texts = [] := by
  rw [IsStrings] at strings
  cases value with
  | scalar scalar => contradiction
  | array items => exact (no_leaf ⟨nofun, nofun⟩).elim
  | table origin entries => contradiction
  | tables items =>
    cases texts with
    | nil => rfl
    | cons text texts =>
      have first := congrArg List.head? (Option.some.inj strings)
      cases items <;> simp at first

/-- Documents with the same values that are no tables are not decoded as different settings. -/
theorem Realizes.eq_of_leaf {entries others : Entries} {a b : Config} (left : Realizes entries a)
    (right : Realizes others b)
    (alike : ∀ group name, IsSetting group name → ∀ value, value.IsLeaf →
      (valueAt? group name entries = some value ↔ valueAt? group name others = some value)) :
    a = b := by
  have scalar {α : Type} {scalar : Scalar} {value : Value} {setting standard : α}
      (no_leaf : ¬value.IsLeaf) (shown : value = .scalar scalar) : setting = standard :=
    (no_leaf (shown ▸ ⟨nofun, nofun⟩)).elim
  have enabled := left.enabled.eq_of_leaf right.enabled (alike _ _ (by simp [IsSetting]))
    (shown_unique fun _ => decodeBoolean_eq_ok_iff) scalar
  have merge := left.mergeAdjacent.eq_of_leaf right.mergeAdjacent (alike _ _ (by simp [IsSetting]))
    (shown_unique fun _ => decodeBoolean_eq_ok_iff) scalar
  have theme := left.theme.eq_of_leaf right.theme (alike _ _ (by simp [IsSetting]))
    (fun named => shown_unique (fun _ => decodeTheme_eq_ok_iff named) named) scalar
  have colors : a.colors = b.colors := NameMap.ext_get? fun name => by
    refine (left.colors name).eq_of_leaf (right.colors name) (alike _ _ (by simp [IsSetting])) ?_ ?_
    · rintro value ⟨text, one, same⟩ ⟨text', other, same'⟩
      cases one.symm.trans other
      exact same.trans same'.symm
    · rintro value setting no_leaf ⟨text, string, -⟩
      exact scalar no_leaf string
  have extensions := left.extraExtensions.eq_of_leaf right.extraExtensions
    (alike _ _ (by simp [IsSetting])) (shown_unique fun _ => decodeStrings_eq_ok_iff)
    fun no_leaf strings => strings.eq_nil no_leaf
  obtain ⟨⟨_, _, _⟩, _, _⟩ := a
  obtain ⟨⟨_, _, _⟩, _, _⟩ := b
  cases enabled
  cases merge
  cases theme
  cases colors
  cases extensions
  rfl

/-- A file holds a document of some statements and the tables that they make. In them groups of
settings are tables, and the theme is a string. -/
structure Holds (tree : FileTree) (path : String) (statements : List Statement) (entries : Entries) :
    Prop where
  text : ∃ text : String, tree.read path = .ok text.toUTF8 ∧
    statementsOf? text.toList = some statements
  made : Entries.ofStatements statements = some entries
  tabular : Tabular entries

/-- A file with a document is loaded as the settings that the document is decoded as. -/
theorem Holds.load_eq_ok_iff {tree : FileTree} {path : String} {statements : List Statement}
    {entries : Entries} (holds : Holds tree path statements entries) {config : Config} :
    load tree path = .ok config ↔ decode entries = .ok config := by
  obtain ⟨text, file, read⟩ := holds.text
  have document : document? text.toList = some entries := by
    rw [document?_eq, read]
    exact holds.made
  rw [load, file, ofRead, ofBytes, decodeUtf8_toUTF8]
  simp only [ofText, document]
  cases decode entries <;> simp

theorem Holds.wellNamed {tree : FileTree} {path : String} {statements : List Statement}
    {entries : Entries} (holds : Holds tree path statements entries) : WellNamed entries := by
  obtain ⟨text, -, read⟩ := holds.text
  exact (ofStatements_spec (statementsOf?_wellNamed read) holds.made).1

/-- The values of settings in a file are those that its lines assign. -/
theorem Holds.valueAt?_iff {tree : FileTree} {path : String} {statements : List Statement}
    {entries : Entries} (holds : Holds tree path statements entries) {group name : String}
    {value : Value} (setting : IsSetting group name) (leaf : value.IsLeaf) :
    valueAt? group name entries = some value ↔ Assigned statements group name value := by
  obtain ⟨text, -, read⟩ := holds.text
  have only : OnlyTable group entries := by
    apply holds.tabular.groups
    rcases setting with ⟨rfl, -⟩ | rfl | ⟨rfl, -⟩ <;> simp
  exact (ofStatements_spec (statementsOf?_wellNamed read) holds.made).2 only leaf

/-- A file is loaded as the standard settings with those replaced that it gives. -/
theorem Holds.load_eq_ok_iff_realizes {tree : FileTree} {path : String}
    {statements : List Statement} {entries : Entries} (holds : Holds tree path statements entries)
    {config : Config} : load tree path = .ok config ↔ Realizes entries config :=
  holds.load_eq_ok_iff.trans (decode_eq_ok_iff_realizes holds.wellNamed holds.tabular)

theorem loadUsual_of_error {tree : FileTree} (failed : ∀ config, load tree fileName ≠ .ok config) :
    loadUsual tree = standard := by
  rw [loadUsual, ofReadOrStandard]
  split
  · rfl
  · rename_i config loaded
    exact absurd loaded (failed config)

/-- A file is loaded exactly if the settings in it are of their kinds. The settings are then the
standard ones with those replaced that the file gives. What the file gives are the values that its
lines assign to the names of settings, in any order and however the tables are written. Names that are
no settings do not count. If the usual file is not loaded, the settings are the standard ones. -/
theorem load_overrides_standard {tree : FileTree} {path : String} {statements : List Statement}
    {entries : Entries} (holds : Holds tree path statements entries) :
    ((∃ config, load tree path = .ok config) ↔ WellKinded entries) ∧
    (∀ config, load tree path = .ok config ↔ Realizes entries config) ∧
    (∀ group name value, IsSetting group name → value.IsLeaf →
      (valueAt? group name entries = some value ↔ Assigned statements group name value)) ∧
    (∀ other place lines others, Holds other place lines others →
      (GiveAlike entries others → (load tree path).toOption = (load other place).toOption) ∧
      ((∀ group name value, IsSetting group name → value.IsLeaf →
          (Assigned statements group name value ↔ Assigned lines group name value)) →
        ∀ a b, load tree path = .ok a → load other place = .ok b → a = b)) ∧
    (path = fileName → (∀ config, load tree path ≠ .ok config) → loadUsual tree = standard) := by
  refine ⟨?_, fun _ => holds.load_eq_ok_iff_realizes, fun _ _ _ => holds.valueAt?_iff,
    fun other place lines others also => ⟨fun alike => ?_, fun alike a b loaded loaded' => ?_⟩, ?_⟩
  · simp only [holds.load_eq_ok_iff]
    exact exists_decode_iff holds.wellNamed holds.tabular
  · apply Option.ext
    intro config
    have back : GiveAlike others entries := fun group name setting => (alike group name setting).symm
    have loaded_iff (result : Except ConfigError Config) :
        result.toOption = some config ↔ result = .ok config := by
      cases result <;> simp [Except.toOption]
    rw [loaded_iff, loaded_iff, holds.load_eq_ok_iff_realizes, also.load_eq_ok_iff_realizes]
    exact ⟨fun realizes => realizes.congr alike, fun realizes => realizes.congr back⟩
  · refine (holds.load_eq_ok_iff_realizes.mp loaded).eq_of_leaf
      (also.load_eq_ok_iff_realizes.mp loaded') fun group name setting value leaf => ?_
    rw [holds.valueAt?_iff setting leaf, also.valueAt?_iff setting leaf]
    exact alike group name value setting leaf
  · rintro rfl failed
    exact loadUsual_of_error failed

def mixedText : String :=
  "colors = \x7b k = \"c\" \x7d\nhighlight.theme = \"light\"\n[files]\nseed = 1\n"

def mixedStatements : List Statement :=
  [.entry ⟨[], "colors"⟩ (.table .braces [("k", .scalar (.string "c"))]),
   .entry ⟨["highlight"], "theme"⟩ (.scalar (.string "light")), .table ⟨[], "files"⟩,
   .entry ⟨[], "seed"⟩ (.scalar (.integer 1))]

def mixedEntries : Entries :=
  [("colors", .table .braces [("k", .scalar (.string "c"))]),
   ("highlight", .table .dotted [("theme", .scalar (.string "light"))]),
   ("files", .table .header [("seed", .scalar (.integer 1))])]

/-- A file with this text is loaded as the standard settings with one colour and the light theme. -/
theorem load_overrides_standard_of_mixed :
    Holds ⟨[([['c']], .file mixedText.toUTF8)]⟩ "c" mixedStatements mixedEntries ∧
    load ⟨[([['c']], .file mixedText.toUTF8)]⟩ "c" =
      .ok ⟨⟨true, true, .light⟩, NameMap.empty.insert "k" "c", []⟩ := by
  have read : statementsOf? mixedText.toList = some mixedStatements := by
    rw [mixedText, mixedStatements]
    cbv
  have made : Entries.ofStatements mixedStatements = some mixedEntries := rfl
  have file : FileTree.read ⟨[([['c']], .file mixedText.toUTF8)]⟩ "c" = .ok mixedText.toUTF8 := rfl
  have tabular : Tabular mixedEntries := by
    refine ⟨fun group mem value found => ?_, fun value found => ?_⟩
    · simp only [List.mem_cons, List.not_mem_nil, or_false] at mem
      rcases mem with rfl | rfl | rfl <;> cases found <;> exact ⟨_, _, rfl⟩
    · cases found
      exact ⟨_, rfl⟩
  have holds : Holds ⟨[([['c']], .file mixedText.toUTF8)]⟩ "c" mixedStatements mixedEntries :=
    ⟨⟨mixedText, file, read⟩, made, tabular⟩
  obtain ⟨-, loads, -⟩ := load_overrides_standard holds
  refine ⟨holds, (loads _).mpr ⟨rfl, rfl, rfl, fun name => ?_, rfl⟩⟩
  by_cases same : name = "k"
  · subst same
    exact ⟨"c", rfl, rfl⟩
  · have absent : valueAt? "colors" name mixedEntries = none := if_neg same
    rw [absent]
    exact (NameMap.get?_insert _ _ _ _).trans (if_neg same)

end Config

end HaskellHighlight
