import HaskellHighlight.Config.Basic
import HaskellHighlight.Text
import HaskellHighlight.Toml.Reader

/-! Settings out of a TOML document. Settings that are absent keep their standard values and names
that mean nothing are skipped; the first value of a wrong kind, in the order of the document, is an
error. -/
namespace HaskellHighlight

/-- The kinds of value that messages tell apart. -/
inductive Found where
  | integer (value : Int)
  | float (value : Toml.Binary64)
  | boolean (value : Bool)
  | string (text : String)
  | sequence
  | map
  deriving DecidableEq, Repr

/-- What a setting has to be. -/
inductive Expected where
  | boolean | string | sequence | map | highlightSettings | fileSettings
  deriving DecidableEq, Repr

/-- Why a document gives no settings. -/
inductive DecodeError where
  | wrongKind (found : Found) (expected : Expected)
  | unknownTheme (name : String)
  | badTheme
  deriving DecidableEq, Repr

/-- The kind of a value. Tables, dates and times count as maps. -/
def Found.ofValue : Toml.Value → Found
  | .scalar (.integer value) => .integer value
  | .scalar (.float value) => .float value
  | .scalar (.boolean value) => .boolean value
  | .scalar (.string text) => .string text
  | .scalar (.dateTime _) => .map
  | .array _ | .tables _ => .sequence
  | .table _ _ => .map

def Found.text : Found → String
  | .integer value => s!"integer `{value}`"
  | .float value =>
    let number := String.ofList value.text
    s!"floating point `{number}`"
  | .boolean value => s!"boolean `{value}`"
  | .string text =>
    let quoted := String.ofList (Text.quoted text.toList)
    s!"string {quoted}"
  | .sequence => "sequence"
  | .map => "map"

def Expected.text : Expected → String
  | .boolean => "a boolean"
  | .string => "a string"
  | .sequence => "a sequence"
  | .map => "a map"
  | .highlightSettings => "struct HighlightConfig"
  | .fileSettings => "struct FileConfig"

def DecodeError.message? : DecodeError → Option String
  | .wrongKind found expected =>
    let found := found.text
    let expected := expected.text
    some s!"invalid type: {found}, expected {expected}"
  | .unknownTheme name => some s!"unknown variant `{name}`, expected `dark` or `light`"
  | .badTheme => none

namespace Config

abbrev Decoder (α : Type) := Toml.Value → Except DecodeError α

def wrongKind {α : Type} (value : Toml.Value) (expected : Expected) : Except DecodeError α :=
  .error (.wrongKind (Found.ofValue value) expected)

def decodeBoolean : Decoder Bool
  | .scalar (.boolean value) => .ok value
  | value => wrongKind value .boolean

def decodeString : Decoder String
  | .scalar (.string text) => .ok text
  | value => wrongKind value .string

def isEmptyContainer : Toml.Value → Bool
  | .table _ entries => entries.isEmpty
  | .array items => items.isEmpty
  | _ => false

/-- A theme: its name, or a table with the name as its only key and nothing under it. -/
def decodeTheme : Decoder Theme
  | .scalar (.string name) => match Theme.ofName? name with
    | some theme => .ok theme
    | none => .error (.unknownTheme name)
  | .table _ [(name, value)] => match Theme.ofName? name with
    | some theme => if isEmptyContainer value then .ok theme else .error .badTheme
    | none => .error (.unknownTheme name)
  | _ => .error .badTheme

def decodeStrings : Decoder (List String)
  | .array items => items.mapM decodeString
  | .tables items => items.mapM fun entries => decodeString (.table .header entries)
  | value => wrongKind value .sequence

/-- The name under which a date or a time stands where it is taken for a map. -/
def dateTimeName : String := "$__toml_private_datetime"

def decodeColors : Decoder (NameMap String)
  | .table _ entries => do
    let colors ← entries.mapM fun (name, value) => return (name, ← decodeString value)
    return NameMap.ofList colors
  | .scalar (.dateTime text) => .ok (NameMap.ofList [(dateTimeName, text)])
  | value => wrongKind value .map

abbrev Setter (σ : Type) := σ → String → Toml.Value → Except DecodeError σ

/-- A group of settings: a table, or an array with the settings in the order of `names`. What the
array holds beyond them is skipped. A date or a time is a map without any setting. -/
def decodeGroup {σ : Type} (expected : Expected) (names : List String) (set : Setter σ)
    (start : σ) : Decoder σ
  | .table _ entries => entries.foldlM (fun group (name, value) => set group name value) start
  | .array items =>
    (names.zip items).foldlM (fun group (name, value) => set group name value) start
  | .tables items =>
    (names.zip items).foldlM
      (fun group (name, entries) => set group name (.table .header entries)) start
  | .scalar (.dateTime _) => .ok start
  | value => wrongKind value expected

def setHighlight : Setter HighlightSettings := fun settings name value =>
  if name = "enabled" then do return { settings with enabled := ← decodeBoolean value }
  else if name = "merge_adjacent" then do
    return { settings with mergeAdjacent := ← decodeBoolean value }
  else if name = "theme" then do return { settings with theme := ← decodeTheme value }
  else .ok settings

def setFiles : Setter (List String) := fun extensions name value =>
  if name = "extra_extensions" then decodeStrings value else .ok extensions

def setGroup : Setter Config := fun config name value =>
  if name = "highlight" then do
    let names := ["enabled", "merge_adjacent", "theme"]
    return { config with
      highlight := ← decodeGroup .highlightSettings names setHighlight .standard value }
  else if name = "colors" then do return { config with colors := ← decodeColors value }
  else if name = "files" then do
    return { config with
      extraExtensions := ← decodeGroup .fileSettings ["extra_extensions"] setFiles [] value }
  else .ok config

def decode (entries : Toml.Entries) : Except DecodeError Config :=
  entries.foldlM (fun config (name, value) => setGroup config name value) standard

end Config

end HaskellHighlight
