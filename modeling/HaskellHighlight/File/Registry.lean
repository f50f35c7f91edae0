import HaskellHighlight.File.Basic
import HaskellHighlight.NameMap

/-! Which files hold which language, by the extensions of their names. -/
namespace HaskellHighlight

/-- A language. Its `id` is compared with case. -/
structure Language where
  id : String
  displayName : String
  caseSensitive : Bool
  deriving DecidableEq, Repr

/-- A type of file, with the extension it goes by unless told otherwise. -/
structure FileType where
  name : String
  description : String
  extension : String
  language : Language
  deriving DecidableEq, Repr

def Language.haskell : Language := ⟨"Haskell", "Haskell language", true⟩

def FileType.haskell : FileType := ⟨"Haskell file", "Haskell language file", "hs", .haskell⟩

/-- Why an extension cannot be registered. -/
inductive RegistryError where
  | emptyExtension
  | extensionTaken (extension existing : String)
  deriving DecidableEq, Repr

def RegistryError.message : RegistryError → String
  | .emptyExtension => "Empty file extension"
  | .extensionTaken extension existing =>
    s!"Extension .{extension} is already registered to {existing}"

/-- File types by normalised extension, and languages by their ids. -/
structure Registry where
  fileTypes : NameMap FileType
  languages : NameMap Language
  deriving DecidableEq

namespace Registry

/-- Extensions are compared without leading dots and without the case of ASCII letters. -/
def normalize (extension : String) : String :=
  String.ofList ((extension.toList.dropWhile (· = '.')).map Char.toLower)

def empty : Registry := ⟨.empty, .empty⟩

def bind (registry : Registry) (extension : String) (type : FileType) : Registry where
  fileTypes := registry.fileTypes.insert extension type
  languages := registry.languages.insert type.language.id type.language

def builtin : Registry := empty.bind (normalize FileType.haskell.extension) .haskell

/-- Binds an extension to a file type. A binding made before stays: to bind it again to the same
type changes nothing, and to another type is an error. -/
def registerExtension (registry : Registry) (extension : String) (type : FileType) :
    Except RegistryError Registry :=
  let extension := normalize extension
  if extension = "" then .error .emptyExtension
  else match registry.fileTypes.get? extension with
    | none => .ok (registry.bind extension type)
    | some existing =>
      if existing = type then .ok registry
      else .error (.extensionTaken extension existing.name)

def register (registry : Registry) (type : FileType) : Except RegistryError Registry :=
  registry.registerExtension type.extension type

def withExtensions (extensions : List String) : Except RegistryError Registry :=
  extensions.foldlM (·.registerExtension · .haskell) builtin

def fileTypeFor? (registry : Registry) (path : String) : Option FileType :=
  (File.extension? path).bind fun extension => registry.fileTypes.get? (normalize extension)

def languageFor? (registry : Registry) (path : String) : Option Language :=
  (registry.fileTypeFor? path).map (·.language)

def language? (registry : Registry) (id : String) : Option Language := registry.languages.get? id

def extensions (registry : Registry) : List String := registry.fileTypes.names

end Registry

end HaskellHighlight
