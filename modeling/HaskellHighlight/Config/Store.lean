import HaskellHighlight.Config.Decode
import HaskellHighlight.Config.Basic
import HaskellHighlight.File.Tree

/-! Settings in files. -/
namespace HaskellHighlight

/-- Why a file gives no settings: it cannot be read, it is no TOML document, or the document holds
something else. -/
inductive ConfigError where
  | file (error : FileError)
  | malformed
  | decode (error : DecodeError)
  deriving DecidableEq, Repr

namespace Config

def ofText (text : String) : Except ConfigError Config :=
  match Toml.document? text.toList with
  | none => .error .malformed
  | some entries => match decode entries with
    | .error error => .error (.decode error)
    | .ok config => .ok config

def ofBytes (bytes : ByteArray) : Except ConfigError Config :=
  match decodeUtf8 bytes with
  | .error error => .error (.file error)
  | .ok text => ofText text

def ofRead : Except FileError ByteArray → Except ConfigError Config
  | .error error => .error (.file error)
  | .ok bytes => ofBytes bytes

def ofReadOrStandard (read : Except FileError ByteArray) : Config :=
  match ofRead read with
  | .error _ => standard
  | .ok config => config

def fileName : String := "hslight/config.toml"

def load (tree : FileTree) (path : String) : Except ConfigError Config := ofRead (tree.read path)

/-- Reads settings from the usual file. Where that fails in any way they are the standard ones. -/
def loadUsual (tree : FileTree) : Config := ofReadOrStandard (tree.read fileName)

def save (config : Config) (tree : FileTree) (path : String) :
    FileTree × Except FileError Unit := tree.save path (String.ofList config.write).toUTF8

end Config

end HaskellHighlight
