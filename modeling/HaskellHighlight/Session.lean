import HaskellHighlight.Config.Basic
import HaskellHighlight.File.Registry

/-! Settings that were checked: what is needed to highlight files. -/
namespace HaskellHighlight

/-- Why settings cannot be used. -/
inductive SessionError where
  | registry (error : RegistryError)
  | unknownKey (name : String)
  | invalidColor (text : String)
  deriving DecidableEq, Repr

def SessionError.message : SessionError → String
  | .registry error =>
    let text := error.message
    s!"Registry error: {text}"
  | .unknownKey name => s!"Color scheme error: Unknown highlight key in [colors]: {name}"
  | .invalidColor text => s!"Color scheme error: Invalid color (expected #rrggbb): {text}"

/-- Settings together with the file types and the colours they stand for. -/
structure Session where
  config : Config
  registry : Registry
  scheme : Scheme

def Scheme.overrideNamed (scheme : Scheme) (entry : String × String) :
    Except SessionError Scheme :=
  match Key.ofName? entry.1 with
  | none => .error (.unknownKey entry.1)
  | some key => match Rgb.parse? entry.2 with
    | none => .error (.invalidColor entry.2)
    | some color => .ok (scheme.override key color)

/-- The colours of settings. Names are taken in ascending order, so that the first bad one is
reported. -/
def Scheme.ofConfig (config : Config) : Except SessionError Scheme :=
  config.colors.entries.foldlM Scheme.overrideNamed (Scheme.ofTheme config.highlight.theme)

def Session.ofConfig (config : Config) : Except SessionError Session :=
  match Registry.withExtensions config.extraExtensions with
  | .error error => .error (.registry error)
  | .ok registry => match Scheme.ofConfig config with
    | .error error => .error error
    | .ok scheme => .ok ⟨config, registry, scheme⟩

end HaskellHighlight
