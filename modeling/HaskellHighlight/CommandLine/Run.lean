import HaskellHighlight.CommandLine.Arguments
import HaskellHighlight.Config.Store
import HaskellHighlight.Lexer.Cursor
import HaskellHighlight.Render
import HaskellHighlight.Session

/-! A run of the program, from its arguments to what it writes. Reading and writing are left to the
monad that it runs in, so that a run in a tree of files and one in the real world are one
definition. -/
namespace HaskellHighlight.CommandLine

/-- Why a run fails after its arguments were read. -/
inductive Failure where
  | configUnreadable (path : String)
  | badConfiguration
  | notHaskell (path : String) (extensions : List String)
  | fileUnreadable (path : String)
  | inputUnreadable
  | misplacedHighlight
  deriving DecidableEq, Repr

def Failure.message : Failure → String
  | .configUnreadable path => s!"Failed to load config from {path}"
  | .badConfiguration => "Invalid configuration"
  | .notHaskell path extensions =>
    let known := ", ".intercalate extensions
    s!"{path} is not a Haskell file (known extensions: {known})"
  | .fileUnreadable path => s!"Failed to read {path}"
  | .inputUnreadable => "Failed to read stdin"
  | .misplacedHighlight => "A highlight does not fit the text"

/-- What a run leaves: the text it writes, and why it fails where it does. -/
inductive Outcome where
  | success (output : String)
  | failure (cause : Failure)
  | misuse
  deriving DecidableEq, Repr

def Outcome.exitCode : Outcome → UInt32
  | .success _ => 0
  | .failure _ => 1
  | .misuse => 2

def Outcome.output : Outcome → String
  | .success output => output
  | _ => ""

/-- The outside of a run: the file with the usual settings, the content of a file, the content of
the standard input, and the standard output. -/
structure Environment (m : Type → Type) where
  usualConfig : Option String
  readFile : String → m (Except FileError ByteArray)
  readInput : m (Except FileError ByteArray)
  write : String → m Unit

def Environment.ofTree (tree : FileTree) (usualConfig : Option String) (input : ByteArray) :
    Environment Id := ⟨usualConfig, tree.read, .ok input, fun _ => ()⟩

def versionText : String := "hslight 0.1.0\n"

def helpText : String :=
  "Usage: hslight [OPTIONS] [FILE]\n\nHighlights a Haskell file, or the standard input.\n\n" ++
  "  -f, --format <FORMAT>  ansi, plain or json\n" ++
  "  -c, --config <PATH>    Settings to use instead of the usual ones\n" ++
  "      --list-tokens      Print every token instead of highlighting\n" ++
  "  -v, --verbose          Accepted any number of times\n" ++
  "  -h, --help             Print help\n" ++
  "  -V, --version          Print version\n"

def Format.render (format : Format) (scheme : Scheme) (text : List Char)
    (highlights : List Highlight) : Option (List Char) :=
  match format with
  | .ansi => Render.ansi scheme text highlights
  | .plain => Render.plain text highlights
  | .json => Render.json scheme text highlights

/-- What is written for a source text. A listing of tokens depends on the text alone. -/
def output? (arguments : Arguments) (session : Session) (text : List Char) :
    Option (List Char) :=
  let tokens := Lexer.tokens text
  if arguments.listTokens then Render.tokenListing text tokens
  else
    let settings := session.config.highlight
    let highlights :=
      if settings.enabled then Highlight.ofTokens settings.mergeAdjacent tokens else []
    arguments.format.render session.scheme text highlights

def settings {m : Type → Type} [Monad m] (environment : Environment m) (arguments : Arguments) :
    m (Except Failure Config) :=
  match arguments.config, environment.usualConfig with
  | some path, _ => return match Config.ofRead (← environment.readFile path) with
    | .error _ => .error (.configUnreadable path)
    | .ok config => .ok config
  | none, some path => return .ok (Config.ofReadOrStandard (← environment.readFile path))
  | none, none => return .ok .standard

/-- The source text of a run: that of the given file, which has to go by the name of a Haskell
file, or else the standard input. -/
def source {m : Type → Type} [Monad m] (environment : Environment m) (arguments : Arguments)
    (session : Session) : m (Except Failure String) :=
  match arguments.file with
  | some path =>
    if session.registry.languageFor? path = some .haskell then
      return match (← environment.readFile path) >>= decodeUtf8 with
        | .error _ => .error (.fileUnreadable path)
        | .ok text => .ok text
    else return .error (.notHaskell path session.registry.extensions)
  | none => return match (← environment.readInput) >>= decodeUtf8 with
    | .error _ => .error .inputUnreadable
    | .ok text => .ok text

/-- Highlights what the arguments name. The first stage that fails ends the run, and nothing is
written before all of them are done. -/
def highlight {m : Type → Type} [Monad m] (environment : Environment m) (arguments : Arguments) :
    m Outcome := do
  match ← settings environment arguments with
  | .error cause => return .failure cause
  | .ok config => match Session.ofConfig config with
    | .error _ => return .failure .badConfiguration
    | .ok session => match ← source environment arguments session with
      | .error cause => return .failure cause
      | .ok text => match output? arguments session text.toList with
        | none => return .failure .misplacedHighlight
        | some output =>
          environment.write (String.ofList output)
          return .success (String.ofList output)

def run {m : Type → Type} [Monad m] (environment : Environment m) (arguments : List String) :
    m Outcome := do
  match Request.ofArguments arguments with
  | .highlight arguments => highlight environment arguments
  | .version =>
    environment.write versionText
    return .success versionText
  | .help =>
    environment.write helpText
    return .success helpText
  | .invalid => return .misuse

end HaskellHighlight.CommandLine
