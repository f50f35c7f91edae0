/-! The arguments of the command line. They are read from left to right, and the first one that
settles the outcome counts: a mistake, or the wish for the version or for help. -/
namespace HaskellHighlight.CommandLine

/-- How highlighted text is written out. -/
inductive Format where
  | ansi | plain | json
  deriving DecidableEq, Repr

def Format.ofName? : String → Option Format
  | "ansi" => some .ansi
  | "plain" => some .plain
  | "json" => some .json
  | _ => none

/-- What to highlight and how. -/
structure Arguments where
  file : Option String
  format : Format
  config : Option String
  listTokens : Bool
  verbosity : Nat
  deriving DecidableEq, Repr

/-- What the arguments ask for. -/
inductive Request where
  | highlight (arguments : Arguments)
  | version
  | help
  | invalid
  deriving DecidableEq, Repr

/-- Options that take a value. -/
inductive ValueOption where
  | format | config
  deriving DecidableEq, Repr

/-- The arguments read so far. `due` is an option whose value comes next, and `onlyFiles` is set
once a double dash has ended the options. -/
structure Progress where
  file : Option String
  format : Option Format
  config : Option String
  listTokens : Bool
  verbosity : Nat
  due : Option ValueOption
  onlyFiles : Bool
  deriving DecidableEq, Repr

namespace Progress

def start : Progress := ⟨none, none, none, false, 0, none, false⟩

def setValue (progress : Progress) : ValueOption → String → Option Progress
  | .format, text =>
    if progress.format.isSome then none
    else (Format.ofName? text).map fun format =>
      { progress with format := some format, due := none }
  | .config, text =>
    if progress.config.isSome || text.isEmpty then none
    else some { progress with config := some text, due := none }

def setFile (progress : Progress) (path : String) : Option Progress :=
  if progress.due.isSome || progress.file.isSome || path.isEmpty then none
  else some { progress with file := some path }

def setListTokens (progress : Progress) : Option Progress :=
  if progress.listTokens then none else some { progress with listTokens := true }

def finish (progress : Progress) : Request :=
  if progress.due.isSome then .invalid
  else .highlight ⟨progress.file, progress.format.getD .ansi, progress.config,
    progress.listTokens, progress.verbosity⟩

end Progress

abbrev Step := Except Request Progress

def orInvalid : Option Progress → Step
  | some progress => .ok progress
  | none => .error .invalid

/-- Takes the letters of options behind a single dash. The value of an option follows its letter,
after an equals sign if there is one, or is the next argument. -/
def letters (progress : Progress) : List Char → Step
  | [] => .ok progress
  | letter :: rest =>
    let valued (option : ValueOption) : Step :=
      match rest with
      | [] => .ok { progress with due := some option }
      | '=' :: value => orInvalid (progress.setValue option (String.ofList value))
      | value => orInvalid (progress.setValue option (String.ofList value))
    if letter = 'v' then letters { progress with verbosity := progress.verbosity + 1 } rest
    else if letter = 'V' then .error .version
    else if letter = 'h' then .error .help
    else if letter = 'f' then valued .format
    else if letter = 'c' then valued .config
    else .error .invalid

def long (progress : Progress) (name : List Char) (value : Option (List Char)) : Step :=
  let valued (option : ValueOption) : Step :=
    match value with
    | none => .ok { progress with due := some option }
    | some value => orInvalid (progress.setValue option (String.ofList value))
  match String.ofList name, value with
  | "format", _ => valued .format
  | "config", _ => valued .config
  | "list-tokens", none => orInvalid progress.setListTokens
  | "verbose", none => .ok { progress with verbosity := progress.verbosity + 1 }
  | "version", none => .error .version
  | "help", none => .error .help
  | _, _ => .error .invalid

def option (progress : Progress) (text : List Char) : Step :=
  if progress.due.isSome then .error .invalid
  else match text with
    | '-' :: '-' :: [] => .ok { progress with onlyFiles := true }
    | '-' :: '-' :: word =>
      let name := word.takeWhile (· ≠ '=')
      match word.drop name.length with
      | [] => long progress name none
      | _ :: value => long progress name (some value)
    | _ => letters progress text.tail

/-- Takes one argument. A single dash is a value like any other. -/
def argument (progress : Progress) (text : String) : Step :=
  match text.toList with
  | '-' :: c :: rest =>
    if progress.onlyFiles then orInvalid (progress.setFile text)
    else option progress ('-' :: c :: rest)
  | _ => match progress.due with
    | some due => orInvalid (progress.setValue due text)
    | none => orInvalid (progress.setFile text)

def Request.ofArguments (arguments : List String) : Request :=
  match arguments.foldlM argument Progress.start with
  | .ok progress => progress.finish
  | .error request => request

end HaskellHighlight.CommandLine
