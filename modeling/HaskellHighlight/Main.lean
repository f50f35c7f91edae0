import HaskellHighlight.CommandLine.Run

/-! The program. -/
namespace HaskellHighlight.CommandLine

def fileErrorOf : IO.Error → FileError
  | .noFileOrDirectory .. => .notFound
  | .inappropriateType .. => .notADirectory
  | .alreadyExists .. => .alreadyExists
  | _ => .isADirectory

def readOutside (read : IO ByteArray) : IO (Except FileError ByteArray) :=
  tryCatch (do return .ok (← read)) fun error => return .error (fileErrorOf error)

partial def readStream (stream : IO.FS.Stream) (before : ByteArray) : IO ByteArray := do
  let more ← stream.read 65536
  if more.isEmpty then return before else readStream stream (before ++ more)

/-- The file with the usual settings: inside the configuration directory of the user, or else
inside that of the home directory. -/
def usualConfigFile : IO (Option String) := do
  let inside (directory : String) := directory ++ "/" ++ Config.fileName
  match ← IO.getEnv "XDG_CONFIG_HOME" with
  | some directory => if directory.startsWith "/" then return some (inside directory)
  | none => pure ()
  match ← IO.getEnv "HOME" with
  | some home => return if home.isEmpty then none else some (inside (home ++ "/.config"))
  | none => return none

end HaskellHighlight.CommandLine

open HaskellHighlight CommandLine

def main (arguments : List String) : IO UInt32 := do
  let environment : Environment IO :=
    ⟨← usualConfigFile, fun path => readOutside (IO.FS.readBinFile path),
      readOutside do readStream (← IO.getStdin) .empty,
      fun text => do (← IO.getStdout).putStr text⟩
  let outcome ← run environment arguments
  match outcome with
  | .success _ => pure ()
  | .failure cause => (← IO.getStderr).putStrLn ("Error: " ++ cause.message)
  | .misuse => (← IO.getStderr).putStrLn helpText
  return outcome.exitCode
