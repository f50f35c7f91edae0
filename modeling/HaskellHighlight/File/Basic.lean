/-! The names inside a file path, and why a file cannot be read or written. Slashes separate names;
repeated and trailing slashes and single dots add none. -/
namespace HaskellHighlight

namespace File

def splitOn (separator : Char) : List Char → List (List Char)
  | [] => [[]]
  | c :: rest =>
    if c = separator then [] :: splitOn separator rest
    else match splitOn separator rest with
      | [] => [[c]]
      | part :: parts => (c :: part) :: parts

/-- The components of a path that name something: neither empty nor a single dot. -/
def components (path : String) : List (List Char) :=
  (splitOn '/' path.toList).filter fun part => part ≠ [] && part ≠ ['.']

def name? (path : String) : Option (List Char) :=
  (components path).getLast?.filter (· ≠ ['.', '.'])

/-- What follows the last dot of a file name. A dot in front of all else begins no extension. -/
def nameExtension? (name : List Char) : Option (List Char) :=
  let backwards := name.reverse
  let extension := (backwards.takeWhile (· ≠ '.')).reverse
  match backwards.dropWhile (· ≠ '.') with
  | _ :: _ :: _ => some extension
  | _ => none

def extension? (path : String) : Option String :=
  (name? path).bind fun name => (nameExtension? name).map String.ofList

end File

/-- Causes of failure with files. -/
inductive FileError where
  | notFound | alreadyExists | notADirectory | isADirectory | notUtf8
  deriving DecidableEq, Repr

def FileError.message : FileError → String
  | .notFound => "No such file or directory (os error 2)"
  | .alreadyExists => "File exists (os error 17)"
  | .notADirectory => "Not a directory (os error 20)"
  | .isADirectory => "Is a directory (os error 21)"
  | .notUtf8 => "stream did not contain valid UTF-8"

def decodeUtf8 (bytes : ByteArray) : Except FileError String :=
  match String.fromUTF8? bytes with
  | some text => .ok text
  | none => .error .notUtf8

theorem decodeUtf8_toUTF8 (text : String) : decodeUtf8 text.toUTF8 = .ok text := by
  have valid : text.toUTF8.IsValidUTF8 := text.isValidUTF8
  have : String.fromUTF8? text.toUTF8 = some text := by
    rw [String.fromUTF8?, dif_pos valid]
    rfl
  rw [decodeUtf8, this]

/-- Bytes are decoded to a text only if they are the bytes of that text. -/
theorem decodeUtf8_eq_ok_iff {bytes : ByteArray} {text : String} :
    decodeUtf8 bytes = .ok text ↔ bytes = text.toUTF8 := by
  refine ⟨fun decoded => ?_, fun same => same ▸ decodeUtf8_toUTF8 text⟩
  rw [decodeUtf8, String.fromUTF8?] at decoded
  by_cases valid : bytes.IsValidUTF8
  · rw [dif_pos valid] at decoded
    obtain rfl := Except.ok.inj decoded
    rfl
  · rw [dif_neg valid] at decoded
    contradiction

end HaskellHighlight
