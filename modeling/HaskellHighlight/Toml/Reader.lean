import HaskellHighlight.Toml.DateTime
import HaskellHighlight.Toml.Number
import HaskellHighlight.Toml.StringForm
import HaskellHighlight.Toml.Table

/-! Reading of TOML documents. Readers give a value and the text after it. Loops take a number of
rounds that the length of their text bounds, since every round takes a character away. -/
namespace HaskellHighlight.Toml

def maxNesting : Nat := 79

def maxNames : Nat := 79

def isBlank (c : Char) : Bool := c = ' ' || c = '\t'

def skipBlanks (text : List Char) : List Char := text.dropWhile isBlank

def lineBreak? : List Char → Option (List Char)
  | '\n' :: rest => some rest
  | '\r' :: '\n' :: rest => some rest
  | _ => none

def skipComment (text : List Char) : List Char :=
  if text.head? = some '#' then text.dropWhile StringForm.isTextChar else text

def lineEnd? (text : List Char) : Option (List Char) :=
  let rest := skipComment (skipBlanks text)
  if rest.isEmpty then some [] else lineBreak? rest

/-- Drops blanks, line breaks and comments. A comment has to end in a line break. -/
def skipLines : Nat → List Char → Option (List Char)
  | 0, text => some text
  | rounds + 1, text =>
    let text := skipBlanks text
    match text with
    | '#' :: _ => do skipLines rounds (← lineBreak? (skipComment text))
    | '\n' :: _ | '\r' :: _ => do skipLines rounds (← lineBreak? text)
    | _ => some text

def skipSpace (text : List Char) : Option (List Char) := skipLines (text.length + 1) text

def isBareChar (c : Char) : Bool := Unicode.isAsciiAlphanumeric c || c = '_' || c = '-'

def name? (text : List Char) : Option (String × List Char) :=
  match StringForm.singleLine? text with
  | some (name, rest) => some (String.ofList name, rest)
  | none =>
    let name := text.takeWhile isBareChar
    if name.isEmpty then none else some (String.ofList name, text.drop name.length)

def names? : Nat → List Char → Option (List String × List Char)
  | 0, _ => none
  | rounds + 1, text => do
    let (name, rest) ← name? (skipBlanks text)
    match skipBlanks rest with
    | '.' :: rest =>
      let (names, rest) ← names? rounds rest
      return (name :: names, rest)
    | rest => return ([name], rest)

def path? (text : List Char) : Option (Path × List Char) := do
  let (names, rest) ← names? text.length text
  let name ← names.getLast?
  if maxNames < names.length then none
  return (⟨names.dropLast, name⟩, rest)

def number? (text : List Char) : Option (Value × List Char) :=
  match dateTime? text with
  | some (dateTime, rest) => some (.scalar (.dateTime (String.ofList dateTime)), rest)
  | none => match float? text with
    | some (value, rest) => some (.scalar (.float value), rest)
    | none => (integer? text).map fun (value, rest) => (.scalar (.integer value), rest)

def scalar? (text : List Char) : Option (Value × List Char) :=
  match text with
  | '"' :: _ | '\'' :: _ =>
    (StringForm.read? text).map fun (string, rest) =>
      (.scalar (.string (String.ofList string)), rest)
  | 't' :: 'r' :: 'u' :: 'e' :: rest => some (.scalar (.boolean true), rest)
  | 'f' :: 'a' :: 'l' :: 's' :: 'e' :: rest => some (.scalar (.boolean false), rest)
  | _ => number? text

/-- Reads the items of an array up to the closing bracket. A comma may stand after the last. -/
def items? (value? : List Char → Option (Value × List Char)) :
    Nat → List Char → Option (List Value × List Char)
  | 0, _ => none
  | rounds + 1, text => do
    match ← skipSpace text with
    | ']' :: rest => return ([], rest)
    | text =>
      let (item, rest) ← value? text
      match ← skipSpace rest with
      | ',' :: rest =>
        let (items, rest) ← items? value? rounds rest
        return (item :: items, rest)
      | ']' :: rest => return ([item], rest)
      | _ => none

def keyValue? (value? : List Char → Option (Value × List Char)) (text : List Char) :
    Option ((Path × Value) × List Char) := do
  let (path, rest) ← path? text
  let rest ← char? '=' rest
  let (value, rest) ← value? (skipBlanks rest)
  return ((path, value), rest)

/-- Reads the entries of an inline table up to the closing brace, at least one. No comma may stand
after the last. -/
def entries? (value? : List Char → Option (Value × List Char)) :
    Nat → List Char → Option (List (Path × Value) × List Char)
  | 0, _ => none
  | rounds + 1, text => do
    let (entry, rest) ← keyValue? value? text
    match skipBlanks rest with
    | ',' :: rest =>
      let (entries, rest) ← entries? value? rounds rest
      return (entry :: entries, rest)
    | '\x7d' :: rest => return ([entry], rest)
    | _ => none

def inlineTable? (value? : List Char → Option (Value × List Char)) (text : List Char) :
    Option (Value × List Char) := do
  let (values, rest) ← match skipBlanks text with
    | '\x7d' :: rest => some ([], rest)
    | text => entries? value? text.length text
  let entries ← Entries.addAll [] values
  return (.table .braces entries, rest)

/-- Reads a value in which arrays and inline tables nest no deeper than `nesting`. -/
def value? : Nat → List Char → Option (Value × List Char)
  | nesting, '[' :: rest => match nesting with
    | 0 => none
    | nesting + 1 =>
      (items? (value? nesting) (rest.length + 1) rest).map fun (items, rest) =>
        (.array items, rest)
  | nesting, '\x7b' :: rest => match nesting with
    | 0 => none
    | nesting + 1 => inlineTable? (value? nesting) rest
  | _, text => scalar? text

def statement? (text : List Char) : Option (Statement × List Char) :=
  match text with
  | '[' :: '[' :: rest => do
    let (path, rest) ← path? rest
    let rest ← char? ']' rest
    let rest ← char? ']' rest
    return (.element path, ← lineEnd? rest)
  | '[' :: rest => do
    let (path, rest) ← path? rest
    let rest ← char? ']' rest
    return (.table path, ← lineEnd? rest)
  | text => do
    let ((path, value), rest) ← keyValue? (value? maxNesting) text
    return (.entry path value, ← lineEnd? rest)

def statements? : Nat → List Char → Option (List Statement)
  | 0, _ => none
  | rounds + 1, text =>
    if text.isEmpty then some []
    else match lineEnd? text with
      | some rest => statements? rounds rest
      | none => do
        let (statement, rest) ← statement? (skipBlanks text)
        return statement :: (← statements? rounds rest)

/-- Reads a document. A byte order mark in front is dropped. -/
def document? (text : List Char) : Option Entries := do
  let text := if text.head? = some '\uFEFF' then text.tail else text
  let statements ← statements? (text.length + 1) text
  Entries.ofStatements statements

end HaskellHighlight.Toml
