import HaskellHighlight.Text
import HaskellHighlight.Toml.Reader

/-! Writing of TOML strings, keys and arrays of strings. Of the written forms of a string the first
is taken that shows it without escapes. -/
namespace HaskellHighlight.Toml

def isControl (c : Char) : Bool := (c.toNat < 0x20 && c ≠ '\t' && c ≠ '\n') || c.toNat = 0x7F

/-- The length of the longest run of a character, where `current` of it have just passed. -/
def longestRun (c : Char) (current : Nat) : List Char → Nat
  | [] => current
  | d :: rest =>
    if d = c then longestRun c (current + 1) rest else max current (longestRun c 0 rest)

namespace StringForm

def ofText (text : List Char) : StringForm :=
  let plain := !text.any isControl
  let slash := text.contains '\\'
  let lines := text.contains '\n'
  let double := longestRun '"' 0 text
  let single := longestRun '\'' 0 text
  if plain && !slash && double = 0 && !lines then .basic
  else if plain && single = 0 && !lines then .literal
  else if plain && !slash && double ≤ 2 then .multilineBasic
  else if plain && single ≤ 2 then .multilineLiteral
  else if lines then .multilineBasic
  else .basic

def escape? (form : StringForm) (c : Char) : Option (List Char) :=
  if c = '\x08' then some ['\\', 'b']
  else if c = '\t' then some ['\\', 't']
  else if c = '\x0c' then some ['\\', 'f']
  else if c = '\r' then some ['\\', 'r']
  else if c = '\\' then some ['\\', '\\']
  else if c = '\n' then if form.isMultiline then none else some ['\\', 'n']
  else if isControl c then
    some (['\\', 'u'] ++ (Text.hexDigits 4 c.toNat).map Char.toUpper)
  else none

def maxQuotes (form : StringForm) : Nat := if form.isMultiline then 2 else 0

/-- The text of a string inside a basic form, after so many quotation marks in a row. -/
def escaped (form : StringForm) (quotes : Nat) : List Char → List Char
  | [] => []
  | c :: rest =>
    if c = '"' then
      if quotes < form.maxQuotes then c :: form.escaped (quotes + 1) rest
      else '\\' :: c :: form.escaped 0 rest
    else match form.escape? c with
      | some escape => escape ++ form.escaped 0 rest
      | none => c :: form.escaped 0 rest

def write (form : StringForm) (text : List Char) : List Char :=
  let marks := List.replicate (if form.isMultiline then 3 else 1) form.quote
  let opening := if form.isMultiline && text.contains '\n' then marks ++ ['\n'] else marks
  opening ++ (if form.escapes then form.escaped 0 text else text) ++ marks

end StringForm

def writeString (text : List Char) : List Char := (StringForm.ofText text).write text

/-- A key of one name: bare where that is possible, or else on one line in the first form that
needs no escapes. -/
def writeName (name : List Char) : List Char :=
  let plain := !name.any isControl && !name.contains '\n'
  if !name.isEmpty && name.all isBareChar then name
  else if plain && !name.contains '\\' && !name.contains '"' then StringForm.basic.write name
  else if plain && !name.contains '\'' then StringForm.literal.write name
  else StringForm.basic.write name

/-- An array of strings: on one line with at most one item, and else with a line for each. -/
def writeStrings : List (List Char) → List Char
  | [] => ['[', ']']
  | [item] => '[' :: writeString item ++ [']']
  | items =>
    ['[', '\n'] ++ items.flatMap (fun item => "    ".toList ++ writeString item ++ [',', '\n']) ++
      [']']

def writeEntry (name value : List Char) : List Char :=
  writeName name ++ [' ', '=', ' '] ++ value ++ ['\n']

def writeHeader (name : List Char) : List Char := '[' :: writeName name ++ [']', '\n']

end HaskellHighlight.Toml
