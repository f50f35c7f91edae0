import HaskellHighlight.Unicode.CharClass

/-! The four written forms of a TOML string, and how each is read. -/
namespace HaskellHighlight.Toml

/-- Ways to write a string: with escapes or without, on one line or on several. -/
inductive StringForm where
  | basic | literal | multilineBasic | multilineLiteral
  deriving DecidableEq, Repr

namespace StringForm

def quote : StringForm → Char
  | .basic | .multilineBasic => '"'
  | .literal | .multilineLiteral => '\''

def escapes : StringForm → Bool
  | .basic | .multilineBasic => true
  | .literal | .multilineLiteral => false

def isMultiline : StringForm → Bool
  | .multilineBasic | .multilineLiteral => true
  | .basic | .literal => false

def isTextChar (c : Char) : Bool := c = '\t' || (0x20 ≤ c.toNat && c.toNat ≠ 0x7F)

def shortEscape? : Char → Option Char
  | 'b' => some '\x08'
  | 't' => some '\t'
  | 'n' => some '\n'
  | 'f' => some '\x0c'
  | 'r' => some '\r'
  | '"' => some '"'
  | '\\' => some '\\'
  | _ => none

def scalar? (code : Nat) : Option Char :=
  if h : code.isValidChar then some (Char.ofNatAux code h) else none

/-- Where the reading of a string stands: in its text, after some quotation marks in a row, after
the carriage return of a line break, after a backslash, among the hexadecimal digits of an escape,
in the blanks that a backslash takes away up to a line break, after the carriage return of that
break, or in the blanks after it. -/
inductive Mode where
  | text
  | quotes (count : Nat)
  | lineBreak
  | escape
  | code (left value : Nat)
  | gapBefore
  | gapBreak
  | gapAfter
  deriving DecidableEq, Repr

def textStep (form : StringForm) (c : Char) : Option (List Char × Mode) :=
  if c = form.quote then some ([], .quotes 1)
  else if c = '\\' && form.escapes then some ([], .escape)
  else if c = '\n' && form.isMultiline then some (['\n'], .text)
  else if c = '\r' && form.isMultiline then some ([], .lineBreak)
  else if isTextChar c then some ([c], .text)
  else none

/-- What a character after a backslash adds. Blanks up to a line break and all blanks and line
breaks after it are dropped. -/
def escapeStep (form : StringForm) (c : Char) : Option (List Char × Mode) :=
  if c = 'u' then some ([], .code 4 0)
  else if c = 'U' then some ([], .code 8 0)
  else if form.isMultiline && (c = ' ' || c = '\t') then some ([], .gapBefore)
  else if form.isMultiline && c = '\n' then some ([], .gapAfter)
  else if form.isMultiline && c = '\r' then some ([], .gapBreak)
  else (shortEscape? c).map fun d => ([d], .text)

def step (form : StringForm) (c : Char) : Mode → Option (List Char × Mode)
  | .text => form.textStep c
  | .quotes count =>
    if c = form.quote then some ([], .quotes (count + 1))
    else (form.textStep c).map fun (added, mode) => (List.replicate count form.quote ++ added, mode)
  | .lineBreak => if c = '\n' then some (['\n'], .text) else none
  | .escape => form.escapeStep c
  | .code left value => do
    let value := 16 * value + (← Unicode.hexDigitValue? c)
    if left ≤ 1 then (scalar? value).map fun d => ([d], .text) else some ([], .code (left - 1) value)
  | .gapBefore =>
    if c = ' ' || c = '\t' then some ([], .gapBefore)
    else if c = '\n' then some ([], .gapAfter)
    else if c = '\r' then some ([], .gapBreak)
    else none
  | .gapBreak => if c = '\n' then some ([], .gapAfter) else none
  | .gapAfter =>
    if c = ' ' || c = '\t' || c = '\n' then some ([], .gapAfter)
    else if c = '\r' then some ([], .gapBreak)
    else form.textStep c

/-- What is left over of quotation marks in a row that end a string. One mark ends a string on one
line. Three end one on several lines, with one or two more before them as part of it. -/
def closing? (form : StringForm) : Mode → Option (List Char)
  | .quotes count =>
    if form.isMultiline then
      if 3 ≤ count && count ≤ 5 then some (List.replicate (count - 3) form.quote) else none
    else some []
  | _ => none

/-- Whether no further character can belong to the string. -/
def isClosed (form : StringForm) (next? : Option Char) : Mode → Bool
  | .quotes count => !form.isMultiline || (3 ≤ count && next? ≠ some form.quote)
  | _ => false

def body (form : StringForm) : Mode → List Char → Option (List Char × List Char)
  | mode, [] => (form.closing? mode).map (·, [])
  | mode, c :: rest =>
    if form.isClosed (some c) mode then (form.closing? mode).map (·, c :: rest)
    else do
      let (added, mode) ← form.step c mode
      let (text, rest) ← form.body mode rest
      return (added ++ text, rest)

def dropLineBreak : List Char → List Char
  | '\n' :: rest => rest
  | '\r' :: '\n' :: rest => rest
  | text => text

def singleLine? : List Char → Option (List Char × List Char)
  | '"' :: rest => basic.body .text rest
  | '\'' :: rest => literal.body .text rest
  | _ => none

/-- Reads a string in any form. A line break right after three opening marks is dropped. -/
def read? : List Char → Option (List Char × List Char)
  | '"' :: '"' :: '"' :: rest => multilineBasic.body .text (dropLineBreak rest)
  | '\'' :: '\'' :: '\'' :: rest => multilineLiteral.body .text (dropLineBreak rest)
  | text => singleLine? text

end StringForm

end HaskellHighlight.Toml
