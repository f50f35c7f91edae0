import HaskellHighlight.Unicode.CharClass
import HaskellHighlight.Token.Basic

/-! The character classes of the lexical syntax, in which letters without case count as small, and how
far literals reach: lengths in characters, so that `List.drop` gives what they leave. -/
namespace HaskellHighlight.Lexer
open Unicode

def isLineBreak (c : Char) : Bool := c = '\n' || c = '\r'

def isSpace (c : Char) : Bool := isBlank c && !isLineBreak c

def isSmall (c : Char) : Bool := c = '_' || (isAlphabetic c && !isUppercase c)

def isLarge (c : Char) : Bool := isUppercase c

def isIdentChar (c : Char) : Bool := isAlphanumeric c || c = '_' || c = '\''

def asciiSymbols : List Char := "!#$%&*+./<=>?@\\^|-~:".toList

/-- Operator characters: those of ASCII, and outside ASCII every character that is neither
alphanumeric nor blank. -/
def isSymbol (c : Char) : Bool :=
  if isAscii c then asciiSymbols.contains c else !isAlphanumeric c && !isBlank c

/-- Characters that name a control character after a caret. -/
def isControlName (c : Char) : Bool := isAsciiUppercase c || "@[\\]^_".toList.contains c

def runLength (p : Char → Bool) (text : List Char) : Nat := (text.takeWhile p).length

/-- Where the scan of a string literal stands: among ordinary characters, after the backslash of
an escape, after the caret of an escape, or in the blanks of a gap. -/
inductive StringMode where
  | body | escape | caret | gap
  deriving DecidableEq, Repr

/-- The length of a string literal from a point inside it. It ends after its closing quote, or
before a line break that no gap skips, or with the text. -/
def stringTail : StringMode → List Char → Nat
  | _, [] => 0
  | .body, c :: rest =>
    if c = '"' then 1
    else if isLineBreak c then 0
    else if c = '\\' then 1 + stringTail .escape rest
    else 1 + stringTail .body rest
  | .escape, c :: rest =>
    if isBlank c then 1 + stringTail .gap rest
    else if c = '^' then 1 + stringTail .caret rest
    else 1 + stringTail .body rest
  | .caret, c :: rest =>
    if isControlName c then 1 + stringTail .body rest
    else if c = '"' then 1
    else if isLineBreak c then 0
    else 1 + stringTail .body rest
  | .gap, c :: rest =>
    if isBlank c then 1 + stringTail .gap rest
    else if c = '"' then 1
    else 1 + stringTail .body rest

/-- The length of what follows the backslash in a character literal: a control escape, or any
character of the line with the letters and digits after it. -/
def escapeLength : List Char → Nat
  | [] => 0
  | c :: rest =>
    if c = '^' && rest.head?.any isControlName then 2
    else if isLineBreak c then 0
    else 1 + runLength isAsciiAlphanumeric rest

def characterTail? (text : List Char) : Option Nat :=
  match text with
  | [] => none
  | c :: rest =>
    if c = '\'' || isLineBreak c then none
    else
      let body := if c = '\\' then 1 + escapeLength rest else 1
      if (text.drop body).head? = some '\'' then some (body + 1) else none

def fractionLength : List Char → Nat
  | [] => 0
  | c :: rest =>
    let digits := runLength isAsciiDigit rest
    if c = '.' && digits ≠ 0 then 1 + digits else 0

def exponentLength : List Char → Nat
  | [] => 0
  | c :: rest =>
    let sign := if rest.head? = some '+' || rest.head? = some '-' then 1 else 0
    let digits := runLength isAsciiDigit (rest.drop sign)
    if (c = 'e' || c = 'E') && digits ≠ 0 then 1 + sign + digits else 0

def decimalNumber (text : List Char) : LiteralForm × Nat :=
  let whole := runLength isAsciiDigit text
  let fraction := fractionLength (text.drop whole)
  let exponent := exponentLength (text.drop (whole + fraction))
  (if fraction = 0 && exponent = 0 then .decimal else .float, whole + fraction + exponent)

/-- The form and the length of the number at the front of a text that starts with a digit. A base
mark without a digit of its base is not part of the number. -/
def number (text : List Char) : LiteralForm × Nat :=
  match text with
  | '0' :: mark :: rest =>
    if (mark = 'x' || mark = 'X') && rest.head?.any isHexDigit then
      (.hexadecimal, 2 + runLength isHexDigit rest)
    else if (mark = 'o' || mark = 'O') && rest.head?.any isOctalDigit then
      (.octal, 2 + runLength isOctalDigit rest)
    else decimalNumber text
  | _ => decimalNumber text

end HaskellHighlight.Lexer
