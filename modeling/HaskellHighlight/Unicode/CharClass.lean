import HaskellHighlight.Unicode.Alphanumeric
import HaskellHighlight.Unicode.Uppercase
import HaskellHighlight.Unicode.Unseen

/-! Character classes of Unicode, and those of ASCII that the lexical syntax of Haskell uses. -/
namespace HaskellHighlight.Unicode

/-- The property White_Space of Unicode 17.0. -/
def blankRanges : List (Nat × Nat) :=
   [(0x9, 0xD), (0x20, 0x20), (0x85, 0x85), (0xA0, 0xA0), (0x1680, 0x1680), (0x2000, 0x200A),
    (0x2028, 0x2029), (0x202F, 0x202F), (0x205F, 0x205F), (0x3000, 0x3000)]

def blankTable : RangeTable where
  ranges := blankRanges
  ascending := by decide +kernel

def isAlphabetic (c : Char) : Bool := alphabeticTable.contains c

def isUppercase (c : Char) : Bool := uppercaseTable.contains c

/-- Alphabetic characters and numbers of every kind. -/
def isAlphanumeric (c : Char) : Bool := isAlphabetic c || numeralTable.contains c

def isBlank (c : Char) : Bool := blankTable.contains c

/-- Marks that join the character before them, such as combining accents. Letters that extend
others, such as the half-width voiced sound mark, have a cell of their own and are no marks. -/
def isExtendingMark (c : Char) : Bool := extendingMarkTable.contains c

def isDefaultIgnorable (c : Char) : Bool := defaultIgnorableTable.contains c

def isUnprintable (c : Char) : Bool := unprintableTable.contains c

def isAsciiDigit (c : Char) : Bool := '0' ≤ c && c ≤ '9'

def isOctalDigit (c : Char) : Bool := '0' ≤ c && c ≤ '7'

def isAsciiUppercase (c : Char) : Bool := 'A' ≤ c && c ≤ 'Z'

def isAsciiLowercase (c : Char) : Bool := 'a' ≤ c && c ≤ 'z'

def isAsciiAlphanumeric (c : Char) : Bool :=
  isAsciiDigit c || isAsciiUppercase c || isAsciiLowercase c

def hexDigitValue? (c : Char) : Option Nat :=
  if isAsciiDigit c then some (c.toNat - 0x30)
  else if 'a' ≤ c && c ≤ 'f' then some (c.toNat - 0x57)
  else if 'A' ≤ c && c ≤ 'F' then some (c.toNat - 0x37)
  else none

def isHexDigit (c : Char) : Bool := (hexDigitValue? c).isSome

def isAscii (c : Char) : Bool := c.toNat < 0x80

end HaskellHighlight.Unicode
