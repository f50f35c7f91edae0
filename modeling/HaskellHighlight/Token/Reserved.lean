/-! The reserved words and operators of Haskell 2010, the words that import declarations give a
meaning, and the special characters, each with its one spelling. -/
namespace HaskellHighlight

/-- Reserved identifiers. -/
inductive ReservedWord where
  | caseWord | classWord | dataWord | defaultWord | derivingWord | doWord | elseWord | foreignWord
  | ifWord | importWord | inWord | infixWord | infixlWord | infixrWord | instanceWord | letWord
  | moduleWord | newtypeWord | ofWord | thenWord | typeWord | whereWord | underscore
  deriving DecidableEq, Repr

/-- Reserved operators. -/
inductive ReservedOp where
  | dotDot | colon | colonColon | equals | backslash | verticalBar | leftArrow | rightArrow
  | atSign | tilde | doubleRightArrow
  deriving DecidableEq, Repr

/-- Words with a meaning of their own inside import declarations only. -/
inductive ContextWord where
  | asWord | qualifiedWord | hidingWord
  deriving DecidableEq, Repr

/-- Characters that are tokens by themselves. -/
inductive Special where
  | leftParen | rightParen | leftBracket | rightBracket | leftBrace | rightBrace
  | comma | semicolon | backquote
  deriving DecidableEq, Repr

namespace ReservedWord

def all : List ReservedWord :=
  [caseWord, classWord, dataWord, defaultWord, derivingWord, doWord, elseWord, foreignWord,
   ifWord, importWord, inWord, infixWord, infixlWord, infixrWord, instanceWord, letWord,
   moduleWord, newtypeWord, ofWord, thenWord, typeWord, whereWord, underscore]

def spelling : ReservedWord → String
  | caseWord => "case"
  | classWord => "class"
  | dataWord => "data"
  | defaultWord => "default"
  | derivingWord => "deriving"
  | doWord => "do"
  | elseWord => "else"
  | foreignWord => "foreign"
  | ifWord => "if"
  | importWord => "import"
  | inWord => "in"
  | infixWord => "infix"
  | infixlWord => "infixl"
  | infixrWord => "infixr"
  | instanceWord => "instance"
  | letWord => "let"
  | moduleWord => "module"
  | newtypeWord => "newtype"
  | ofWord => "of"
  | thenWord => "then"
  | typeWord => "type"
  | whereWord => "where"
  | underscore => "_"

def ofSpelling? (text : String) : Option ReservedWord := all.find? (·.spelling = text)

theorem mem_all (word : ReservedWord) : word ∈ all := by cases word <;> decide

theorem ofSpelling?_spelling (word : ReservedWord) : ofSpelling? word.spelling = some word := by
  cases word <;> decide

theorem ofSpelling?_eq_some_iff {text : String} {word : ReservedWord} :
    ofSpelling? text = some word ↔ text = word.spelling :=
  ⟨fun h => by simpa [eq_comm] using List.find?_some h, fun h => h ▸ ofSpelling?_spelling word⟩

end ReservedWord

namespace ReservedOp

def all : List ReservedOp :=
  [dotDot, colon, colonColon, equals, backslash, verticalBar, leftArrow, rightArrow, atSign,
   tilde, doubleRightArrow]

def spelling : ReservedOp → String
  | dotDot => ".."
  | colon => ":"
  | colonColon => "::"
  | equals => "="
  | backslash => "\\"
  | verticalBar => "|"
  | leftArrow => "<-"
  | rightArrow => "->"
  | atSign => "@"
  | tilde => "~"
  | doubleRightArrow => "=>"

def ofSpelling? (text : String) : Option ReservedOp := all.find? (·.spelling = text)

theorem mem_all (op : ReservedOp) : op ∈ all := by cases op <;> decide

theorem ofSpelling?_spelling (op : ReservedOp) : ofSpelling? op.spelling = some op := by
  cases op <;> decide

theorem ofSpelling?_eq_some_iff {text : String} {op : ReservedOp} :
    ofSpelling? text = some op ↔ text = op.spelling :=
  ⟨fun h => by simpa [eq_comm] using List.find?_some h, fun h => h ▸ ofSpelling?_spelling op⟩

end ReservedOp

namespace ContextWord

def all : List ContextWord := [asWord, qualifiedWord, hidingWord]

def spelling : ContextWord → String
  | asWord => "as"
  | qualifiedWord => "qualified"
  | hidingWord => "hiding"

def ofSpelling? (text : String) : Option ContextWord := all.find? (·.spelling = text)

theorem mem_all (word : ContextWord) : word ∈ all := by cases word <;> decide

theorem ofSpelling?_spelling (word : ContextWord) : ofSpelling? word.spelling = some word := by
  cases word <;> decide

theorem ofSpelling?_eq_some_iff {text : String} {word : ContextWord} :
    ofSpelling? text = some word ↔ text = word.spelling :=
  ⟨fun h => by simpa [eq_comm] using List.find?_some h, fun h => h ▸ ofSpelling?_spelling word⟩

end ContextWord

namespace Special

def all : List Special :=
  [leftParen, rightParen, leftBracket, rightBracket, leftBrace, rightBrace, comma, semicolon,
   backquote]

def char : Special → Char
  | leftParen => '('
  | rightParen => ')'
  | leftBracket => '['
  | rightBracket => ']'
  | leftBrace => '\x7b'
  | rightBrace => '\x7d'
  | comma => ','
  | semicolon => ';'
  | backquote => '\x60'

def ofChar? (c : Char) : Option Special := all.find? (·.char = c)

theorem mem_all (special : Special) : special ∈ all := by cases special <;> decide

theorem ofChar?_char (special : Special) : ofChar? special.char = some special := by
  cases special <;> decide

theorem ofChar?_eq_some_iff {c : Char} {special : Special} :
    ofChar? c = some special ↔ c = special.char :=
  ⟨fun h => by simpa [eq_comm] using List.find?_some h, fun h => h ▸ ofChar?_char special⟩

end Special

end HaskellHighlight
