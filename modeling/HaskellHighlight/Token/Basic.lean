import HaskellHighlight.Token.Reserved
import HaskellHighlight.Text

/-! The kinds of lexical unit that a Haskell source text is divided into, and tokens: a kind together
with the part of the text it covers. -/
namespace HaskellHighlight

/-- Forms of literal. -/
inductive LiteralForm where
  | string | character | decimal | float | hexadecimal | octal
  deriving DecidableEq, Repr

/-- Forms of name: identifiers and operators, each for variables and for constructors. -/
inductive NameForm where
  | varId | conId | varSym | conSym
  deriving DecidableEq, Repr

/-- The kind of a token. `dot` is the separator of a qualified name, or a lone `.` operator, and
`badCharacter` is a character that starts no other kind. -/
inductive Kind where
  | reservedWord (word : ReservedWord)
  | reservedOp (op : ReservedOp)
  | contextWord (word : ContextWord)
  | literal (form : LiteralForm)
  | name (form : NameForm)
  | dot
  | special (char : Special)
  | lineComment
  | blockComment
  | whitespace
  | newline
  | badCharacter
  deriving DecidableEq, Repr

namespace Kind

def reservedWords : List Kind := ReservedWord.all.map reservedWord

def reservedOps : List Kind := ReservedOp.all.map reservedOp

def contextWords : List Kind := ContextWord.all.map contextWord

def comments : List Kind := [lineComment, blockComment]

def all : List Kind :=
  reservedWords ++ reservedOps ++ contextWords ++
    [literal .string, literal .character, literal .decimal, literal .float, literal .hexadecimal,
     literal .octal, name .varId, name .conId, name .varSym, name .conSym, dot] ++
    Special.all.map special ++ comments ++ [whitespace, newline, badCharacter]

def isTrivia : Kind → Bool
  | lineComment | blockComment | whitespace | newline => true
  | _ => false

def label : Kind → String
  | reservedWord word => match word with
    | .caseWord => "Case"
    | .classWord => "Class"
    | .dataWord => "Data"
    | .defaultWord => "Default"
    | .derivingWord => "Deriving"
    | .doWord => "Do"
    | .elseWord => "Else"
    | .foreignWord => "Foreign"
    | .ifWord => "If"
    | .importWord => "Import"
    | .inWord => "In"
    | .infixWord => "Infix"
    | .infixlWord => "Infixl"
    | .infixrWord => "Infixr"
    | .instanceWord => "Instance"
    | .letWord => "Let"
    | .moduleWord => "Module"
    | .newtypeWord => "Newtype"
    | .ofWord => "Of"
    | .thenWord => "Then"
    | .typeWord => "Type"
    | .whereWord => "Where"
    | .underscore => "Underscore"
  | reservedOp op => match op with
    | .dotDot => "DotDot"
    | .colon => "Colon"
    | .colonColon => "ColonColon"
    | .equals => "Equals"
    | .backslash => "Backslash"
    | .verticalBar => "VerticalBar"
    | .leftArrow => "LeftArrow"
    | .rightArrow => "RightArrow"
    | .atSign => "At"
    | .tilde => "Tilde"
    | .doubleRightArrow => "DoubleRightArrow"
  | contextWord word => match word with
    | .asWord => "As"
    | .qualifiedWord => "Qualified"
    | .hidingWord => "Hiding"
  | literal form => match form with
    | .string => "StringLiteral"
    | .character => "CharacterLiteral"
    | .decimal => "Decimal"
    | .float => "Float"
    | .hexadecimal => "Hexadecimal"
    | .octal => "Octal"
  | name form => match form with
    | .varId => "VarId"
    | .conId => "ConId"
    | .varSym => "VarSym"
    | .conSym => "ConSym"
  | dot => "Dot"
  | special char => match char with
    | .leftParen => "LeftParen"
    | .rightParen => "RightParen"
    | .leftBracket => "LeftBracket"
    | .rightBracket => "RightBracket"
    | .leftBrace => "LeftBrace"
    | .rightBrace => "RightBrace"
    | .comma => "Comma"
    | .semicolon => "Semicolon"
    | .backquote => "Backquote"
  | lineComment => "LineComment"
  | blockComment => "BlockComment"
  | whitespace => "Whitespace"
  | newline => "Newline"
  | badCharacter => "BadCharacter"

def ofLabel? (text : String) : Option Kind := all.find? (·.label = text)

theorem mem_all (kind : Kind) : kind ∈ all := by
  cases kind with
  | reservedWord word => cases word <;> decide
  | reservedOp op => cases op <;> decide
  | contextWord word => cases word <;> decide
  | literal form => cases form <;> decide
  | name form => cases form <;> decide
  | special char => cases char <;> decide
  | _ => decide

private theorem labels_nodup : (all.map label).Nodup := by decide +kernel

private theorem eq_of_label_eq {kinds : List Kind} (nodup : (kinds.map label).Nodup)
    {a b : Kind} (ha : a ∈ kinds) (hb : b ∈ kinds) (h : a.label = b.label) : a = b := by
  induction kinds with
  | nil => simp at ha
  | cons k kinds ih =>
    rw [List.map_cons, List.nodup_cons] at nodup
    rcases List.mem_cons.1 ha with rfl | ha' <;> rcases List.mem_cons.1 hb with rfl | hb'
    · rfl
    · exact absurd (h ▸ List.mem_map_of_mem hb') nodup.1
    · exact absurd (h ▸ List.mem_map_of_mem ha') nodup.1
    · exact ih nodup.2 ha' hb'

theorem label_inj {a b : Kind} : a.label = b.label ↔ a = b :=
  ⟨eq_of_label_eq labels_nodup (mem_all a) (mem_all b), fun h => h ▸ rfl⟩

/-- A label gives back its kind and nothing else gives one. -/
theorem ofLabel?_eq_some_iff {text : String} {kind : Kind} :
    ofLabel? text = some kind ↔ text = kind.label := by
  constructor
  · intro h
    simpa [eq_comm] using List.find?_some h
  · rintro rfl
    rcases h : ofLabel? kind.label with _ | found
    · have := List.find?_eq_none.1 h kind (mem_all kind)
      simp at this
    · have : found.label = kind.label := by simpa using List.find?_some h
      rw [label_inj.1 this]

end Kind

/-- A half-open range of byte offsets into a text. -/
structure Span where
  start : Nat
  stop : Nat
  deriving DecidableEq, Repr

def Span.slice? (span : Span) (text : List Char) : Option (List Char) :=
  Text.slice? text span.start span.stop

def Span.shift (span : Span) (bytes : Nat) : Span := ⟨span.start + bytes, span.stop + bytes⟩

/-- A token of a source text. -/
structure Token where
  kind : Kind
  span : Span
  deriving DecidableEq, Repr

def Token.shift (token : Token) (bytes : Nat) : Token :=
  { token with span := token.span.shift bytes }

theorem Token.shift_shift (token : Token) (bytes more : Nat) :
    (token.shift bytes).shift more = token.shift (more + bytes) := by
  simp only [shift, Span.shift, Nat.add_assoc, Nat.add_comm bytes more]

end HaskellHighlight
