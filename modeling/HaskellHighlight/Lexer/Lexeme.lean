import HaskellHighlight.Lexer.Literal

/-! Nested comments, the condition in which a lexer stands between two tokens, and the first lexical
unit of a text. -/
namespace HaskellHighlight.Lexer

/-- What the lexer carries from one text to the next: nothing, or how many comments are open. -/
inductive State where
  | initial
  | blockComment (depth : Nat)
  deriving DecidableEq, Repr

def State.normal : State → State
  | .blockComment 0 => .initial
  | state => state

/-- From inside `depth` open comments, how far the text belongs to them and the state after that:
initial right after the mark that closes the outermost one, or at the end of the text the number
of comments still open. -/
def commentTail (depth : Nat) : List Char → Nat × State
  | [] => (0, .blockComment depth)
  | '\x7b' :: '-' :: rest =>
    let (length, state) := commentTail (depth + 1) rest
    (length + 2, state)
  | '-' :: '\x7d' :: rest =>
    if depth ≤ 1 then (2, .initial)
    else
      let (length, state) := commentTail (depth - 1) rest
      (length + 2, state)
  | _ :: rest =>
    let (length, state) := commentTail depth rest
    (length + 1, state)

/-- What a lexer finds at the front of a text: the kind of the unit, its length in characters, and
the condition it leaves. `qualifierDot` says that the unit qualifies the name after it, so that
the next character is the dot between them whatever follows. -/
structure Lexeme where
  kind : Kind
  length : Nat
  state : State
  qualifierDot : Bool
  deriving DecidableEq, Repr

namespace Lexeme

def plain (kind : Kind) (length : Nat) : Lexeme := ⟨kind, length, .initial, false⟩

/-- A comment, or the rest of one, that reaches `tail.1` characters far after the first `before`
ones. -/
def comment (before : Nat) (tail : Nat × State) : Lexeme :=
  ⟨.blockComment, before + tail.1, tail.2, false⟩

def word (text : List Char) : Lexeme :=
  let run := text.takeWhile isIdentChar
  let spelling := String.ofList run
  let kind := match ReservedWord.ofSpelling? spelling with
    | some reserved => .reservedWord reserved
    | none => match ContextWord.ofSpelling? spelling with
      | some context => .contextWord context
      | none => .name .varId
  plain kind run.length

/-- Whether a text starts with a dot that joins a qualifier to an identifier or an operator. Two
dots never join. -/
def startsQualified : List Char → Bool
  | '.' :: c :: _ => c ≠ '.' && (isSmall c || isLarge c || isSymbol c)
  | _ => false

def constructor (text : List Char) : Lexeme :=
  let length := runLength isIdentChar text
  ⟨.name .conId, length, .initial, startsQualified (text.drop length)⟩

/-- A run of operator characters. Two or more dashes by themselves open a comment that reaches to
the end of the line. -/
def symbol (text : List Char) : Lexeme :=
  let run := text.takeWhile isSymbol
  if 2 ≤ run.length && run.all (· = '-') then
    plain .lineComment (run.length + runLength (!isLineBreak ·) (text.drop run.length))
  else
    let kind := match ReservedOp.ofSpelling? (String.ofList run) with
      | some reserved => .reservedOp reserved
      | none =>
        if run = ['.'] then .dot
        else if run.head? = some ':' then .name .conSym
        else .name .varSym
    plain kind run.length

/-- The first unit of the text `c :: rest` where no comment is open and no dot is due. -/
def first (c : Char) (rest : List Char) : Lexeme :=
  match Special.ofChar? c with
  | some special =>
    if special = .leftBrace && rest.head? = some '-' then comment 2 (commentTail 1 rest.tail)
    else plain (.special special) 1
  | none =>
    if c = '\n' then plain .newline 1
    else if c = '\r' then plain .newline (if rest.head? = some '\n' then 2 else 1)
    else if isSpace c then plain .whitespace (runLength isSpace (c :: rest))
    else if c = '"' then plain (.literal .string) (1 + stringTail .body rest)
    else if c = '\'' then
      match characterTail? rest with
      | some length => plain (.literal .character) (1 + length)
      | none => plain .badCharacter 1
    else if Unicode.isAsciiDigit c then
      let (form, length) := number (c :: rest)
      plain (.literal form) length
    else if isSmall c then word (c :: rest)
    else if isLarge c then constructor (c :: rest)
    else if isSymbol c then symbol (c :: rest)
    else plain .badCharacter 1

end Lexeme

end HaskellHighlight.Lexer
