import HaskellHighlight.Token.Basic

/-! The categories that tokens are coloured by, highlighted parts of a text, and how neighbours that
look alike are joined. -/
namespace HaskellHighlight

/-- A category of tokens that share a colour. -/
inductive Key where
  | illegal | comment | string | number | keyword | operator | parentheses | brace | bracket
  | symbol | constructor
  deriving DecidableEq, Repr

namespace Key

def all : List Key :=
  [illegal, comment, string, number, keyword, operator, parentheses, brace, bracket, symbol,
   constructor]

def name : Key → String
  | illegal => "HS_ILLEGAL"
  | comment => "HS_COMMENT"
  | string => "HS_STRING"
  | number => "HS_NUMBER"
  | keyword => "HS_KEYWORD"
  | operator => "HS_OPERATOR"
  | parentheses => "HS_PARENTHESES"
  | brace => "HS_BRACE"
  | bracket => "HS_BRACKET"
  | symbol => "HS_SYMBOL"
  | constructor => "HS_CONSTRUCTOR"

/-- The name of the key in JSON. This table is kept beside that of `name`. -/
def serialName : Key → String
  | illegal => "HS_ILLEGAL"
  | comment => "HS_COMMENT"
  | string => "HS_STRING"
  | number => "HS_NUMBER"
  | keyword => "HS_KEYWORD"
  | operator => "HS_OPERATOR"
  | parentheses => "HS_PARENTHESES"
  | brace => "HS_BRACE"
  | bracket => "HS_BRACKET"
  | symbol => "HS_SYMBOL"
  | constructor => "HS_CONSTRUCTOR"

def ofName? (text : String) : Option Key := all.find? (·.name = text)

theorem mem_all (key : Key) : key ∈ all := by cases key <;> decide

theorem ofName?_name (key : Key) : ofName? key.name = some key := by cases key <;> decide

theorem ofName?_eq_some_iff {text : String} {key : Key} :
    ofName? text = some key ↔ text = key.name :=
  ⟨fun h => by simpa [eq_comm] using List.find?_some h, fun h => h ▸ ofName?_name key⟩

/-- Both tables name every key alike. -/
theorem serialName_eq_name (key : Key) : key.serialName = key.name := by cases key <;> rfl

theorem name_inj {a b : Key} : a.name = b.name ↔ a = b := by
  rw [← ofName?_eq_some_iff, ofName?_name, Option.some_inj]

end Key

/-- The key that tokens of a kind are coloured by. Operators that are not reserved, commas,
semicolons, back quotes and blanks have none. -/
def Kind.key? : Kind → Option Key
  | .badCharacter => some .illegal
  | .lineComment | .blockComment => some .comment
  | .literal .string | .literal .character => some .string
  | .literal _ => some .number
  | .reservedWord _ => some .keyword
  | .reservedOp _ | .contextWord _ => some .operator
  | .special .leftParen | .special .rightParen => some .parentheses
  | .special .leftBrace | .special .rightBrace => some .brace
  | .special .leftBracket | .special .rightBracket => some .bracket
  | .name .varId => some .symbol
  | .name .conId => some .constructor
  | _ => none

/-- A part of a text and the key it is coloured by. -/
structure Highlight where
  span : Span
  key : Key
  deriving DecidableEq, Repr

namespace Highlight

def ofToken? (token : Token) : Option Highlight := token.kind.key?.map (⟨token.span, ·⟩)

/-- Puts a highlight before others. It swallows the first of them when they have the same key and
touch. -/
def join (highlight : Highlight) : List Highlight → List Highlight
  | [] => [highlight]
  | next :: rest =>
    if highlight.key = next.key && highlight.span.stop = next.span.start then
      ⟨⟨highlight.span.start, next.span.stop⟩, highlight.key⟩ :: rest
    else highlight :: next :: rest

def merge (highlights : List Highlight) : List Highlight := highlights.foldr join []

/-- The highlights of tokens, in their order. Tokens without a key are dropped before any
joining, so that what they cover stays between its neighbours. -/
def ofTokens (mergeAdjacent : Bool) (tokens : List Token) : List Highlight :=
  let highlights := tokens.filterMap ofToken?
  if mergeAdjacent then merge highlights else highlights

end Highlight

end HaskellHighlight
