import HaskellHighlight.Lexer.Lexeme
import HaskellHighlight.Token.Basic

/-! A position between two tokens of a text, and the tokens from it onwards. -/
namespace HaskellHighlight.Lexer

/-- A lexer at work: how many bytes it has passed, the text before it, the state it stands in, and
whether a dot that qualifies a name is due. -/
structure Cursor where
  offset : Nat
  rest : List Char
  state : State
  qualifierDot : Bool
  deriving DecidableEq, Repr

namespace Cursor

def start (text : List Char) (state : State) : Cursor := ⟨0, text, state.normal, false⟩

def lexeme (cursor : Cursor) (c : Char) (rest : List Char) : Lexeme :=
  match cursor.state with
  | .blockComment depth => .comment 0 (commentTail depth (c :: rest))
  | .initial => if cursor.qualifierDot then .plain .dot 1 else .first c rest

/-- The next token and the cursor after it. There is none at the end of the text only. -/
def next? (cursor : Cursor) : Option (Token × Cursor) :=
  match cursor.rest with
  | [] => none
  | c :: rest =>
    let lexeme := cursor.lexeme c rest
    let stop := cursor.offset + Text.byteLength (cursor.rest.take lexeme.length)
    some (⟨lexeme.kind, cursor.offset, stop⟩,
      ⟨stop, cursor.rest.drop lexeme.length, lexeme.state, lexeme.qualifierDot⟩)

def steps : Nat → Cursor → List (Token × Cursor)
  | 0, _ => []
  | count + 1, cursor => match cursor.next? with
    | none => []
    | some (token, after) => (token, after) :: steps count after

def skip : Nat → Cursor → Cursor
  | 0, cursor => cursor
  | count + 1, cursor => match cursor.next? with
    | none => cursor
    | some (_, after) => skip count after

/-- All tokens, each with the cursor after it. A text has no more tokens than characters. -/
def allSteps (cursor : Cursor) : List (Token × Cursor) := cursor.steps cursor.rest.length

def tokens (cursor : Cursor) : List Token := cursor.allSteps.map Prod.fst

def finalState (cursor : Cursor) : State := (cursor.skip cursor.rest.length).state

end Cursor

def tokensFrom (text : List Char) (state : State) : List Token := (Cursor.start text state).tokens

def tokens (text : List Char) : List Token := tokensFrom text .initial

end HaskellHighlight.Lexer
