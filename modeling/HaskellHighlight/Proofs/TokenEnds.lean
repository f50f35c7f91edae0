import HaskellHighlight.Proofs.StringTokens

/-! Where tokens end. A token that is made of a class of characters takes in all of them that there
are, and a comment or a string literal that is not closed takes in the rest of its line. Only the
dot behind a qualifier stops in front of an operator character. -/
namespace HaskellHighlight
open Unicode Lexer

/-- What can follow a token, by its kind and its text: a token of the kind `next` that starts with
the character `d`. -/
def Kind.EndsBefore (kind : Kind) (part : List Char) (next : Kind) (d : Char) : Prop :=
  match kind with
  | .whitespace => isSpace d = false
  | .name .varId | .name .conId | .reservedWord _ | .contextWord _ => isIdentChar d = false
  | .name .varSym | .name .conSym | .reservedOp _ | .dot => isSymbol d = false
  | .lineComment => next = .newline
  | .literal .string => ¬ IsClosedString part → next = .newline
  | .newline => part = ['\r'] → d ≠ '\n'
  | .special .leftBrace => d ≠ '-'
  | _ => True

namespace Lexer

section dispatch
variable {c d : Char} {rest more part : List Char} {next : Kind}

private theorem word_endsBefore (text : List Char) (other : isIdentChar d = false) :
    (Lexeme.word text).kind.EndsBefore part next d := by
  rcases Dispatch.word_kind text with ⟨word, kind⟩ | ⟨word, kind⟩ | kind <;> rw [kind] <;>
    exact other

private theorem symbol_endsBefore {text : List Char}
    (behind : text.drop (Lexeme.symbol text).length = d :: more)
    (line : isLineBreak d = true → next = .newline) :
    (Lexeme.symbol text).kind.EndsBefore part next d := by
  have head := congrArg List.head? behind
  simp only [Lexeme.symbol] at head ⊢
  split
  · rename_i dashes
    rw [if_pos dashes, Lexeme.plain, ← List.drop_drop] at head
    exact line (by simpa using head?_drop_runLength head)
  · rename_i no_comment
    rw [if_neg no_comment] at head
    have other : isSymbol d = false := head?_drop_runLength head
    simp only [Lexeme.plain]
    split
    · exact other
    · split
      · exact other
      · split <;> exact other

/-- A unit that a rule gives takes in all that it can. -/
theorem Dispatch.endsBefore {lexeme : Lexeme} (h : Dispatch c rest lexeme)
    (behind : (c :: rest).drop lexeme.length = d :: more)
    (line : isLineBreak d = true → next = .newline) :
    lexeme.kind.EndsBefore ((c :: rest).take lexeme.length) next d := by
  cases h with
  | comment | character | strayQuote | unknown => trivial
  | special special brace =>
    obtain rfl : rest = d :: more := behind
    cases special with
    | leftBrace => exact fun dash => brace rfl (dash ▸ rfl)
    | _ => trivial
  | lineFeed => exact fun same => absurd (List.cons.inj same).1 (by decide)
  | carriageReturn feed =>
    obtain rfl : rest = d :: more := behind
    exact fun _ same => feed (same ▸ rfl)
  | bothBreaks => exact fun same => absurd (List.cons.inj same).2 (List.cons_ne_nil _ _)
  | space => exact head?_drop_runLength (congrArg List.head? behind)
  | string =>
    intro unclosed
    have ends := (isStringLiteral_take rest).closed_or_line.resolve_left unclosed
    exact line (ends d (congrArg List.head? behind))
  | number =>
    have other := number_ne_string (c :: rest)
    simp only [Lexeme.plain]
    generalize (Lexer.number (c :: rest)).1 = form at other
    cases form with
    | string => exact absurd rfl other
    | _ => trivial
  | smallName => exact word_endsBefore _ (head?_drop_runLength (congrArg List.head? behind))
  | largeName => exact head?_drop_runLength (congrArg List.head? behind)
  | operator => exact symbol_endsBefore behind line

/-- A line break is a token by itself or with the line feed behind it. -/
theorem first_of_lineBreak (line : isLineBreak c = true) : (Lexeme.first c rest).kind = .newline := by
  simp only [isLineBreak, Bool.or_eq_true, decide_eq_true_eq] at line
  rcases line with rfl | rfl <;> rfl

end dispatch

namespace Cursor
variable {cursor after : Cursor} {token : Token}

/-- The next token takes in all that it can, unless it is a dot that is due. -/
theorem next?_endsBefore (call : cursor.next? = some (token, after)) :
    ∃ part, cursor.rest = part ++ after.rest ∧
      (cursor.qualifierDot = true ∧ token.kind = .dot ∨
        ∀ d more next, after.rest = d :: more → (isLineBreak d = true → next = .newline) →
          token.kind.EndsBefore part next d) := by
  obtain ⟨c, rest, text, kind, -, -, part, -, length, cut, -⟩ := next?_eq_some call
  refine ⟨part, cut, ?_⟩
  rw [kind]
  cases state : cursor.state with
  | blockComment depth =>
    rw [lexeme_blockComment state]
    exact Or.inr fun _ _ _ _ _ => trivial
  | initial =>
    cases dot : cursor.qualifierDot with
    | true =>
      rw [lexeme_initial state, dot]
      exact Or.inl ⟨rfl, rfl⟩
    | false =>
      rw [lexeme_free state dot] at length ⊢
      apply Or.inr
      intro d more next behind line
      have front : (c :: rest).take (Lexeme.first c rest).length = part := by
        rw [← text, cut, ← length, List.take_left]
      have left : (c :: rest).drop (Lexeme.first c rest).length = d :: more := by
        rw [← text, cut, ← length, List.drop_left, behind]
      exact front ▸ (Lexeme.first_dispatch c rest).endsBefore left line

/-- Where no comment is open, a line break is a token of its own. -/
theorem next?_lineBreak (call : cursor.next? = some (token, after))
    (state : cursor.state = .initial) (due : cursor.DueAhead) {d : Char}
    (head : cursor.rest.head? = some d) (line : isLineBreak d = true) : token.kind = .newline := by
  obtain ⟨c, rest, text, kind, -⟩ := next?_eq_some call
  rw [text] at head
  obtain rfl := Option.some.inj head
  have none_due : cursor.qualifierDot = false := by
    apply Bool.eq_false_iff.mpr
    intro dot
    obtain ⟨e, more, start, -⟩ := Lexeme.startsQualified_iff.mp (due dot).2
    obtain ⟨rfl, -⟩ := List.cons.inj (text.symm.trans start)
    exact absurd line (by decide)
  rw [kind, lexeme_free state none_due, first_of_lineBreak line]

/-- A token has the part of the text that the call which returned it has moved over. -/
theorem slice?_of_getElem? {text part : List Char} {state : State} {place : Nat}
    (nth : (tokensFrom text state)[place]? = some token)
    (cut : ((start text state).skip place).rest =
      part ++ ((start text state).skip (place + 1)).rest) :
    token.span.slice? text = some part := by
  obtain ⟨before, taken, same, whole, span⟩ := span_of_getElem? nth
  obtain rfl := List.append_cancel_right (cut.symm.trans same)
  rw [span, whole]
  exact Span.slice?_append before part _

end Cursor

/-- No token stops early. What follows a token could not have continued it, unless the token is the
dot behind a qualifier: that stops in front of any operator. -/
theorem tokens_end (text : List Char) (state : State) (place : Nat) (token follower : Token)
    (nth : (tokensFrom text state)[place]? = some token)
    (next : (tokensFrom text state)[place + 1]? = some follower) :
    ∃ part d more, token.span.slice? text = some part ∧
      follower.span.slice? text = some (d :: more) ∧
      (token.kind.EndsBefore part follower.kind d ∨
        token.kind = .dot ∧ ∃ before, 0 < place ∧
          (tokensFrom text state)[place - 1]? = some before ∧ before.kind = .name .conId) := by
  have later := Cursor.next?_of_getElem? next
  obtain ⟨part, front, ends⟩ := Cursor.next?_endsBefore (Cursor.next?_of_getElem? nth)
  obtain ⟨-, -, -, -, -, -, taken, nonempty, -, cut, -⟩ := Cursor.next?_eq_some later
  obtain ⟨d, more, rfl⟩ := List.exists_cons_of_ne_nil nonempty
  have line : isLineBreak d = true → follower.kind = .newline :=
    Cursor.next?_lineBreak later (Cursor.state_skip next)
      (Cursor.dueAhead_skip text state (place + 1)) (by rw [cut]; rfl)
  refine ⟨part, d, more, Cursor.slice?_of_getElem? nth front, Cursor.slice?_of_getElem? next cut, ?_⟩
  rcases ends with ⟨due, dot⟩ | ends
  · exact Or.inr ⟨dot, ((due_after_calls text state place).mp due).1⟩
  · exact Or.inl (ends d _ _ cut line)

/-- A string literal that ends with an escaped quote, and the line break behind it. -/
theorem tokens_end_at_open_string :
    let text := "-\x7d\"a\\\"\nb".toList
    ∃ part d more, Span.slice? ⟨2, 6⟩ text = some part ∧
      Span.slice? ⟨6, 7⟩ text = some (d :: more) ∧
      ((Kind.literal .string).EndsBefore part .newline d ∨
        Kind.literal .string = .dot ∧ ∃ before, 0 < 1 ∧
          (tokensFrom text (.blockComment 1))[1 - 1]? = some before ∧
          before.kind = .name .conId) :=
  tokens_end "-\x7d\"a\\\"\nb".toList (.blockComment 1) 1 ⟨.literal .string, ⟨2, 6⟩⟩
    ⟨.newline, ⟨6, 7⟩⟩ (by decide +kernel) (by decide +kernel)

end Lexer

end HaskellHighlight
