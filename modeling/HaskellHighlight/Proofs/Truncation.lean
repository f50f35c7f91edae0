import HaskellHighlight.Proofs.Cutoff
import HaskellHighlight.Proofs.ExactCover
import HaskellHighlight.Proofs.Restart

/-! A text that ends at a boundary between two tokens of a longer one has the tokens in front of
that boundary. The one thing that the end of the text can take away is what makes a dot due after
the name of a constructor; the dot is then read as an operator by itself, which is the same
token. -/
namespace HaskellHighlight.Lexer

namespace Lexeme
variable {text more : List Char}

theorem word_cut (h : (word (text ++ more)).length ≤ text.length) :
    word text = word (text ++ more) := by
  have run := takeWhile_cut (p := isIdentChar) h
  simp only [word, run]

theorem symbol_cut (h : (symbol (text ++ more)).length ≤ text.length) :
    symbol text = symbol (text ++ more) := by
  have inside : runLength isSymbol (text ++ more) ≤ text.length := by
    rw [runLength]
    simp only [symbol] at h
    split at h <;> simp only [plain] at h <;> omega
  have run := takeWhile_cut inside
  rw [runLength] at inside
  simp only [symbol, run] at h ⊢
  split
  · rename_i dashes
    rw [if_pos dashes, List.drop_append_of_le_length inside] at h
    rw [List.drop_append_of_le_length inside, runLength_cut]
    rw [List.length_drop]
    simp only [plain] at h
    omega
  · rfl

theorem startsQualified_append_of_true (h : startsQualified text = true) (more : List Char) :
    startsQualified (text ++ more) = true := by
  obtain ⟨c, tail, rfl, names⟩ := startsQualified_iff.mp h
  exact startsQualified_iff.mpr ⟨c, tail ++ more, rfl, names⟩

end Lexeme

/-- A unit that lies before a cut is found there as before, but a dot need not be due after it. -/
theorem Dispatch.cut {c : Char} {rest more : List Char} {lexeme : Lexeme}
    (h : Dispatch c (rest ++ more) lexeme) (le : lexeme.length ≤ (c :: rest).length) :
    ∃ due, Dispatch c rest { lexeme with qualifierDot := due } := by
  generalize whole : rest ++ more = text at h
  cases h with
  | comment body =>
    rcases List.append_eq_cons_iff.mp whole with ⟨rfl, -⟩ | ⟨front, rfl, rfl⟩
    · simp only [Lexeme.comment, List.length_singleton] at le
      omega
    · have same : commentTail 1 front = commentTail 1 (front ++ more) := by
        apply commentTail_cut
        simp only [Lexeme.comment, List.length_cons] at le
        omega
      exact ⟨false, same ▸ Dispatch.comment front⟩
  | special special h =>
    refine ⟨false, .special special fun brace dash => h brace ?_⟩
    obtain ⟨tail, rfl⟩ := List.head?_eq_some_iff.mp dash
    rw [← whole]
    rfl
  | lineFeed => exact ⟨false, .lineFeed rest⟩
  | carriageReturn h =>
    refine ⟨false, .carriageReturn fun feed => h ?_⟩
    obtain ⟨tail, rfl⟩ := List.head?_eq_some_iff.mp feed
    rw [← whole]
    rfl
  | bothBreaks =>
    rcases List.append_eq_cons_iff.mp whole with ⟨rfl, -⟩ | ⟨front, rfl, -⟩
    · exact absurd le (by decide)
    · exact ⟨false, .bothBreaks front⟩
  | space h =>
    subst whole
    have same : runLength isSpace (c :: rest) = runLength isSpace (c :: rest ++ more) :=
      runLength_cut le
    exact ⟨false, same ▸ Dispatch.space h rest⟩
  | string =>
    subst whole
    have same : stringTail .body rest = stringTail .body (rest ++ more) := by
      apply stringTail_cut
      simp only [Lexeme.plain, List.length_cons] at le
      omega
    exact ⟨false, same ▸ Dispatch.string rest⟩
  | character h =>
    subst whole
    refine ⟨false, .character (characterTail?_cut h ?_)⟩
    simp only [Lexeme.plain, List.length_cons] at le
    omega
  | strayQuote h =>
    subst whole
    exact ⟨false, .strayQuote (characterTail?_eq_none_of_append h)⟩
  | number h =>
    subst whole
    have same : Lexer.number (c :: rest) = Lexer.number (c :: rest ++ more) := number_cut le
    exact ⟨false, same ▸ Dispatch.number h rest⟩
  | smallName h =>
    subst whole
    have same : Lexeme.word (c :: rest) = Lexeme.word (c :: rest ++ more) := Lexeme.word_cut le
    exact ⟨false, same ▸ Dispatch.smallName h rest⟩
  | largeName h =>
    subst whole
    have same : runLength isIdentChar (c :: rest) = runLength isIdentChar (c :: rest ++ more) :=
      runLength_cut le
    refine ⟨(Lexeme.constructor (c :: rest)).qualifierDot, ?_⟩
    have unit := Dispatch.largeName h rest
    simpa only [Lexeme.constructor, same, List.cons_append] using unit
  | operator h =>
    subst whole
    have same : Lexeme.symbol (c :: rest) = Lexeme.symbol (c :: rest ++ more) :=
      Lexeme.symbol_cut le
    have unit := Dispatch.operator h rest
    rw [same] at unit
    exact ⟨(Lexeme.symbol (c :: rest ++ more)).qualifierDot, unit⟩
  | unknown _ special blank quote digit name symbol =>
    exact ⟨false, .unknown rest special blank quote digit name symbol⟩

namespace Cursor
variable {cursor after last : Cursor} {token : Token} {tokens : List Token}

/-- The same place where less text follows. A dot is due only if what is left still shows that it
joins two names. -/
def truncate (cursor : Cursor) (text : List Char) : Cursor :=
  { cursor with
    rest := text, qualifierDot := cursor.qualifierDot && Lexeme.startsQualified text }

/-- The unit in front of a cursor is the same where less text follows, as long as it does not reach
beyond that. -/
theorem lexeme_truncate (due : cursor.DueAhead) {c : Char} {rest more : List Char}
    (text : cursor.rest = c :: (rest ++ more))
    (le : (cursor.lexeme c (rest ++ more)).length ≤ (c :: rest).length) :
    ∃ dot, (cursor.truncate (c :: rest)).lexeme c rest =
      { cursor.lexeme c (rest ++ more) with qualifierDot := dot } := by
  cases state : cursor.state with
  | blockComment depth =>
    have state' : (cursor.truncate (c :: rest)).state = .blockComment depth := state
    rw [lexeme_blockComment state] at le
    have same : commentTail depth (c :: rest) = commentTail depth (c :: rest ++ more) :=
      commentTail_cut (by simpa [Lexeme.comment] using le)
    rw [lexeme_blockComment state, lexeme_blockComment state', same]
    exact ⟨false, rfl⟩
  | initial =>
    have state' : (cursor.truncate (c :: rest)).state = .initial := state
    rw [lexeme_initial state] at le
    rw [lexeme_initial state, lexeme_initial state']
    cases dot : cursor.qualifierDot with
    | false =>
      have none_due : (cursor.truncate (c :: rest)).qualifierDot = false := by
        simp [truncate, dot]
      simp only [dot, none_due, Bool.false_eq_true, if_false] at le ⊢
      obtain ⟨due, unit⟩ := (Lexeme.first_dispatch c (rest ++ more)).cut le
      exact ⟨due, unit.first_eq⟩
    | true =>
      obtain ⟨-, joins⟩ := due dot
      obtain ⟨d, tail, start, names⟩ := Lexeme.startsQualified_iff.mp joins
      obtain ⟨rfl, next⟩ := List.cons.inj (text.symm.trans start)
      refine ⟨false, ?_⟩
      simp only [if_true, truncate, dot, Bool.true_and]
      split
      · rfl
      · rename_i alone
        cases rest with
        | nil => decide
        | cons e rest =>
          obtain ⟨rfl, -⟩ := List.cons.inj next
          exact absurd (Lexeme.startsQualified_iff.mpr ⟨e, rest, rfl, names⟩) alone

/-- A call of `next?` does the same where less text follows, if its token does not reach beyond
that. -/
theorem next?_truncate (due : cursor.DueAhead) (call : cursor.next? = some (token, after))
    {left more : List Char} (behind : after.rest = left ++ more) :
    ∃ taken, cursor.rest = taken ++ left ++ more ∧
      (cursor.truncate (taken ++ left)).next? = some (token, after.truncate left) := by
  have dot_iff := next?_qualifierDot call
  obtain ⟨c, tail, text, -, -, -, taken, nonempty, length, cut, -⟩ := next?_eq_some call
  refine ⟨taken, by rw [cut, behind, List.append_assoc], ?_⟩
  obtain ⟨d, front, rfl⟩ := List.exists_cons_of_ne_nil nonempty
  rw [cut, behind, List.cons_append, ← List.append_assoc] at text
  obtain ⟨rfl, rfl⟩ := List.cons.inj text
  rw [behind, List.cons_append, ← List.append_assoc] at cut
  have le : (cursor.lexeme d (front ++ left ++ more)).length ≤ (d :: (front ++ left)).length := by
    rw [← length, ← List.cons_append, List.length_append]
    omega
  obtain ⟨dot, same⟩ := lexeme_truncate due cut le
  have short : (cursor.truncate (d :: (front ++ left))).next? = _ := next?_of_cons rfl
  have short_dot_iff := next?_qualifierDot short
  rw [next?_of_cons cut, Option.some.injEq, Prod.mk.injEq] at call
  generalize cursor.lexeme d (front ++ left ++ more) = lexeme at call length same
  have take_eq (tail : List Char) : (d :: front ++ tail).take lexeme.length = d :: front := by
    rw [← length, List.take_left]
  have drop_eq (tail : List Char) : (d :: front ++ tail).drop lexeme.length = tail := by
    rw [← length, List.drop_left]
  rw [List.append_assoc, ← List.cons_append] at call
  simp only [take_eq, drop_eq] at call
  obtain ⟨rfl, rfl⟩ := call
  simp only [same] at short short_dot_iff
  simp only [← List.cons_append, take_eq, drop_eq] at short short_dot_iff
  have dot_eq : dot = (lexeme.qualifierDot && Lexeme.startsQualified left) := by
    rw [Bool.eq_iff_iff, short_dot_iff, Bool.and_eq_true, dot_iff, and_assoc]
    refine and_congr_right fun _ => ⟨fun joins => ⟨?_, joins⟩, And.right⟩
    exact Lexeme.startsQualified_append_of_true joins more
  rw [short, dot_eq]
  rfl

theorem Produces.truncate (calls : Produces cursor tokens last)
    (normal : cursor.state.normal = cursor.state) (due : cursor.DueAhead) {text : List Char}
    (cut : cursor.rest = text ++ last.rest) :
    Produces (cursor.truncate text) tokens (last.truncate []) := by
  induction calls generalizing text with
  | done cursor =>
    obtain rfl : text = [] := List.self_eq_append_left.mp cut
    exact .done _
  | @step cursor after last token tokens call calls ih =>
    obtain ⟨left, behind, -⟩ := calls.passed
    obtain ⟨taken, whole, short⟩ := next?_truncate due call behind
    obtain rfl : text = taken ++ left := List.append_cancel_right (cut.symm.trans whole)
    have after_normal := (Produces.step call (.done _)).normal normal
    exact .step short (ih after_normal (dueAhead_of_next? call normal) behind)

end Cursor

/-- The offsets between tokens: the front of the text, and where a token starts or stops. -/
def IsBoundary (tokens : List Token) (offset : Nat) : Prop :=
  offset = 0 ∨ ∃ token ∈ tokens, offset = token.span.start ∨ offset = token.span.stop

/-- A boundary is reached after some calls. -/
theorem IsBoundary.exists_skip {cursor : Cursor} (front : cursor.offset = 0) {offset : Nat}
    (h : IsBoundary cursor.tokens offset) : ∃ count, (cursor.skip count).offset = offset := by
  rcases h with rfl | ⟨token, mem, h⟩
  · exact ⟨0, front⟩
  obtain ⟨place, nth⟩ := List.getElem?_of_mem mem
  obtain ⟨-, -, -, -, -, -, -, -, -, -, span, -⟩ :=
    Cursor.next?_eq_some (Cursor.next?_of_getElem? nth)
  rw [span] at h
  rcases h with rfl | rfl
  · exact ⟨place, rfl⟩
  · exact ⟨place + 1, rfl⟩

/-- Lexing a text that was cut off at a boundary between two tokens gives the tokens that stop at
the boundary or before it, with the same kinds and spans. The cut is between characters. -/
theorem tokensFrom_cut (text : List Char) (state : State) (offset : Nat)
    (boundary : IsBoundary (tokensFrom text state) offset) :
    ∃ front, Text.slice? text 0 offset = some front ∧
      tokensFrom front state =
        (tokensFrom text state).filter fun token => token.span.stop ≤ offset := by
  obtain ⟨count, rfl⟩ := boundary.exists_skip rfl
  have calls := Cursor.produces_skip (Cursor.start text state) count
  obtain ⟨before, -, -, -⟩ := produces_cover calls [] rfl
  obtain ⟨front, cut, reached⟩ := calls.passed
  have cut : text = front ++ ((Cursor.start text state).skip count).rest := cut
  have reached : ((Cursor.start text state).skip count).offset = Text.byteLength front := by
    rw [reached]
    exact Nat.zero_add _
  refine ⟨front, ?_, ?_⟩
  · have covered := Span.slice?_append [] front ((Cursor.start text state).skip count).rest
    rw [List.nil_append, ← cut] at covered
    rw [reached]
    simpa only [Span.slice?, Text.byteLength, Nat.zero_add] using covered
  have short : Cursor.Produces (Cursor.start front state)
      ((tokensFrom text state).take count) _ :=
    calls.truncate (Cursor.start_normal text state) (fun due => absurd due Bool.false_ne_true) cut
  have front_tokens : tokensFrom front state = (tokensFrom text state).take count := by
    rw [tokensFrom, short.tokens_eq, Cursor.tokens_eq_nil_iff.mpr rfl, List.append_nil]
  obtain ⟨last, later, -⟩ := Cursor.produces_tokens ((Cursor.start text state).skip count)
  obtain ⟨behind, -⟩ := produces_cover later front reached
  have split : tokensFrom text state = (tokensFrom text state).take count ++
      ((Cursor.start text state).skip count).tokens := calls.tokens_eq
  calc
    tokensFrom front state = (tokensFrom text state).take count := front_tokens
    _ = ((tokensFrom text state).take count ++
          ((Cursor.start text state).skip count).tokens).filter
            fun token => token.span.stop ≤ ((Cursor.start text state).skip count).offset := by
      rw [List.filter_append, List.filter_eq_self.mpr, List.filter_eq_nil_iff.mpr,
        List.append_nil]
      · intro token mem beyond
        exact Nat.not_le.mpr (behind.stop_bounds mem).1 (of_decide_eq_true beyond)
      · exact fun token mem => decide_eq_true (before.stop_bounds mem).2
    _ = (tokensFrom text state).filter
          fun token => token.span.stop ≤ ((Cursor.start text state).skip count).offset := by
      rw [← split]

/-- A cut behind a dot that qualifies an operator. -/
theorem tokensFrom_cut_of_qualifier :
    tokensFrom "A.".toList .initial =
      (tokensFrom "A.+b".toList .initial).filter fun token => token.span.stop ≤ 2 := by
  have boundary : IsBoundary (tokensFrom "A.+b".toList .initial) 2 :=
    Or.inr ⟨⟨.dot, ⟨1, 2⟩⟩, by decide +kernel, Or.inr rfl⟩
  obtain ⟨front, slice, same⟩ := tokensFrom_cut "A.+b".toList .initial 2 boundary
  obtain rfl : "A.".toList = front := Option.some.inj slice
  exact same

end HaskellHighlight.Lexer
