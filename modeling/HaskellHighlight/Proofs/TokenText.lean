import HaskellHighlight.Proofs.Cutoff
import HaskellHighlight.Proofs.ExactCover
import HaskellHighlight.Proofs.Restart

/-! What the texts of tokens look like. Of every kind but the literals the texts form a class that
is described without the order in which the lexer tries its rules, and every token of the kind has
a text of the class. -/
namespace HaskellHighlight
open Unicode Lexer

/-- A text of identifier characters after a first one of a class, without a meaning of its own. -/
structure IsIdentifier (start : Char → Prop) (text : List Char) : Prop where
  shape : ∃ c rest, text = c :: rest ∧ start c ∧
    ∀ d ∈ rest, isAlphanumeric d = true ∨ d = '_' ∨ d = '\''
  unreserved : ReservedWord.ofSpelling? (String.ofList text) = none ∧
    ContextWord.ofSpelling? (String.ofList text) = none

/-- A text of operator characters that is neither reserved nor a dot nor the start of a comment. -/
structure IsOperator (text : List Char) : Prop where
  nonempty : text ≠ []
  symbols : ∀ c ∈ text, isSymbol c = true
  unreserved : ReservedOp.ofSpelling? (String.ofList text) = none
  no_dot : text ≠ ['.']
  no_comment : ¬ (2 ≤ text.length ∧ ∀ c ∈ text, c = '-')

/-- A character that starts a token of no other kind. -/
structure IsUnknown (c : Char) : Prop where
  special : Special.ofChar? c = none
  blank : isBlank c = false
  quote : c ≠ '"'
  digit : isAsciiDigit c = false
  letter : c ≠ '_' ∧ isAlphabetic c = false
  symbol : isSymbol c = false

/-- What the text of a token looks like, by the kind of the token. Of literals nothing is said. -/
def Kind.Describes (kind : Kind) (text : List Char) : Prop :=
  match kind with
  | .reservedWord word =>
    ∀ spelling, ReservedWord.ofSpelling? spelling = some word ↔ spelling.toList = text
  | .contextWord word =>
    ∀ spelling, ContextWord.ofSpelling? spelling = some word ↔ spelling.toList = text
  | .reservedOp op =>
    ∀ spelling, ReservedOp.ofSpelling? spelling = some op ↔ spelling.toList = text
  | .literal _ => True
  | .name .varId =>
    IsIdentifier (fun c => c = '_' ∨ isAlphabetic c = true ∧ isUppercase c = false) text
  | .name .conId => IsIdentifier (fun c => isUppercase c = true) text
  | .name .varSym => IsOperator text ∧ text.head? ≠ some ':'
  | .name .conSym => IsOperator text ∧ text.head? = some ':'
  | .dot => text = ['.']
  | .special mark => ∀ c, Special.ofChar? c = some mark ↔ [c] = text
  | .lineComment => ∃ dashes rest, text = dashes ++ rest ∧ 2 ≤ dashes.length ∧
      (∀ c ∈ dashes, c = '-') ∧ (∀ c, rest.head? = some c → isSymbol c = false) ∧
      ∀ c ∈ rest, isLineBreak c = false
  | .blockComment => ∃ body, text = '\x7b' :: '-' :: body ∧ (commentTail 1 body).1 = body.length
  | .whitespace => text ≠ [] ∧ ∀ c ∈ text, isBlank c = true ∧ isLineBreak c = false
  | .newline => text = ['\n'] ∨ text = ['\r', '\n'] ∨ text = ['\r']
  | .badCharacter => ∃ c, text = [c] ∧ (c = '\'' ∨ IsUnknown c)

namespace Lexer

private theorem eq_spelling {α : Type} {text : List Char} {ofSpelling? : String → Option α}
    {word : α} {spelling : String}
    (iff : ∀ text, ofSpelling? text = some word ↔ text = spelling)
    (found : ofSpelling? (String.ofList text) = some word) (other : String) :
    ofSpelling? other = some word ↔ other.toList = text := by
  rw [iff, ← (iff _).mp found, ← String.toList_inj, String.toList_ofList]

private theorem isIdentChar_iff {c : Char} :
    isIdentChar c = true ↔ isAlphanumeric c = true ∨ c = '_' ∨ c = '\'' := by
  simp [isIdentChar, or_assoc]

private theorem word_describes {c : Char} (h : isSmall c = true) (rest : List Char) :
    (Lexeme.word (c :: rest)).kind.Describes
      ((c :: rest).take (Lexeme.word (c :: rest)).length) := by
  have text : (c :: rest).take (Lexeme.word (c :: rest)).length =
      c :: rest.takeWhile isIdentChar := by
    rw [← List.takeWhile_cons_of_pos (isIdentChar_of_isSmall h)]
    exact take_runLength isIdentChar (c :: rest)
  have start : c = '_' ∨ isAlphabetic c = true ∧ isUppercase c = false := by
    simpa [isSmall] using h
  rw [text, Lexeme.word, List.takeWhile_cons_of_pos (isIdentChar_of_isSmall h)]
  simp only [Lexeme.plain]
  split
  · rename_i word reserved
    exact eq_spelling (fun _ => ReservedWord.ofSpelling?_eq_some_iff) reserved
  rename_i reserved
  split
  · rename_i word context
    exact eq_spelling (fun _ => ContextWord.ofSpelling?_eq_some_iff) context
  · rename_i context
    exact ⟨⟨c, _, rfl, start, fun d mem => isIdentChar_iff.mp (all_takeWhile _ _ d mem)⟩,
      reserved, context⟩

private theorem unreserved_of_isLarge {c : Char} (h : isLarge c = true) (rest : List Char) :
    ReservedWord.ofSpelling? (String.ofList (c :: rest)) = none ∧
      ContextWord.ofSpelling? (String.ofList (c :: rest)) = none := by
  have small (spelling : String) (mem : spelling ∈ ReservedWord.all.map ReservedWord.spelling ++
      ContextWord.all.map ContextWord.spelling) : String.ofList (c :: rest) ≠ spelling := by
    rintro rfl
    have : ∀ spelling ∈ ReservedWord.all.map ReservedWord.spelling ++
        ContextWord.all.map ContextWord.spelling, spelling.toList.head?.any isLarge = false := by
      decide
    have := this _ mem
    rw [String.toList_ofList, List.head?_cons, Option.any_some, h] at this
    contradiction
  constructor
  · refine Option.eq_none_iff_forall_ne_some.mpr fun word found => ?_
    refine small word.spelling ?_ (ReservedWord.ofSpelling?_eq_some_iff.mp found)
    exact List.mem_append_left _ (List.mem_map_of_mem word.mem_all)
  · refine Option.eq_none_iff_forall_ne_some.mpr fun word found => ?_
    refine small word.spelling ?_ (ContextWord.ofSpelling?_eq_some_iff.mp found)
    exact List.mem_append_right _ (List.mem_map_of_mem word.mem_all)

private theorem constructor_describes {c : Char} (h : isLarge c = true) (rest : List Char) :
    (Lexeme.constructor (c :: rest)).kind.Describes
      ((c :: rest).take (Lexeme.constructor (c :: rest)).length) := by
  have text : (c :: rest).take (Lexeme.constructor (c :: rest)).length =
      c :: rest.takeWhile isIdentChar := by
    rw [← List.takeWhile_cons_of_pos (isIdentChar_of_isLarge h)]
    exact take_runLength isIdentChar (c :: rest)
  rw [text]
  exact ⟨⟨c, _, rfl, h, fun d mem => isIdentChar_iff.mp (all_takeWhile _ _ d mem)⟩,
    unreserved_of_isLarge h _⟩

private theorem symbol_describes {c : Char} (h : isSymbol c = true) (rest : List Char) :
    (Lexeme.symbol (c :: rest)).kind.Describes
      ((c :: rest).take (Lexeme.symbol (c :: rest)).length) := by
  generalize whole : c :: rest = text
  have nonempty : text.takeWhile isSymbol ≠ [] := by
    rw [← whole, List.takeWhile_cons_of_pos h]
    exact List.cons_ne_nil _ _
  have symbols := all_takeWhile isSymbol text
  have run : text.take (text.takeWhile isSymbol).length = text.takeWhile isSymbol :=
    take_runLength isSymbol text
  simp only [Lexeme.symbol, Bool.and_eq_true, decide_eq_true_eq, List.all_eq_true]
  split
  · rename_i dashes
    simp only [Lexeme.plain]
    rw [List.take_add, run, take_runLength]
    refine ⟨_, _, rfl, dashes.1, dashes.2, fun d head => ?_, fun d mem => ?_⟩
    · rw [List.head?_takeWhile, Option.filter_eq_some_iff] at head
      exact head?_drop_runLength head.1
    · simpa using all_takeWhile _ _ d mem
  · rename_i no_comment
    simp only [Lexeme.plain]
    rw [run]
    split
    · rename_i op reserved
      exact eq_spelling (fun _ => ReservedOp.ofSpelling?_eq_some_iff) reserved
    rename_i unreserved
    split
    · assumption
    rename_i no_dot
    have operator : IsOperator (text.takeWhile isSymbol) :=
      ⟨nonempty, symbols, unreserved, no_dot, no_comment⟩
    split
    · exact ⟨operator, ‹_›⟩
    · exact ⟨operator, ‹_›⟩

private theorem unknown_letter {c : Char} (small : isSmall c = false) (large : isLarge c = false) :
    c ≠ '_' ∧ isAlphabetic c = false := by
  rw [isLarge] at large
  simpa [isSmall, large] using small

/-- A unit that a rule gives has a text of its kind. -/
theorem Dispatch.describes {c : Char} {rest : List Char} {lexeme : Lexeme}
    (h : Dispatch c rest lexeme) : lexeme.kind.Describes ((c :: rest).take lexeme.length) := by
  cases h with
  | comment body =>
    refine ⟨body.take (commentTail 1 body).1, ?_, ?_⟩
    · rw [Lexeme.comment, Nat.add_comm]
      rfl
    · have within := commentTail_le 1 body
      have whole := List.take_append_drop (commentTail 1 body).1 body
      have same : commentTail 1 (body.take (commentTail 1 body).1) = commentTail 1
          (body.take (commentTail 1 body).1 ++ body.drop (commentTail 1 body).1) := by
        apply commentTail_cut
        rw [whole, List.length_take]
        omega
      rw [same, whole, List.length_take]
      omega
  | special special =>
    intro d
    rw [Special.ofChar?_eq_some_iff]
    simp [Lexeme.plain]
  | lineFeed => exact Or.inl rfl
  | carriageReturn => exact Or.inr (Or.inr rfl)
  | bothBreaks => exact Or.inr (Or.inl rfl)
  | space h =>
    simp only [Lexeme.plain, take_runLength]
    refine ⟨by rw [List.takeWhile_cons_of_pos h]; exact List.cons_ne_nil _ _, fun d mem => ?_⟩
    simpa [isSpace] using all_takeWhile _ _ d mem
  | string | character | number => trivial
  | strayQuote => exact ⟨'\'', rfl, Or.inl rfl⟩
  | smallName h => exact word_describes h rest
  | largeName h => exact constructor_describes h rest
  | operator h => exact symbol_describes h rest
  | unknown _ special blank quote digit name symbol =>
    exact ⟨c, rfl, Or.inr ⟨special, blank, quote.1, digit, unknown_letter name.1 name.2, symbol⟩⟩

namespace Cursor
variable {cursor : Cursor}

/-- Where no comment is open and a due dot stands in front of the cursor, the next token has a text
of its kind. -/
theorem next?_describes {token : Token} {after : Cursor}
    (call : cursor.next? = some (token, after)) (state : cursor.state = .initial)
    (due : cursor.DueAhead) :
    ∃ taken, cursor.rest = taken ++ after.rest ∧ token.kind.Describes taken ∧
      token.span = ⟨cursor.offset, cursor.offset + Text.byteLength taken⟩ := by
  obtain ⟨c, rest, text, kind, -, -, taken, -, length, cut, span, moved⟩ := next?_eq_some call
  have taken_eq : taken = (c :: rest).take (cursor.lexeme c rest).length := by
    rw [← text, cut, ← length, List.take_left]
  refine ⟨taken, cut, ?_, by rw [span, moved]⟩
  rw [kind, taken_eq]
  cases dot : cursor.qualifierDot with
  | false =>
    rw [lexeme_free state dot]
    exact (Lexeme.first_dispatch c rest).describes
  | true =>
    obtain ⟨-, joins⟩ := due dot
    obtain ⟨d, tail, start, -⟩ := Lexeme.startsQualified_iff.mp joins
    obtain ⟨rfl, -⟩ := List.cons.inj (text.symm.trans start)
    rw [lexeme_initial state, dot, if_pos rfl]
    rfl

end Cursor

/-- Every token has a text of its kind, unless it is the rest of a comment that was open in front of
the whole text. -/
theorem token_describes (text : List Char) (state : State) (place : Nat) (token : Token)
    (nth : (tokensFrom text state)[place]? = some token)
    (free : state.normal = .initial ∨ 0 < place) :
    ∃ part, token.span.slice? text = some part ∧ token.kind.Describes part := by
  have normal := Cursor.start_normal text state
  have call := Cursor.next?_of_getElem? nth
  have calls := Cursor.produces_skip (Cursor.start text state) place
  have none_open : ((Cursor.start text state).skip place).state = .initial := by
    rcases Nat.eq_zero_or_pos place with rfl | later
    · exact free.resolve_right (Nat.lt_irrefl 0)
    · refine calls.state_initial normal (fun none_before => ?_) (Cursor.rest_ne_nil call)
      rcases List.take_eq_nil_iff.mp none_before with rfl | empty
      · exact Nat.lt_irrefl 0 later
      · rw [tokensFrom, empty] at nth
        contradiction
  have due : ((Cursor.start text state).skip place).DueAhead :=
    calls.dueAhead normal fun none_yet => absurd none_yet Bool.false_ne_true
  obtain ⟨taken, cut, describes, span⟩ := Cursor.next?_describes call none_open due
  obtain ⟨front, whole, reached⟩ := calls.passed
  have whole : text = front ++ taken ++ ((Cursor.start text state).skip (place + 1)).rest := by
    rw [List.append_assoc, ← cut]
    exact whole
  have reached : ((Cursor.start text state).skip place).offset = Text.byteLength front := by
    rw [reached]
    exact Nat.zero_add _
  refine ⟨taken, ?_, describes⟩
  rw [span, reached, whole]
  exact Span.slice?_append front taken _

/-- The dot after a qualifier, where the text was entered inside a comment. -/
theorem token_describes_of_dot :
    ∃ part, Span.slice? ⟨6, 7⟩ "a-\x7d Mb.+".toList = some part ∧ Kind.dot.Describes part :=
  token_describes "a-\x7d Mb.+".toList (.blockComment 1) 3 ⟨.dot, ⟨6, 7⟩⟩ (by decide +kernel)
    (Or.inr (by decide))

end Lexer

end HaskellHighlight
