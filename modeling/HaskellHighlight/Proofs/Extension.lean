import HaskellHighlight.Proofs.CommentScan
import HaskellHighlight.Proofs.Lookahead
import HaskellHighlight.Proofs.Reachable

/-! Text added at the end of a text. The tokens that a stop follows stay as they are. -/
namespace HaskellHighlight.Lexer

namespace Lexeme
variable {text : List Char}

theorem startsQualified_append (h : hasStop text = true) (more : List Char) :
    startsQualified (text ++ more) = startsQualified text := by
  match text with
  | [] => contradiction
  | [c] =>
    have other : c ≠ '.' := by rintro rfl; exact absurd h (by decide)
    simp [startsQualified, other]
  | c :: d :: rest =>
    by_cases point : c = '.'
    · rw [point]
      rfl
    · simp [startsQualified, point]

theorem word_append (h : (word text).length < text.length) (more : List Char) :
    word (text ++ more) = word text := by
  simp only [word, takeWhile_append_of_lt h more]

theorem constructor_append (h : hasStop (text.drop (constructor text).length) = true)
    (more : List Char) : constructor (text ++ more) = constructor text := by
  change hasStop (text.drop (runLength isIdentChar text)) = true at h
  have left := lt_length_of_hasStop_drop h
  have run : runLength isIdentChar (text ++ more) = runLength isIdentChar text :=
    runLength_append_of_lt left more
  have joins : startsQualified ((text ++ more).drop (runLength isIdentChar text)) =
      startsQualified (text.drop (runLength isIdentChar text)) := by
    rw [List.drop_append_of_le_length (Nat.le_of_lt left)]
    exact startsQualified_append h more
  simp only [constructor, run, joins]

theorem symbol_append (h : (symbol text).length < text.length) (more : List Char) :
    symbol (text ++ more) = symbol text := by
  have run : (text ++ more).takeWhile isSymbol = text.takeWhile isSymbol := by
    apply takeWhile_append_of_lt
    rw [runLength]
    simp only [symbol] at h
    split at h <;> simp only [plain] at h <;> omega
  simp only [symbol, run] at h ⊢
  split
  · rename_i dashes
    rw [if_pos dashes] at h
    have length := (List.takeWhile_sublist isSymbol (l := text)).length_le
    have comment : runLength (!isLineBreak ·) (text.drop (text.takeWhile isSymbol).length) <
        (text.drop (text.takeWhile isSymbol).length).length := by
      rw [List.length_drop]
      simp only [plain] at h
      omega
    rw [List.drop_append_of_le_length length, runLength_append_of_lt comment]
  · rfl

end Lexeme

namespace Dispatch
variable {c : Char} {rest : List Char} {lexeme : Lexeme}

/-- The unit that a rule gives is the same whatever is added to the text after a stop. -/
theorem append (h : Dispatch c rest lexeme)
    (stop : hasStop ((c :: rest).drop lexeme.length) = true) (more : List Char) :
    Dispatch c (rest ++ more) lexeme := by
  have left : lexeme.length < (c :: rest).length := lt_length_of_hasStop_drop stop
  cases h with
  | comment body =>
    have closed : (commentTail 1 body).2 = .initial := by
      rcases commentTail_state Nat.one_pos body with closed | ⟨-, length⟩
      · exact closed
      · simp only [Lexeme.comment, length, List.length_cons] at left
        omega
    have same := commentTail_append_closed closed more
    exact same ▸ Dispatch.comment (body ++ more)
  | special special h =>
    exact .special special fun brace => (head?_append_of_stop stop more).symm ▸ h brace
  | lineFeed => exact .lineFeed _
  | carriageReturn h => exact .carriageReturn ((head?_append_of_stop stop more).symm ▸ h)
  | bothBreaks rest => exact .bothBreaks _
  | space h =>
    have same := runLength_append_of_lt left more
    exact same ▸ Dispatch.space h (rest ++ more)
  | string =>
    have same := stringTail_append .body more (Nat.lt_of_succ_lt_succ (Nat.one_add _ ▸ left))
    exact same ▸ Dispatch.string (rest ++ more)
  | character h =>
    rw [Lexeme.plain, Nat.one_add, List.drop_succ_cons] at stop
    exact .character ((characterTail?_append (hasStop_of_drop stop) more).trans h)
  | strayQuote h => exact .strayQuote ((characterTail?_append stop more).trans h)
  | number h =>
    have same := number_append stop more
    exact same ▸ Dispatch.number h (rest ++ more)
  | smallName h =>
    have same := Lexeme.word_append left more
    exact same ▸ Dispatch.smallName h (rest ++ more)
  | largeName h =>
    have same := Lexeme.constructor_append stop more
    exact same ▸ Dispatch.largeName h (rest ++ more)
  | operator h =>
    have same := Lexeme.symbol_append left more
    exact same ▸ Dispatch.operator h (rest ++ more)
  | unknown rest special blank quote digit name symbol =>
    exact .unknown _ special blank quote digit name symbol

/-- A line break at the end of a text stays one, if the text that is added does not turn a single
carriage return into the first half of another line break. -/
theorem append_lineBreak (h : Dispatch c rest lexeme) (kind : lexeme.kind = .newline)
    (last : lexeme.length = (c :: rest).length) {more : List Char}
    (whole : ¬ ((c :: rest).getLast? = some '\r' ∧ more.head? = some '\n')) :
    isLineBreak c = true ∧ lexeme.state = .initial ∧ lexeme.qualifierDot = false ∧
      Dispatch c (rest ++ more) lexeme := by
  cases h with
  | lineFeed => exact ⟨rfl, rfl, rfl, .lineFeed _⟩
  | carriageReturn =>
    obtain rfl : rest = [] := List.length_eq_zero_iff.mp (Nat.succ.inj last).symm
    exact ⟨rfl, rfl, rfl, .carriageReturn fun feed => whole ⟨rfl, feed⟩⟩
  | bothBreaks => exact ⟨rfl, rfl, rfl, .bothBreaks _⟩
  | comment | special | space | string | character | strayQuote | number | largeName
  | unknown => contradiction
  | smallName => exact absurd kind (word_kind_ne _).2
  | operator => exact absurd kind (symbol_kind_ne _).2

/-- The only unit that leaves something open is a comment. -/
theorem open_comment (h : Dispatch c rest lexeme) {depth : Nat}
    (state : lexeme.state = .blockComment depth) :
    ∃ body, c = '\x7b' ∧ rest = '-' :: body ∧ lexeme = .comment 2 (commentTail 1 body) := by
  cases h with
  | comment body => exact ⟨body, rfl, rfl, rfl⟩
  | special | lineFeed | carriageReturn | bothBreaks | space | string | character | strayQuote
  | number | smallName | largeName | unknown => contradiction
  | operator => exact absurd ((symbol_plain _).1.symm.trans state) (by simp)

end Dispatch

namespace Cursor
variable {cursor after last : Cursor} {token : Token} {tokens : List Token}

def extend (cursor : Cursor) (more : List Char) : Cursor :=
  { cursor with rest := cursor.rest ++ more }

theorem lexeme_extend (normal : cursor.state.normal = cursor.state) {c : Char} {rest : List Char}
    (stop : hasStop ((c :: rest).drop (cursor.lexeme c rest).length) = true) (more : List Char) :
    (cursor.extend more).lexeme c (rest ++ more) = cursor.lexeme c rest := by
  have same_state : (cursor.extend more).state = cursor.state := rfl
  have same_dot : (cursor.extend more).qualifierDot = cursor.qualifierDot := rfl
  simp only [lexeme, same_state, same_dot] at stop ⊢
  cases state : cursor.state with
  | initial =>
    simp only [state] at stop ⊢
    split
    · rfl
    · rename_i none_due
      rw [if_neg none_due] at stop
      exact ((Lexeme.first_dispatch c rest).append stop more).first_eq
  | blockComment depth =>
    rw [state] at normal
    simp only [state] at stop ⊢
    have closed : (commentTail depth (c :: rest)).2 = .initial := by
      rcases commentTail_state (State.depth_pos_of_normal normal) (c :: rest) with
        closed | ⟨-, length⟩
      · exact closed
      · rw [Lexeme.comment, Nat.zero_add, length, List.drop_length] at stop
        contradiction
    rw [← List.cons_append, commentTail_append_closed closed]

theorem next?_extend {c : Char} {rest more : List Char} (text : cursor.rest = c :: rest)
    (call : cursor.next? = some (token, after))
    (same : (cursor.extend more).lexeme c (rest ++ more) = cursor.lexeme c rest) :
    (cursor.extend more).next? = some (token, after.extend more) := by
  rw [next?_of_cons text, Option.some.injEq, Prod.mk.injEq] at call
  obtain ⟨rfl, rfl⟩ := call
  have extended : (cursor.extend more).rest = c :: (rest ++ more) := by
    rw [extend, text, List.cons_append]
  have length := cursor.lexeme_length_le c rest
  rw [next?_of_cons extended, same, ← List.cons_append]
  simp only [List.take_append_of_le_length length, List.drop_append_of_le_length length, extend]

/-- A call of `next?` returns the same whatever is added to the text after a stop. -/
theorem next?_extend_of_stop (normal : cursor.state.normal = cursor.state)
    (call : cursor.next? = some (token, after)) (stop : hasStop after.rest = true)
    (more : List Char) : (cursor.extend more).next? = some (token, after.extend more) := by
  obtain ⟨c, rest, text, -, -, -, taken, -, length, cut, -⟩ := next?_eq_some call
  apply next?_extend text call
  apply lexeme_extend normal
  rwa [← length, ← text, cut, List.drop_left]

theorem Produces.extend (calls : Produces cursor tokens last)
    (normal : cursor.state.normal = cursor.state) (stop : hasStop last.rest = true)
    (more : List Char) : Produces (cursor.extend more) tokens (last.extend more) := by
  induction calls with
  | done => exact .done _
  | step call calls ih =>
    obtain ⟨taken, text, -⟩ := calls.passed
    have later : hasStop (taken ++ _) = true := hasStop_append_left taken stop
    have after_normal := (Produces.step call (.done _)).normal normal
    exact .step (next?_extend_of_stop normal call (text ▸ later) more) (ih after_normal stop)

/-- Where a comment starts that stays open, the mark that opens it is a stop. -/
theorem hasStop_of_open (state : cursor.state = .initial)
    (call : cursor.next? = some (token, after)) (left : after.state ≠ .initial) :
    hasStop cursor.rest = true := by
  obtain ⟨c, rest, text, -, unit_state, -⟩ := next?_eq_some call
  rw [lexeme_initial state] at unit_state
  split at unit_state
  · exact absurd unit_state left
  · cases opened : after.state with
    | initial => exact absurd opened left
    | blockComment depth =>
      obtain ⟨body, rfl, rfl, -⟩ :=
        (Lexeme.first_dispatch c rest).open_comment (unit_state.symm.trans opened)
      rw [text]
      rfl

end Cursor

end HaskellHighlight.Lexer
