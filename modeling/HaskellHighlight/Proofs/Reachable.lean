import HaskellHighlight.Proofs.Iteration

/-! What holds between two tokens: a comment is open only at the end of the text, and a dot is due
only where one stands after the name of a constructor. -/
namespace HaskellHighlight.Lexer

/-- A comment ends with its outermost mark, or it reaches the end of the text and stays open. -/
theorem commentTail_state {depth : Nat} (h : 0 < depth) (text : List Char) :
    (commentTail depth text).2 = .initial ∨
      (∃ k, (commentTail depth text).2 = .blockComment (k + 1)) ∧
        (commentTail depth text).1 = text.length := by
  fun_induction commentTail depth text with
  | case1 depth => exact Or.inr ⟨⟨depth - 1, by rw [Nat.sub_add_cancel h]⟩, rfl⟩
  | case2 depth rest length state eq ih =>
    rw [eq] at ih
    simpa only [List.length_cons, Nat.add_right_cancel_iff] using ih (Nat.succ_pos _)
  | case3 => exact Or.inl rfl
  | case4 depth rest deep length state eq ih =>
    rw [eq] at ih
    simpa only [List.length_cons, Nat.add_right_cancel_iff] using ih (by omega)
  | case5 depth c rest _ _ length state eq ih =>
    rw [eq] at ih
    simpa only [List.length_cons, Nat.add_right_cancel_iff] using ih h

namespace State

theorem normal_normal (state : State) : state.normal.normal = state.normal := by
  rcases state with _ | _ | depth <;> rfl

theorem depth_pos_of_normal {depth : Nat} (h : (blockComment depth).normal = blockComment depth) :
    0 < depth := by
  cases depth with
  | zero => contradiction
  | succ k => exact Nat.succ_pos k

end State

namespace Dispatch
variable {c : Char} {rest : List Char} {lexeme : Lexeme}

theorem word_kind (text : List Char) :
    (∃ word, (Lexeme.word text).kind = .reservedWord word) ∨
      (∃ word, (Lexeme.word text).kind = .contextWord word) ∨
      (Lexeme.word text).kind = .name .varId := by
  simp only [Lexeme.word, Lexeme.plain]
  split
  · exact Or.inl ⟨_, rfl⟩
  · split
    · exact Or.inr (Or.inl ⟨_, rfl⟩)
    · exact Or.inr (Or.inr rfl)

theorem word_kind_ne (text : List Char) :
    (Lexeme.word text).kind ≠ .name .conId ∧ (Lexeme.word text).kind ≠ .newline := by
  rcases word_kind text with ⟨_, kind⟩ | ⟨_, kind⟩ | kind <;> simp [kind]

private theorem word_qualifierDot (text : List Char) :
    (Lexeme.word text).qualifierDot = false := rfl

theorem symbol_kind (text : List Char) :
    (∃ op, (Lexeme.symbol text).kind = .reservedOp op) ∨
      (Lexeme.symbol text).kind ∈ [.lineComment, .dot, .name .conSym, .name .varSym] := by
  simp only [Lexeme.symbol]
  split
  · exact Or.inr (by simp [Lexeme.plain])
  · simp only [Lexeme.plain]
    split
    · exact Or.inl ⟨_, rfl⟩
    · split
      · exact Or.inr (by simp)
      · split <;> exact Or.inr (by simp)

theorem symbol_kind_ne (text : List Char) :
    (Lexeme.symbol text).kind ≠ .name .conId ∧ (Lexeme.symbol text).kind ≠ .newline := by
  rcases symbol_kind text with ⟨_, kind⟩ | kind
  · simp [kind]
  · exact ⟨fun same => by simp [same] at kind, fun same => by simp [same] at kind⟩

theorem symbol_plain (text : List Char) :
    (Lexeme.symbol text).state = .initial ∧ (Lexeme.symbol text).qualifierDot = false := by
  simp only [Lexeme.symbol]
  split <;> exact ⟨rfl, rfl⟩

/-- A unit makes a dot due exactly when it is the name of a constructor and what follows it is a
dot that joins it to another name. -/
theorem qualifierDot_iff (h : Dispatch c rest lexeme) :
    lexeme.qualifierDot = true ↔ lexeme.kind = .name .conId ∧
      Lexeme.startsQualified ((c :: rest).drop lexeme.length) = true := by
  cases h with
  | comment | special | lineFeed | carriageReturn | bothBreaks | space | string | character
  | strayQuote | number | unknown => simp [Lexeme.comment, Lexeme.plain]
  | smallName => simp [word_kind_ne, word_qualifierDot]
  | largeName => simp [Lexeme.constructor]
  | operator => simp [symbol_kind_ne, symbol_plain]

/-- A unit leaves nothing open, or it is a comment that reaches the end of the text. -/
theorem state_cases (h : Dispatch c rest lexeme) :
    lexeme.state = .initial ∨
      (∃ k, lexeme.state = .blockComment (k + 1)) ∧ lexeme.kind = .blockComment ∧
        lexeme.length = (c :: rest).length ∧ lexeme.qualifierDot = false := by
  cases h with
  | comment body =>
    rcases commentTail_state Nat.one_pos body with closed | ⟨opened, length⟩
    · exact Or.inl closed
    · refine Or.inr ⟨opened, rfl, ?_, rfl⟩
      simp only [Lexeme.comment, length, List.length_cons]
      omega
  | special | lineFeed | carriageReturn | bothBreaks | space | string | character
  | strayQuote | number | smallName | largeName | unknown => exact Or.inl rfl
  | operator => exact Or.inl (symbol_plain _).1

end Dispatch

namespace Cursor
variable {cursor after last : Cursor} {token : Token} {tokens : List Token}

theorem lexeme_initial (h : cursor.state = .initial) (c : Char) (rest : List Char) :
    cursor.lexeme c rest =
      if cursor.qualifierDot then .plain .dot 1 else .first c rest := by
  simp only [lexeme, h]

theorem lexeme_free (state : cursor.state = .initial) (none_due : cursor.qualifierDot = false)
    (c : Char) (rest : List Char) : cursor.lexeme c rest = .first c rest := by
  rw [lexeme_initial state, none_due, if_neg Bool.false_ne_true]

theorem lexeme_blockComment {depth : Nat} (h : cursor.state = .blockComment depth)
    (c : Char) (rest : List Char) :
    cursor.lexeme c rest = .comment 0 (commentTail depth (c :: rest)) := by
  simp only [lexeme, h]

/-- After a call either nothing is open, or a comment that reaches the end of the text. -/
theorem next?_state (h : cursor.next? = some (token, after))
    (normal : cursor.state.normal = cursor.state) :
    after.state = .initial ∨
      (∃ k, after.state = .blockComment (k + 1)) ∧ token.kind = .blockComment ∧
        after.rest = [] ∧ after.qualifierDot = false := by
  obtain ⟨c, more, text, kind, state, dot, taken, -, length, cut, -⟩ := next?_eq_some h
  have all_taken (all : taken.length = (c :: more).length) : after.rest = [] := by
    have := congrArg List.length (text.symm.trans cut)
    rw [List.length_append] at this
    exact List.length_eq_zero_iff.mp (by omega)
  rw [kind, state, dot]
  rw [length] at all_taken
  cases open_comment : cursor.state with
  | initial =>
    rw [lexeme_initial open_comment] at all_taken ⊢
    split at all_taken
    · exact Or.inl (by simp only [*, if_true]; rfl)
    · rename_i none_due
      simp only [none_due]
      rcases (Lexeme.first_dispatch c more).state_cases with closed | ⟨opened, kind, all, dot⟩
      · exact Or.inl closed
      · exact Or.inr ⟨opened, kind, all_taken all, dot⟩
  | blockComment depth =>
    rw [open_comment] at normal
    rw [lexeme_blockComment open_comment] at all_taken ⊢
    rcases commentTail_state (State.depth_pos_of_normal normal) (c :: more) with
      closed | ⟨opened, all⟩
    · exact Or.inl closed
    · exact Or.inr ⟨opened, rfl, all_taken (by rw [Lexeme.comment, Nat.zero_add, all]), rfl⟩

/-- A dot is due after a token exactly when that is the name of a constructor and what follows it
is a dot that joins it to another name. -/
theorem next?_qualifierDot (h : cursor.next? = some (token, after)) :
    after.qualifierDot = true ↔
      token.kind = .name .conId ∧ Lexeme.startsQualified after.rest = true := by
  obtain ⟨c, more, text, kind, -, dot, taken, -, length, cut, -⟩ := next?_eq_some h
  have left : after.rest = (c :: more).drop (cursor.lexeme c more).length := by
    rw [← text, cut, ← length, List.drop_left]
  rw [kind, dot, left]
  cases open_comment : cursor.state with
  | blockComment depth => simp [lexeme_blockComment open_comment, Lexeme.comment]
  | initial =>
    rw [lexeme_initial open_comment]
    split
    · simp [Lexeme.plain]
    · exact (Lexeme.first_dispatch c more).qualifierDot_iff

theorem Produces.normal (h : Produces cursor tokens last)
    (normal : cursor.state.normal = cursor.state) : last.state.normal = last.state := by
  induction h with
  | done => exact normal
  | step call _ ih =>
    apply ih
    rcases next?_state call normal with closed | ⟨⟨k, opened⟩, -⟩
    · rw [closed]; rfl
    · rw [opened]; rfl

/-- Between two tokens no comment is open. -/
theorem Produces.state_initial (h : Produces cursor tokens last)
    (normal : cursor.state.normal = cursor.state) (behind : tokens ≠ []) (ahead : last.rest ≠ []) :
    last.state = .initial := by
  obtain ⟨front, token, rfl⟩ := (List.eq_nil_or_concat tokens).resolve_left behind
  rw [List.concat_eq_append] at h
  obtain ⟨before, calls, call⟩ := h.split_last
  rcases next?_state call (calls.normal normal) with closed | ⟨-, -, none_left, -⟩
  · exact closed
  · exact absurd none_left ahead

/-- A dot that is due stands right in front of the cursor, and no comment is open there. -/
theorem Produces.qualifierDot (h : Produces cursor tokens last)
    (normal : cursor.state.normal = cursor.state) (none_due : cursor.qualifierDot = false) :
    (last.qualifierDot = true ↔ ∃ token, tokens.getLast? = some token ∧
      token.kind = .name .conId ∧ Lexeme.startsQualified last.rest = true) ∧
    (last.qualifierDot = true → last.state = .initial) := by
  rcases List.eq_nil_or_concat tokens with rfl | ⟨front, token, rfl⟩
  · cases h
    simp [none_due]
  · rw [List.concat_eq_append] at h ⊢
    obtain ⟨before, calls, call⟩ := h.split_last
    rw [List.getLast?_append]
    refine ⟨by simpa using next?_qualifierDot call, fun due => ?_⟩
    rcases next?_state call (calls.normal normal) with closed | ⟨-, -, -, none_due⟩
    · exact closed
    · rw [none_due] at due
      contradiction

/-- What is known of a dot that is due. -/
def DueAhead (cursor : Cursor) : Prop :=
  cursor.qualifierDot = true →
    cursor.state = .initial ∧ Lexeme.startsQualified cursor.rest = true

theorem dueAhead_of_next? (call : cursor.next? = some (token, after))
    (normal : cursor.state.normal = cursor.state) : after.DueAhead := by
  intro due
  refine ⟨?_, ((next?_qualifierDot call).mp due).2⟩
  rcases next?_state call normal with closed | ⟨-, -, -, none_due⟩
  · exact closed
  · rw [none_due] at due
    contradiction

/-- Between two tokens a dot is due only in front of one. -/
theorem Produces.dueAhead (h : Produces cursor tokens last)
    (normal : cursor.state.normal = cursor.state) (due : cursor.DueAhead) : last.DueAhead := by
  induction h with
  | done => exact due
  | step call _ ih =>
    have after_normal := (Produces.step call (.done _)).normal normal
    exact ih after_normal (dueAhead_of_next? call normal)

theorem start_normal (text : List Char) (state : State) :
    (start text state).state.normal = (start text state).state := state.normal_normal

/-- In front of every token but the first, no comment is open. -/
theorem state_skip {text : List Char} {state : State} {place : Nat}
    (nth : (tokensFrom text state)[place + 1]? = some token) :
    ((start text state).skip (place + 1)).state = .initial := by
  have inside : place + 1 < (start text state).tokens.length := (List.getElem?_eq_some_iff.mp nth).1
  have some_token : (start text state).tokens.take (place + 1) ≠ [] := by
    apply List.ne_nil_of_length_pos
    rw [List.length_take]
    omega
  exact (produces_skip (start text state) (place + 1)).state_initial (start_normal text state)
    some_token (rest_ne_nil (next?_of_getElem? nth))

theorem dueAhead_skip (text : List Char) (state : State) (count : Nat) :
    ((start text state).skip count).DueAhead :=
  (produces_skip (start text state) count).dueAhead (start_normal text state)
    fun due => absurd due Bool.false_ne_true

end Cursor

end HaskellHighlight.Lexer
