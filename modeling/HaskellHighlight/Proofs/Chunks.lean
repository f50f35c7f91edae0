import HaskellHighlight.Proofs.Extension

/-! Lexing a text piece by piece. Each piece is entered in the state that the one before it left,
and what comes out is the same as when the whole text is lexed at once, if it is cut after a line
break or inside a comment. -/
namespace HaskellHighlight.Lexer
open Cursor

def stateAfter (text : List Char) (state : State) : State := (start text state).finalState

/-- The tokens of two consecutive parts of a text in one row. Where a comment is carried from the
one part to the other, its two pieces are glued together. -/
def glue (carried : State) (front back : List Token) : List Token :=
  match carried, front.getLast?, back with
  | .blockComment _, some ⟨.blockComment, piece⟩, ⟨.blockComment, next⟩ :: later =>
    front.dropLast ++ ⟨.blockComment, ⟨piece.start, next.stop⟩⟩ :: later
  | _, _, _ => front ++ back

/-- What the pieces so far have given: the tokens at their places in the joined text, its length
in bytes, and the state that is carried to the next piece. -/
structure Progress where
  tokens : List Token
  bytes : Nat
  state : State

def Progress.add (progress : Progress) (chunk : List Char) : Progress where
  tokens := glue progress.state progress.tokens
    ((tokensFrom chunk progress.state).map (·.shift progress.bytes))
  bytes := progress.bytes + Text.byteLength chunk
  state := stateAfter chunk progress.state

def lexWhole (state : State) (text : List Char) : Progress :=
  ⟨tokensFrom text state, Text.byteLength text, stateAfter text state⟩

def lexChunks (state : State) (chunks : List (List Char)) : Progress :=
  chunks.foldl Progress.add ⟨[], 0, state.normal⟩

def Cursor.commentBody (cursor : Cursor) : List Char :=
  match cursor.state with
  | .initial => cursor.rest.drop 2
  | .blockComment _ => cursor.rest

/-- What the last token of a text has after the mark that opens it there, if that token is a
comment. -/
def openComment (text : List Char) (state : State) : List Char :=
  ((start text state).skip ((tokensFrom text state).length - 1)).commentBody

/-- Whether a text may be cut between `chunk`, which the pieces `front` precede, and `after`. Either
the last token of the piece is a line break that the cut leaves whole, or a comment is open there
and the cut does not tear apart a mark that the scan of the joined text would meet. -/
def MayCut (state : State) (front : List (List Char)) (chunk after : List Char) : Prop :=
  let carried := (lexChunks state front).state
  ((tokensFrom chunk carried).getLast?.map Token.kind = some .newline ∧
      ¬ (chunk.getLast? = some '\r' ∧ after.head? = some '\n')) ∨
    ((∃ depth, stateAfter chunk carried = .blockComment depth) ∧
      splitsMark (openComment (front.flatten ++ chunk) state) after = false)

namespace Cursor
variable {cursor after : Cursor} {token : Token} {c : Char} {rest more : List Char} {depth : Nat}

theorem lexeme_lineBreak (kind : (cursor.lexeme c rest).kind = .newline) :
    cursor.state = .initial ∧ cursor.qualifierDot = false := by
  cases entered : cursor.state with
  | blockComment depth =>
    rw [lexeme_blockComment entered] at kind
    contradiction
  | initial =>
    rw [lexeme_initial entered] at kind
    split at kind
    · contradiction
    · rename_i none_due
      exact ⟨rfl, Bool.eq_false_iff.mpr none_due⟩

/-- The scan of a comment that is open at the end of the text goes on in the text that is added. -/
theorem lexeme_extend_open (text : cursor.rest = c :: rest)
    (state : (cursor.lexeme c rest).state = .blockComment depth)
    (whole : splitsMark cursor.commentBody more = false) :
    (cursor.extend more).lexeme c (rest ++ more) =
      .comment cursor.rest.length (commentTail depth more) := by
  cases entered : cursor.state with
  | initial =>
    have entered_too : (cursor.extend more).state = .initial := entered
    rw [lexeme_initial entered] at state
    rw [lexeme_initial entered_too]
    split at state
    · contradiction
    · rename_i none_due
      have none_due_too : ¬ (cursor.extend more).qualifierDot = true := none_due
      obtain ⟨body, rfl, rfl, unit⟩ := (Lexeme.first_dispatch c rest).open_comment state
      rw [unit] at state
      rw [commentBody, entered, text] at whole
      have scan := commentTail_append_open state whole
      rw [if_neg none_due_too, text, List.cons_append]
      change Lexeme.comment 2 (commentTail 1 (body ++ more)) = _
      rw [scan]
      have length (n : Nat) : 2 + (body.length + n) = body.length + 1 + 1 + n := by omega
      simp only [Lexeme.comment, List.length_cons, length]
  | blockComment nested =>
    have entered_too : (cursor.extend more).state = .blockComment nested := entered
    rw [lexeme_blockComment entered] at state
    rw [lexeme_blockComment entered_too, ← List.cons_append]
    rw [commentBody, entered, text] at whole
    rw [commentTail_append_open state whole, text]
    simp only [Lexeme.comment, Nat.zero_add]

/-- A line break at the end of a text is a stop, and it is the same token in a longer text that it is
whole in. -/
theorem next?_extend_lineBreak (call : cursor.next? = some (token, after))
    (kind : token.kind = .newline) (none_left : after.rest = [])
    (whole : ¬ (cursor.rest.getLast? = some '\r' ∧ more.head? = some '\n')) :
    hasStop cursor.rest = true ∧ after.state = .initial ∧ after.qualifierDot = false ∧
      (cursor.extend more).next? = some (token, after.extend more) := by
  obtain ⟨c, rest, text, unit_kind, unit_state, unit_dot, taken, -, length, cut, -⟩ :=
    next?_eq_some call
  rw [none_left, List.append_nil, text] at cut
  rw [text] at whole
  rw [unit_kind] at kind
  have free : cursor.state = .initial ∧ cursor.qualifierDot = false := lexeme_lineBreak kind
  have free_too : (cursor.extend more).state = .initial ∧
      (cursor.extend more).qualifierDot = false := free
  have unit : cursor.lexeme c rest = .first c rest := lexeme_free free.1 free.2 c rest
  rw [unit] at kind length unit_state unit_dot
  obtain ⟨lineBreak, closed, none_due, joined⟩ :=
    (Lexeme.first_dispatch c rest).append_lineBreak kind (length ▸ cut ▸ rfl) whole
  refine ⟨?_, unit_state.trans closed, unit_dot.trans none_due, next?_extend text call ?_⟩
  · rw [text, hasStop, lineBreak]
    rfl
  · rw [unit, lexeme_free free_too.1 free_too.2, joined.first_eq]

/-- One more call where a comment goes on in added text, and the same call on that text alone: the
tokens stop at the same place, and the cursors after them are the same. -/
theorem next?_extend_open (call : cursor.next? = some (token, after))
    (state : after.state = .blockComment depth) (normal : after.state.normal = after.state)
    (none_left : after.rest = []) (whole : splitsMark cursor.commentBody more = false)
    (nonempty : more ≠ []) :
    ∃ stop last, (cursor.extend more).next? = some (⟨.blockComment, cursor.offset, stop⟩, last) ∧
      ((start more (.blockComment depth)).shift after.offset).next? =
        some (⟨.blockComment, after.offset, stop⟩, last) := by
  obtain ⟨c, rest, text, -, unit, -, taken, -, -, cut, -, moved⟩ := next?_eq_some call
  obtain ⟨d, others, rfl⟩ := List.exists_cons_of_ne_nil nonempty
  rw [none_left, List.append_nil] at cut
  rw [state] at normal unit
  have extended : (cursor.extend (d :: others)).rest = c :: (rest ++ d :: others) := by
    rw [extend, text, List.cons_append]
  have fresh : ((start (d :: others) (.blockComment depth)).shift after.offset).rest =
      d :: others := rfl
  have fresh_state : ((start (d :: others) (.blockComment depth)).shift after.offset).state =
      .blockComment depth := normal
  rw [next?_of_cons extended, lexeme_extend_open text unit.symm whole, next?_of_cons fresh,
    lexeme_blockComment fresh_state, ← List.cons_append, ← text]
  generalize commentTail depth (d :: others) = scan
  simp only [Lexeme.comment, Nat.zero_add, List.take_length_add_append,
    List.drop_length_add_append, Text.byteLength_append, moved, ← cut]
  refine ⟨_, _, rfl, ?_⟩
  simp only [start, shift, extend, Nat.zero_add, Nat.add_assoc]

end Cursor

section cut
variable {state : State} {before after : List Char}

/-- The invariant of lexing in pieces. Between what was lexed and what is left the whole text may be
cut. -/
def Ready (state : State) (before after : List Char) : Prop :=
  before = [] ∨
  ((tokensFrom before state).getLast?.map Token.kind = some .newline ∧
    ¬ (before.getLast? = some '\r' ∧ after.head? = some '\n')) ∨
  ((∃ depth, stateAfter before state = .blockComment depth) ∧
    splitsMark (openComment before state) after = false)

private theorem last_call (state : State) (nonempty : before ≠ []) :
    ∃ front last mid final, tokensFrom before state = front ++ [last] ∧
      (start before state).skip ((tokensFrom before state).length - 1) = mid ∧
      Produces (start before state) front mid ∧ mid.next? = some (last, final) ∧
      final.rest = [] ∧ final.offset = Text.byteLength before ∧
      stateAfter before state = final.state := by
  obtain ⟨final, calls, finished, same⟩ := produces_tokens (start before state)
  have none_left : final.rest = [] := next?_eq_none_iff.mp finished
  obtain ⟨taken, text, offset⟩ := calls.passed
  obtain rfl : before = taken := by
    rw [none_left, List.append_nil] at text
    exact text
  have some_token : tokensFrom before state ≠ [] := fun none =>
    nonempty (tokens_eq_nil_iff.mp none)
  obtain ⟨front, last, split⟩ :=
    (List.eq_nil_or_concat (tokensFrom before state)).resolve_left some_token
  rw [List.concat_eq_append] at split
  have calls : Produces (start before state) (front ++ [last]) final := split ▸ calls
  obtain ⟨mid, calls, call⟩ := calls.split_last
  refine ⟨front, last, mid, final, split, ?_, calls, call, none_left, ?_, same⟩
  · rw [split, List.length_append, List.length_singleton, Nat.add_sub_cancel, calls.skip_eq]
  · rw [offset]
    exact Nat.zero_add _

private theorem front_tokens {front : List Token} {mid : Cursor}
    (calls : Produces (start before state) front mid)
    (stop : front ≠ [] → hasStop mid.rest = true) (after : List Char) :
    tokensFrom (before ++ after) state = front ++ (mid.extend after).tokens ∧
      stateAfter (before ++ after) state = (mid.extend after).finalState := by
  have joined : Produces (start (before ++ after) state) front (mid.extend after) := by
    cases calls with
    | done => exact .done _
    | step call more =>
      have calls := Produces.step call more
      exact calls.extend (start_normal before state) (stop (List.cons_ne_nil _ _)) after
  exact ⟨joined.tokens_eq, joined.finalState_eq⟩

private theorem getLast?_append_of_ne_nil {α : Type} (front : List α) {back : List α}
    (h : back ≠ []) : (front ++ back).getLast? = back.getLast? := by
  obtain ⟨c, rest, rfl⟩ := List.exists_cons_of_ne_nil h
  rw [List.getLast?_append, List.getLast?_cons, Option.some_or]

private theorem glue_initial (front back : List Token) :
    glue .initial front back = front ++ back := rfl

private theorem glue_nil (carried : State) (back : List Token) : glue carried [] back = back := by
  cases carried <;> rfl

private theorem glue_comment (depth : Nat) (front later : List Token) (piece next : Span) :
    glue (.blockComment depth) (front ++ [⟨.blockComment, piece⟩])
      (⟨.blockComment, next⟩ :: later) = front ++ ⟨.blockComment, piece.start, next.stop⟩ :: later := by
  simp only [glue, List.getLast?_concat, List.dropLast_concat]

private theorem add_eq
    (tokens : glue (stateAfter before state) (tokensFrom before state)
      ((tokensFrom after (stateAfter before state)).map (·.shift (Text.byteLength before))) =
        tokensFrom (before ++ after) state)
    (final : stateAfter after (stateAfter before state) = stateAfter (before ++ after) state) :
    (lexWhole state before).add after = lexWhole state (before ++ after) := by
  simp only [lexWhole, Progress.add, tokens, final, Text.byteLength_append]

private theorem add_nil (state : State) (after : List Char) :
    (lexWhole state []).add after = lexWhole state after := by
  have entered : stateAfter [] state = state.normal := rfl
  have same : start after state.normal = start after state := by
    rw [start, State.normal_normal, start]
  apply add_eq
  · have unmoved : (start after state).shift (Text.byteLength []) = start after state := rfl
    rw [entered, tokensFrom, tokensFrom, tokensFrom, same, ← tokens_shift, unmoved]
    exact glue_nil _ _
  · rw [entered, stateAfter, same]
    rfl

theorem add_lineBreak (kind : (tokensFrom before state).getLast?.map Token.kind = some .newline)
    (whole : ¬ (before.getLast? = some '\r' ∧ after.head? = some '\n')) :
    (lexWhole state before).add after = lexWhole state (before ++ after) := by
  have nonempty : before ≠ [] := by
    rintro rfl
    contradiction
  obtain ⟨front, last, mid, final, split, -, calls, call, none_left, offset, same⟩ :=
    last_call state nonempty
  obtain ⟨passed, text, -⟩ := calls.passed
  change before = passed ++ mid.rest at text
  rw [split, List.getLast?_concat, Option.map_some, Option.some.injEq] at kind
  have left : mid.rest ≠ [] := rest_ne_nil call
  rw [text, getLast?_append_of_ne_nil _ left] at whole
  obtain ⟨stop, closed, none_due, joined⟩ := next?_extend_lineBreak call kind none_left whole
  have fresh : final.extend after = (start after .initial).shift (Text.byteLength before) := by
    simp only [extend, start, shift, none_left, offset, closed, none_due, State.normal,
      List.nil_append, Nat.zero_add]
  obtain ⟨tokens, state_eq⟩ := front_tokens calls (fun _ => stop) after
  apply add_eq
  · rw [tokens, tokens_of_some joined, same, closed, glue_initial, split, fresh, tokens_shift,
      List.append_assoc]
    rfl
  · rw [state_eq, finalState_of_some joined, same, closed, fresh, finalState_shift]
    rfl

theorem add_open {depth : Nat} (carried : stateAfter before state = .blockComment depth)
    (whole : splitsMark (openComment before state) after = false) (nonempty : before ≠ [])
    (more : after ≠ []) : (lexWhole state before).add after = lexWhole state (before ++ after) := by
  obtain ⟨front, last, mid, final, split, mid_eq, calls, call, none_left, offset, same⟩ :=
    last_call state nonempty
  rw [openComment, mid_eq] at whole
  have mid_normal := calls.normal (start_normal before state)
  have final_normal := (Produces.step call (.done final)).normal mid_normal
  have final_state : final.state = .blockComment depth := same.symm.trans carried
  obtain ⟨stop, rest, joined, alone⟩ :=
    next?_extend_open call final_state final_normal none_left whole more
  obtain ⟨-, -, -, -, -, -, -, -, -, -, span, -⟩ := next?_eq_some call
  have kind : last.kind = .blockComment := by
    rcases next?_state call mid_normal with closed | ⟨-, kind, -⟩
    · rw [closed] at final_state
      contradiction
    · exact kind
  have stop_ahead (some_token : front ≠ []) : hasStop mid.rest = true := by
    have left : mid.rest ≠ [] := rest_ne_nil call
    apply hasStop_of_open (calls.state_initial (start_normal before state) some_token left) call
    rw [final_state]
    exact State.noConfusion
  obtain ⟨tokens, state_eq⟩ := front_tokens calls stop_ahead after
  rw [offset] at alone
  apply add_eq
  · rw [tokens, tokens_of_some joined, carried, split]
    rw [tokensFrom, ← tokens_shift, tokens_of_some alone]
    have last_eq : last = ⟨.blockComment, mid.offset, final.offset⟩ := by
      rw [← kind, ← span]
    rw [last_eq, glue_comment]
  · rw [state_eq, finalState_of_some joined, carried, stateAfter,
      ← finalState_shift _ (Text.byteLength before), finalState_of_some alone]

/-- Where a text may be cut, lexing goes on after the cut as in one go. -/
theorem add_ready (ready : Ready state before after) (more : after ≠ []) :
    (lexWhole state before).add after = lexWhole state (before ++ after) := by
  by_cases nonempty : before = []
  · subst nonempty
    exact add_nil state after
  · rcases ready with rfl | ⟨kind, whole⟩ | ⟨⟨depth, carried⟩, whole⟩
    · contradiction
    · exact add_lineBreak kind whole
    · exact add_open carried whole nonempty more

end cut

section run
variable {state : State} {front : List (List Char)} {chunk later : List Char}

private theorem glue_nil_right (carried : State) (front : List Token) :
    glue carried front [] = front := by
  unfold glue
  split
  · contradiction
  · exact List.append_nil front

private theorem glue_last_kind (carried : State) (front : List Token) {back : List Token}
    (h : back ≠ []) :
    (glue carried front back).getLast?.map Token.kind = back.getLast?.map Token.kind := by
  unfold glue
  split
  · rename_i next later _
    rw [getLast?_append_of_ne_nil _ (List.cons_ne_nil _ _)]
    cases later with
    | nil => rfl
    | cons token later => rw [List.getLast?_cons_cons, List.getLast?_cons_cons]
  · rw [getLast?_append_of_ne_nil _ h]

private theorem stateAfter_normal (text : List Char) (state : State) :
    (stateAfter text state).normal = stateAfter text state := by
  obtain ⟨last, calls, -, final⟩ := produces_tokens (start text state)
  rw [stateAfter, final]
  exact calls.normal (start_normal text state)

private theorem add_empty (before : List Char) :
    (lexWhole state before).add [] = lexWhole state before := by
  have final : stateAfter [] (stateAfter before state) = stateAfter before state :=
    stateAfter_normal before state
  simp only [lexWhole, Progress.add, final, Text.byteLength, Nat.add_zero]
  exact congrArg (Progress.mk · _ _) (glue_nil_right _ _)

private theorem Ready.first {before : List Char} (ready : Ready state before (chunk ++ later))
    (h : chunk ≠ []) : Ready state before chunk := by
  have next : (chunk ++ later).head? = chunk.head? := by
    obtain ⟨c, rest, rfl⟩ := List.exists_cons_of_ne_nil h
    rfl
  rcases ready with empty | ⟨kind, whole⟩ | ⟨carried, whole⟩
  · exact Or.inl empty
  · exact Or.inr (Or.inl ⟨kind, next ▸ whole⟩)
  · exact Or.inr (Or.inr ⟨carried, (splitsMark_congr _ next).symm.trans whole⟩)

private theorem add_chunk (run : lexChunks state front = lexWhole state front.flatten)
    (ready : chunk ++ later ≠ [] → Ready state front.flatten (chunk ++ later))
    (cut : chunk ≠ [] → later ≠ [] → MayCut state front chunk later) :
    lexChunks state (front ++ [chunk]) = lexWhole state (front.flatten ++ chunk) ∧
      (later ≠ [] → Ready state (front.flatten ++ chunk) later) := by
  have last : lexChunks state (front ++ [chunk]) = (lexWhole state front.flatten).add chunk := by
    rw [← run, lexChunks, lexChunks, List.foldl_append]
    rfl
  by_cases empty : chunk = []
  · subst empty
    rw [last, add_empty, List.append_nil]
    exact ⟨rfl, ready⟩
  have first : Ready state front.flatten chunk := (ready (by simp [empty])).first empty
  have joined := add_ready first empty
  rw [last, joined]
  refine ⟨rfl, fun more => Or.inr ?_⟩
  have carried : (lexChunks state front).state = stateAfter front.flatten state := by
    rw [run, lexWhole]
  have tokens := congrArg Progress.tokens joined
  have final := congrArg Progress.state joined
  simp only [lexWhole, Progress.add] at tokens final
  -- the joined text ends in the token that the piece ends in, and in the same state
  rcases cut empty more with ⟨kind, whole⟩ | ⟨⟨depth, opened⟩, whole⟩
  · refine Or.inl ⟨?_, ?_⟩
    · have some_token : tokensFrom chunk (stateAfter front.flatten state) ≠ [] := fun none =>
        empty (tokens_eq_nil_iff.mp none)
      rw [carried] at kind
      rw [← tokens, glue_last_kind _ _ (by simpa using some_token), List.getLast?_map,
        Option.map_map]
      exact kind
    · rwa [getLast?_append_of_ne_nil _ empty]
  · rw [carried] at opened
    exact Or.inr ⟨⟨depth, final.symm.trans opened⟩, whole⟩

end run

/-- What the pieces of a text give is what the text gives in one go, if every piece that is not
empty and has text behind it ends where the text may be cut. -/
theorem lexChunks_whole (state : State) (chunks : List (List Char))
    (cuts : ∀ k (h : k < chunks.length), chunks[k] ≠ [] → (chunks.drop (k + 1)).flatten ≠ [] →
      MayCut state (chunks.take k) chunks[k] (chunks.drop (k + 1)).flatten) :
    lexChunks state chunks = lexWhole state chunks.flatten := by
  have run (k : Nat) (le : k ≤ chunks.length) :
      lexChunks state (chunks.take k) = lexWhole state (chunks.take k).flatten ∧
        ((chunks.drop k).flatten ≠ [] →
          Ready state (chunks.take k).flatten (chunks.drop k).flatten) := by
    induction k with
    | zero => exact ⟨rfl, fun _ => Or.inl rfl⟩
    | succ k ih =>
      obtain ⟨whole, ready⟩ := ih (Nat.le_of_succ_le le)
      have split : chunks.drop k = chunks[k] :: chunks.drop (k + 1) := List.drop_eq_getElem_cons le
      rw [split, List.flatten_cons] at ready
      rw [List.take_succ_eq_append_getElem le, List.flatten_append, List.flatten_singleton]
      exact add_chunk whole ready (cuts k le)
  obtain ⟨whole, -⟩ := run chunks.length (Nat.le_refl _)
  rwa [List.take_length] at whole

/-- Lexing a text in pieces gives the tokens and the final state of lexing it in one go, if every
piece that is not empty and has text behind it ends where the text may be cut. A cut right after a
line break never tears a mark apart. -/
theorem lexChunks_eq (state : State) (chunks : List (List Char))
    (cuts : ∀ k (h : k < chunks.length), chunks[k] ≠ [] → (chunks.drop (k + 1)).flatten ≠ [] →
      MayCut state (chunks.take k) chunks[k] (chunks.drop (k + 1)).flatten) :
    (lexChunks state chunks).tokens = tokensFrom chunks.flatten state ∧
      (lexChunks state chunks).state = stateAfter chunks.flatten state ∧
      ∀ before c after, isLineBreak c = true → splitsMark (before ++ [c]) after = false := by
  rw [lexChunks_whole state chunks cuts]
  exact ⟨rfl, rfl, fun before c after h => splitsMark_lineBreak h before after⟩

/-- Both kinds of cuts, and a piece that is empty. -/
theorem lexChunks_eq_of_lines :
    let chunks := ["f \x7b- a", "", "b -\x7d\n", "g"].map String.toList
    (lexChunks .initial chunks).tokens = tokens chunks.flatten ∧
      (lexChunks .initial chunks).state = .initial := by
  intro chunks
  have cuts (k : Nat) (h : k < chunks.length) : chunks[k] ≠ [] →
      (chunks.drop (k + 1)).flatten ≠ [] →
      MayCut .initial (chunks.take k) chunks[k] (chunks.drop (k + 1)).flatten := by
    intro nonempty more
    match k with
    | 0 =>
      change MayCut .initial [] "f \x7b- a".toList "b -\x7d\ng".toList
      exact Or.inr ⟨⟨1, by decide +kernel⟩, by decide +kernel⟩
    | 1 => contradiction
    | 2 =>
      change MayCut .initial ["f \x7b- a".toList, []] "b -\x7d\n".toList "g".toList
      exact Or.inl ⟨by decide +kernel, by decide +kernel⟩
    | 3 => contradiction
  obtain ⟨tokens, final, -⟩ := lexChunks_eq .initial chunks cuts
  exact ⟨tokens, final.trans (by decide +kernel)⟩

end HaskellHighlight.Lexer
