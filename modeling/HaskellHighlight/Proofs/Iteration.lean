import HaskellHighlight.Lexer.Cursor
import HaskellHighlight.Proofs.Dispatch

/-! The lexer as an iterator: what one call of `next?` does, and what the calls from a cursor to the
end of its text return. -/
namespace HaskellHighlight

theorem Text.byteLength_pos {text : List Char} (h : text ≠ []) : 0 < Text.byteLength text := by
  cases text with
  | nil => exact absurd rfl h
  | cons c rest => exact Nat.add_pos_left c.utf8Size_pos _

namespace Lexer

theorem commentTail_pos (depth : Nat) (c : Char) (rest : List Char) :
    0 < (commentTail depth (c :: rest)).1 := by
  rw [commentTail.eq_def]
  split
  · contradiction
  · exact Nat.succ_pos _
  · split <;> exact Nat.succ_pos _
  · exact Nat.succ_pos _

namespace Cursor
variable {cursor after : Cursor} {token : Token} {c : Char} {rest : List Char}

theorem lexeme_length_pos (cursor : Cursor) (c : Char) (rest : List Char) :
    0 < (cursor.lexeme c rest).length := by
  rw [lexeme]
  split
  · exact Nat.add_pos_right 0 (commentTail_pos _ c rest)
  · split
    · exact Nat.one_pos
    · exact (Lexeme.first_dispatch c rest).length_pos

theorem lexeme_length_le (cursor : Cursor) (c : Char) (rest : List Char) :
    (cursor.lexeme c rest).length ≤ (c :: rest).length := by
  rw [lexeme]
  split
  · rw [Lexeme.comment, Nat.zero_add]
    exact commentTail_le _ _
  · split
    · exact Nat.succ_le_succ (Nat.zero_le _)
    · exact (Lexeme.first_dispatch c rest).length_le

theorem next?_eq_none_iff : cursor.next? = none ↔ cursor.rest = [] := by
  rw [next?]
  split <;> simp_all

theorem rest_ne_nil (h : cursor.next? = some (token, after)) : cursor.rest ≠ [] := by
  intro finished
  rw [next?_eq_none_iff.mpr finished] at h
  contradiction

/-- What a call that returns a token does. The token is not empty, it is cut off the front of the
text that is left, and the cursor moves to its end. -/
theorem next?_eq_some (h : cursor.next? = some (token, after)) :
    ∃ c more, cursor.rest = c :: more ∧
      token.kind = (cursor.lexeme c more).kind ∧
      after.state = (cursor.lexeme c more).state ∧
      after.qualifierDot = (cursor.lexeme c more).qualifierDot ∧
      ∃ taken, taken ≠ [] ∧ taken.length = (cursor.lexeme c more).length ∧
        cursor.rest = taken ++ after.rest ∧
        token.span = ⟨cursor.offset, after.offset⟩ ∧
        after.offset = cursor.offset + Text.byteLength taken := by
  rw [next?] at h
  cases text : cursor.rest with
  | nil => simp [text] at h
  | cons c more =>
    simp only [text, Option.some.injEq, Prod.mk.injEq] at h
    obtain ⟨rfl, rfl⟩ := h
    have pos := cursor.lexeme_length_pos c more
    have le := cursor.lexeme_length_le c more
    have length : ((c :: more).take (cursor.lexeme c more).length).length =
        (cursor.lexeme c more).length := by
      rw [List.length_take]
      exact Nat.min_eq_left le
    refine ⟨c, more, rfl, rfl, rfl, rfl, _, ?_, length, (List.take_append_drop _ _).symm, rfl, rfl⟩
    exact List.ne_nil_of_length_pos (by rw [length]; exact pos)

theorem next?_of_cons (h : cursor.rest = c :: rest) :
    cursor.next? = some
      (let lexeme := cursor.lexeme c rest
      let stop := cursor.offset + Text.byteLength ((c :: rest).take lexeme.length)
      (⟨lexeme.kind, cursor.offset, stop⟩,
        ⟨stop, (c :: rest).drop lexeme.length, lexeme.state, lexeme.qualifierDot⟩)) := by
  simp only [next?, h]

theorem rest_length_lt (h : cursor.next? = some (token, after)) :
    after.rest.length < cursor.rest.length := by
  obtain ⟨-, -, -, -, -, -, taken, nonempty, -, text, -⟩ := next?_eq_some h
  have := List.length_pos_iff.mpr nonempty
  rw [text, List.length_append]
  omega

/-- Induction along the calls of `next?`, which end because each one shortens the text. -/
theorem next_induction {motive : Cursor → Prop}
    (finish : ∀ cursor, cursor.next? = none → motive cursor)
    (step : ∀ cursor token after, cursor.next? = some (token, after) → motive after →
      motive cursor) (cursor : Cursor) : motive cursor := by
  induction length : cursor.rest.length using Nat.strongRecOn generalizing cursor with
  | ind n ih =>
    cases call : cursor.next? with
    | none => exact finish cursor call
    | some pair =>
      obtain ⟨token, after⟩ := pair
      exact step cursor token after call (ih _ (length ▸ rest_length_lt call) after rfl)

/-- More calls than the text has characters neither return a further token nor move the cursor. -/
theorem calls_of_le {m n : Nat} (hm : cursor.rest.length ≤ m) (hn : cursor.rest.length ≤ n) :
    cursor.steps m = cursor.steps n ∧ cursor.skip m = cursor.skip n := by
  induction cursor using next_induction generalizing m n with
  | finish cursor call => cases m <;> cases n <;> simp only [steps, skip, call, and_self]
  | step cursor token after call ih =>
    have shorter := rest_length_lt call
    obtain ⟨m, rfl⟩ : ∃ k, m = k + 1 := ⟨m - 1, by omega⟩
    obtain ⟨n, rfl⟩ : ∃ k, n = k + 1 := ⟨n - 1, by omega⟩
    obtain ⟨same, reached⟩ := ih (m := m) (n := n) (by omega) (by omega)
    simp only [steps, skip, call, same, reached, and_self]

theorem tokens_of_none (h : cursor.next? = none) : cursor.tokens = [] := by
  rw [tokens, allSteps, next?_eq_none_iff.mp h, List.length_nil, steps, List.map_nil]

theorem tokens_of_some (h : cursor.next? = some (token, after)) :
    cursor.tokens = token :: after.tokens := by
  have shorter := rest_length_lt h
  obtain ⟨n, length⟩ : ∃ n, cursor.rest.length = n + 1 := ⟨cursor.rest.length - 1, by omega⟩
  rw [tokens, allSteps, length, steps]
  simp only [h, List.map_cons]
  rw [(calls_of_le (by omega) (Nat.le_refl after.rest.length)).1, tokens, allSteps]

theorem tokens_eq_nil_iff : cursor.tokens = [] ↔ cursor.rest = [] := by
  rw [← next?_eq_none_iff]
  constructor
  · intro h
    cases call : cursor.next? with
    | none => rfl
    | some pair =>
      rw [tokens_of_some call] at h
      contradiction
  · exact tokens_of_none

theorem finalState_of_none (h : cursor.next? = none) : cursor.finalState = cursor.state := by
  rw [finalState, next?_eq_none_iff.mp h, List.length_nil, skip]

theorem finalState_of_some (h : cursor.next? = some (token, after)) :
    cursor.finalState = after.finalState := by
  have shorter := rest_length_lt h
  obtain ⟨n, length⟩ : ∃ n, cursor.rest.length = n + 1 := ⟨cursor.rest.length - 1, by omega⟩
  rw [finalState, length, skip]
  simp only [h]
  rw [(calls_of_le (by omega) (Nat.le_refl after.rest.length)).2, finalState]

def shift (cursor : Cursor) (bytes : Nat) : Cursor :=
  { cursor with offset := cursor.offset + bytes }

theorem lexeme_shift (cursor : Cursor) (bytes : Nat) (c : Char) (rest : List Char) :
    (cursor.shift bytes).lexeme c rest = cursor.lexeme c rest := rfl

theorem next?_shift (cursor : Cursor) (bytes : Nat) :
    (cursor.shift bytes).next? =
      cursor.next?.map fun pair => (pair.1.shift bytes, pair.2.shift bytes) := by
  cases text : cursor.rest with
  | nil => rw [next?_eq_none_iff.mpr text, next?_eq_none_iff.mpr (by exact text), Option.map_none]
  | cons c rest =>
    have moved : (cursor.shift bytes).rest = c :: rest := text
    rw [next?_of_cons text, next?_of_cons moved]
    simp only [lexeme_shift]
    simp only [shift, Token.shift, Span.shift, Option.map_some, Nat.add_right_comm]

theorem tokens_shift (cursor : Cursor) (bytes : Nat) :
    (cursor.shift bytes).tokens = cursor.tokens.map (·.shift bytes) := by
  induction cursor using next_induction with
  | finish cursor call =>
    rw [tokens_of_none call, tokens_of_none (by rw [next?_shift, call]; rfl), List.map_nil]
  | step cursor token after call ih =>
    rw [tokens_of_some call, tokens_of_some (by rw [next?_shift, call]; rfl), List.map_cons, ih]

theorem finalState_shift (cursor : Cursor) (bytes : Nat) :
    (cursor.shift bytes).finalState = cursor.finalState := by
  induction cursor using next_induction with
  | finish cursor call =>
    rw [finalState_of_none call, finalState_of_none (by rw [next?_shift, call]; rfl)]
    rfl
  | step cursor token after call ih =>
    rw [finalState_of_some call, finalState_of_some (by rw [next?_shift, call]; rfl), ih]

/-- The calls of `next?` that lead from one cursor to another, and the tokens they return. -/
inductive Produces : Cursor → List Token → Cursor → Prop where
  | done (cursor : Cursor) : Produces cursor [] cursor
  | step {cursor after last : Cursor} {token : Token} {tokens : List Token}
      (call : cursor.next? = some (token, after)) (more : Produces after tokens last) :
      Produces cursor (token :: tokens) last

namespace Produces
variable {last final : Cursor} {front back : List Token}

theorem trans (h : Produces cursor front last) (hs : Produces last back final) :
    Produces cursor (front ++ back) final := by
  induction h with
  | done => exact hs
  | step call _ ih => exact .step call (ih hs)

theorem tokens_eq (h : Produces cursor front last) : cursor.tokens = front ++ last.tokens := by
  induction h with
  | done => rfl
  | step call _ ih => rw [tokens_of_some call, ih, List.cons_append]

theorem finalState_eq (h : Produces cursor front last) : cursor.finalState = last.finalState := by
  induction h with
  | done => rfl
  | step call _ ih => rw [finalState_of_some call, ih]

/-- Calls move the cursor over a part of the text, and its offset by the bytes of that part. -/
theorem passed (h : Produces cursor front last) :
    ∃ taken, cursor.rest = taken ++ last.rest ∧
      last.offset = cursor.offset + Text.byteLength taken := by
  induction h with
  | done => exact ⟨[], rfl, rfl⟩
  | step call _ ih =>
    obtain ⟨-, -, -, -, -, -, unit, -, -, cut, -, moved⟩ := next?_eq_some call
    obtain ⟨taken, text, offset⟩ := ih
    refine ⟨unit ++ taken, ?_, ?_⟩
    · rw [cut, text, List.append_assoc]
    · rw [offset, moved, Text.byteLength_append, Nat.add_assoc]

theorem skip_eq (h : Produces cursor front last) : cursor.skip front.length = last := by
  induction h with
  | done => rfl
  | step call _ ih => simpa only [List.length_cons, skip, call] using ih

theorem split_last (h : Produces cursor (front ++ [token]) final) :
    ∃ before, Produces cursor front before ∧ before.next? = some (token, final) := by
  induction front generalizing cursor with
  | nil =>
    cases h with
    | step call more =>
      cases more
      exact ⟨cursor, .done cursor, call⟩
  | cons first front ih =>
    cases h with
    | step call more =>
      obtain ⟨before, front, last⟩ := ih more
      exact ⟨before, .step call front, last⟩

end Produces

/-- The tokens of a text are what `next?` returns until there is nothing left. -/
theorem produces_tokens (cursor : Cursor) :
    ∃ last, Produces cursor cursor.tokens last ∧ last.next? = none ∧
      cursor.finalState = last.state := by
  induction cursor using next_induction with
  | finish cursor call =>
    rw [tokens_of_none call]
    exact ⟨cursor, .done cursor, call, finalState_of_none call⟩
  | step cursor token after call ih =>
    obtain ⟨last, more, stop, state⟩ := ih
    rw [tokens_of_some call]
    exact ⟨last, .step call more, stop, (finalState_of_some call).trans state⟩

theorem produces_skip (cursor : Cursor) (count : Nat) :
    Produces cursor (cursor.tokens.take count) (cursor.skip count) := by
  induction count generalizing cursor with
  | zero => exact .done cursor
  | succ count ih =>
    rw [skip]
    cases call : cursor.next? with
    | none =>
      rw [tokens_of_none call, List.take_nil]
      exact .done cursor
    | some pair =>
      rw [tokens_of_some call, List.take_succ_cons]
      exact .step call (ih pair.2)

/-- The token at a place is what the call after so many calls returns. -/
theorem next?_of_getElem? {place : Nat} (h : cursor.tokens[place]? = some token) :
    (cursor.skip place).next? = some (token, cursor.skip (place + 1)) := by
  induction place generalizing cursor with
  | zero =>
    cases call : cursor.next? with
    | none => simp [tokens_of_none call] at h
    | some pair =>
      rw [tokens_of_some call, List.getElem?_cons_zero, Option.some.injEq] at h
      simp only [skip, call, ← h]
  | succ place ih =>
    cases call : cursor.next? with
    | none => simp [tokens_of_none call] at h
    | some pair =>
      rw [tokens_of_some call, List.getElem?_cons_succ] at h
      simpa only [skip, call] using ih h

/-- A token covers the part of the text that the call which returned it has moved over. -/
theorem span_of_getElem? {text : List Char} {state : State} {place : Nat}
    (nth : (tokensFrom text state)[place]? = some token) :
    ∃ before taken, ((start text state).skip place).rest =
        taken ++ ((start text state).skip (place + 1)).rest ∧
      text = before ++ taken ++ ((start text state).skip (place + 1)).rest ∧
      token.span =
        ⟨Text.byteLength before, Text.byteLength before + Text.byteLength taken⟩ := by
  obtain ⟨before, whole, reached⟩ := (produces_skip (start text state) place).passed
  obtain ⟨-, -, -, -, -, -, taken, -, -, cut, span, moved⟩ :=
    next?_eq_some (next?_of_getElem? nth)
  refine ⟨before, taken, cut, ?_, ?_⟩
  · rw [List.append_assoc, ← cut]
    exact whole
  · rw [span, moved, reached]
    simp only [start, Nat.zero_add]

end Cursor

/-- `FirstToken kind part after` says that the document `part ++ after` has `part` as its first token
and behind it the tokens that `after` has by itself. -/
def FirstToken (kind : Kind) (part after : List Char) : Prop :=
  tokens (part ++ after) = ⟨kind, ⟨0, Text.byteLength part⟩⟩ ::
    (tokens after).map (·.shift (Text.byteLength part))

/-- A unit at the front of a document that leaves nothing open is its first token. -/
theorem firstToken_of_dispatch {c : Char} {rest part after : List Char} {kind : Kind}
    (unit : Dispatch c rest (.plain kind part.length)) (text : c :: rest = part ++ after) :
    FirstToken kind part after := by
  have lexeme : (Cursor.start (c :: rest) .initial).lexeme c rest = .plain kind part.length :=
    unit.first_eq
  have front : (c :: rest).take part.length = part := by rw [text, List.take_left]
  have behind : (c :: rest).drop part.length = after := by rw [text, List.drop_left]
  have call : (Cursor.start (c :: rest) .initial).next? =
      some (⟨kind, ⟨0, Text.byteLength part⟩⟩,
        (Cursor.start after .initial).shift (Text.byteLength part)) := by
    rw [Cursor.next?_of_cons rfl, lexeme]
    simp only [Lexeme.plain, front, behind, Cursor.start, Cursor.shift, State.normal, Nat.zero_add]
  rw [FirstToken, ← text]
  calc
    tokens (c :: rest) = (Cursor.start (c :: rest) .initial).tokens := rfl
    _ = _ := Cursor.tokens_of_some call
    _ = _ := by rw [Cursor.tokens_shift]; rfl

end Lexer

end HaskellHighlight
