import HaskellHighlight.Proofs.Restart

/-! What the fields of a lexer hold between two calls. The calls rely on it without a check: a lexer
that keeps only an offset, a state and the due dot, and looks at none of what they promise, returns
the same tokens. -/
namespace HaskellHighlight.Lexer
open Cursor

/-- `cursor.StandsIn text returned` says what holds of a cursor in `text` after calls that returned
`returned`. The offset cuts the text between two characters. A dot is due only where nothing is
open, right after the name of a constructor, and where a dot stands that joins it to a name or an
operator. A comment is open only where the text was entered inside it, or where the text ends. -/
structure Cursor.StandsIn (cursor : Cursor) (text : List Char) (returned : List Token) : Prop where
  cut : ∃ passed, text = passed ++ cursor.rest ∧ cursor.offset = Text.byteLength passed
  due : cursor.qualifierDot = true →
    cursor.state = .initial ∧
    (∃ token, returned.getLast? = some token ∧ token.kind = .name .conId) ∧
    ∃ c more, cursor.rest = '.' :: c :: more ∧ c ≠ '.' ∧
      (isSmall c = true ∨ isLarge c = true ∨ isSymbol c = true)
  inside : ∀ depth, cursor.state = .blockComment depth →
    1 ≤ depth ∧ (returned = [] ∨ cursor.offset = Text.byteLength text)

namespace Cursor.StandsIn
variable {cursor after last : Cursor} {text : List Char} {returned tokens : List Token}
  {token : Token}

theorem start (text : List Char) (state : State) : (start text state).StandsIn text [] where
  cut := ⟨[], rfl, rfl⟩
  due := fun due => absurd due Bool.false_ne_true
  inside := by
    intro depth opened
    have normal := start_normal text state
    rw [opened] at normal
    exact ⟨State.depth_pos_of_normal normal, Or.inl rfl⟩

theorem byteLength_text (h : cursor.StandsIn text returned) :
    Text.byteLength text = cursor.offset + Text.byteLength cursor.rest := by
  obtain ⟨passed, whole, offset⟩ := h.cut
  rw [whole, Text.byteLength_append, offset]

/-- The offset tells whether the text has ended. -/
theorem offset_lt_iff (h : cursor.StandsIn text returned) :
    cursor.offset < Text.byteLength text ↔ ∃ c more, cursor.rest = c :: more := by
  rw [← List.ne_nil_iff_exists_cons, h.byteLength_text]
  constructor
  · intro before finished
    rw [finished, Text.byteLength] at before
    omega
  · intro nonempty
    have := Text.byteLength_pos nonempty
    omega

theorem normal (h : cursor.StandsIn text returned) : cursor.state.normal = cursor.state := by
  cases state : cursor.state with
  | initial => rfl
  | blockComment depth =>
    obtain ⟨k, rfl⟩ := Nat.exists_eq_add_of_le' (h.inside depth state).1
    rfl

theorem not_due (h : cursor.StandsIn text returned) {depth : Nat}
    (opened : cursor.state = .blockComment depth) : cursor.qualifierDot = false := by
  cases due : cursor.qualifierDot with
  | false => rfl
  | true => exact State.noConfusion (opened.symm.trans (h.due due).1)

/-- A call keeps what the fields hold. -/
theorem step (h : cursor.StandsIn text returned) (call : cursor.next? = some (token, after)) :
    after.StandsIn text (returned ++ [token]) := by
  obtain ⟨-, -, -, -, -, -, taken, -, -, rest, -, moved⟩ := next?_eq_some call
  obtain ⟨passed, whole, offset⟩ := h.cut
  have whole_after : text = (passed ++ taken) ++ after.rest := by
    rw [List.append_assoc, ← rest, whole]
  have offset_after : after.offset = Text.byteLength (passed ++ taken) := by
    rw [moved, offset, Text.byteLength_append]
  refine ⟨⟨_, whole_after, offset_after⟩, fun due => ?_, fun depth opened => ?_⟩
  · obtain ⟨name, joins⟩ := (next?_qualifierDot call).mp due
    exact ⟨(dueAhead_of_next? call h.normal due).1, ⟨token, List.getLast?_concat, name⟩,
      Lexeme.startsQualified_iff.mp joins⟩
  · rcases next?_state call h.normal with closed | ⟨⟨k, deep⟩, -, finished, -⟩
    · exact State.noConfusion (closed.symm.trans opened)
    · rw [finished, List.append_nil] at whole_after
      obtain rfl : k + 1 = depth := State.blockComment.inj (deep.symm.trans opened)
      exact ⟨Nat.succ_pos k, Or.inr (by rw [offset_after, whole_after])⟩

theorem run (h : cursor.StandsIn text returned) (calls : Produces cursor tokens last) :
    last.StandsIn text (returned ++ tokens) := by
  induction calls generalizing returned with
  | done => rwa [List.append_nil]
  | step call _ ih =>
    rw [← List.singleton_append, ← List.append_assoc]
    exact ih (h.step call)

/-- The character that is taken for a due dot is one. -/
theorem next?_due (h : cursor.StandsIn text returned) (due : cursor.qualifierDot = true) :
    cursor.next? = some (⟨.dot, ⟨cursor.offset, cursor.offset + 1⟩⟩,
      ⟨cursor.offset + 1, cursor.rest.tail, .initial, false⟩) := by
  obtain ⟨closed, -, c, more, rest, -⟩ := h.due due
  rw [next?_of_cons rest, lexeme_initial closed, if_pos due, rest]
  rfl

end Cursor.StandsIn

/-- What a lexer keeps beside its text. -/
structure Bookmark where
  offset : Nat
  state : State
  qualifierDot : Bool
  deriving DecidableEq, Repr

/-- What is kept of a cursor. The text in front of it is found again by the offset. -/
def Cursor.bookmark (cursor : Cursor) : Bookmark :=
  ⟨cursor.offset, cursor.state, cursor.qualifierDot⟩

namespace Bookmark

def start (state : State) : Bookmark := ⟨0, state.normal, false⟩

/-- The unit in front of `rest` where nothing is checked. What stands there passes for a due dot,
even the end of the text; a character that is missing is a bad one of no length; and a comment
leaves a due dot due. -/
def lexeme (mark : Bookmark) (rest : List Char) : Lexeme :=
  match mark.state with
  | .blockComment depth =>
    { Lexeme.comment 0 (commentTail depth rest) with qualifierDot := mark.qualifierDot }
  | .initial =>
    if mark.qualifierDot then .plain .dot (rest.take 1).length
    else match rest with
      | [] => .plain .badCharacter 0
      | c :: rest => .first c rest

/-- The next token and what is kept after it. There is none at the end of the text or behind it. The
whole call fails where the offset lies inside a character. -/
def next? (text : List Char) (mark : Bookmark) : Option (Option (Token × Bookmark)) :=
  if Text.byteLength text ≤ mark.offset then some none
  else (Text.splitBytes? mark.offset text).map fun (_, rest) =>
    let lexeme := mark.lexeme rest
    let stop := mark.offset + Text.byteLength (rest.take lexeme.length)
    some (⟨lexeme.kind, mark.offset, stop⟩, ⟨stop, lexeme.state, lexeme.qualifierDot⟩)

def calls? (text : List Char) : Nat → Bookmark → Option (List Token × Bookmark)
  | 0, mark => some ([], mark)
  | count + 1, mark => do
    match ← mark.next? text with
    | none => return ([], mark)
    | some (token, after) =>
      let (tokens, last) ← calls? text count after
      return (token :: tokens, last)

end Bookmark

namespace Cursor.StandsIn
variable {cursor : Cursor} {text : List Char} {returned : List Token}

/-- The unit in front of the cursor is the same without a check. A comment may leave a due dot due,
as none is due in front of it. -/
theorem bookmark_lexeme (h : cursor.StandsIn text returned) (c : Char) (more : List Char) :
    cursor.bookmark.lexeme (c :: more) = cursor.lexeme c more := by
  cases state : cursor.state with
  | initial =>
    simp only [Bookmark.lexeme, bookmark, state, lexeme_initial state]
    rfl
  | blockComment depth =>
    simp only [Bookmark.lexeme, bookmark, state, h.not_due state, lexeme_blockComment state]
    rfl

theorem bookmark_next? (h : cursor.StandsIn text returned) :
    cursor.bookmark.next? text =
      some (cursor.next?.map fun (token, after) => (token, after.bookmark)) := by
  cases rest : cursor.rest with
  | nil =>
    have finished : Text.byteLength text ≤ cursor.bookmark.offset := by
      rw [h.byteLength_text, rest]
      exact Nat.le_refl _
    rw [Bookmark.next?, if_pos finished, next?_eq_none_iff.mpr rest, Option.map_none]
  | cons c more =>
    have ahead : ¬ Text.byteLength text ≤ cursor.bookmark.offset :=
      Nat.not_le.mpr (h.offset_lt_iff.mpr ⟨c, more, rest⟩)
    obtain ⟨passed, whole, offset⟩ := h.cut
    have cut : Text.splitBytes? cursor.bookmark.offset text = some (passed, c :: more) :=
      Text.splitBytes?_eq_some_iff.mpr ⟨by rw [whole, rest], offset.symm⟩
    rw [Bookmark.next?, if_neg ahead, cut, Option.map_some, next?_of_cons rest, Option.map_some]
    simp only [h.bookmark_lexeme c more]
    rfl

/-- Calls on what is kept return the tokens that lie in front of the cursor, and none fails. -/
theorem bookmark_calls? (h : cursor.StandsIn text returned) (count : Nat) :
    cursor.bookmark.calls? text count =
      some (cursor.tokens.take count, (cursor.skip count).bookmark) := by
  induction count generalizing cursor returned with
  | zero => rfl
  | succ count ih =>
    rw [Bookmark.calls?, h.bookmark_next?, skip]
    cases call : cursor.next? with
    | none =>
      rw [tokens_of_none call]
      rfl
    | some pair =>
      obtain ⟨token, after⟩ := pair
      rw [tokens_of_some call]
      simp [ih (h.step call)]

end Cursor.StandsIn

/-- The fields of a lexer after any number of calls. The offset is between two characters of the
text and not behind its end, and where it is not at the end a character stands in front. A due dot
is there, right after the name of a constructor and in front of a name or an operator, so that the
next call takes it and nothing else; at the end of the text none is due. A comment is open only
before the first call or at the end of the text. None of this has to be checked: with the offset,
the state and the due dot alone, and no look at what they are taken for, the calls never fail and
return the same. -/
theorem fields_between_calls (text : List Char) (state : State) (count : Nat) :
    let cursor := (Cursor.start text state).skip count
    let returned := (tokensFrom text state).take count
    cursor.StandsIn text returned ∧
    cursor.offset ≤ Text.byteLength text ∧
    (cursor.offset < Text.byteLength text ↔ ∃ c more, cursor.rest = c :: more) ∧
    (cursor.qualifierDot = true → cursor.offset < Text.byteLength text ∧
      cursor.next? = some (⟨.dot, ⟨cursor.offset, cursor.offset + 1⟩⟩,
        ⟨cursor.offset + 1, cursor.rest.tail, .initial, false⟩)) ∧
    (Bookmark.start state).calls? text count = some (returned, cursor.bookmark) := by
  intro cursor returned
  have stands : cursor.StandsIn text returned :=
    (StandsIn.start text state).run (produces_skip (Cursor.start text state) count)
  refine ⟨stands, ?_, stands.offset_lt_iff, fun due => ⟨?_, stands.next?_due due⟩,
    (StandsIn.start text state).bookmark_calls? count⟩
  · rw [stands.byteLength_text]
    exact Nat.le_add_right _ _
  · obtain ⟨-, -, c, more, rest, -⟩ := stands.due due
    exact stands.offset_lt_iff.mpr ⟨'.', c :: more, rest⟩

example : (Bookmark.start .initial).calls? "M.+".toList 1 =
    some ([⟨.name .conId, ⟨0, 1⟩⟩], ⟨1, .initial, true⟩) := by decide +kernel

end HaskellHighlight.Lexer
