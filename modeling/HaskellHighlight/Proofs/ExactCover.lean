import HaskellHighlight.Proofs.Iteration

/-! The tokens of a text divide it: they follow one another without a gap from its first byte to
its last one, and they cut it between characters only. -/
namespace HaskellHighlight

/-- Tokens that lie from byte `start` to byte `stop` in a row. Each starts where the one before it
stops, and none is empty. -/
def Contiguous (start stop : Nat) : List Token → Prop
  | [] => start = stop
  | token :: rest =>
    token.span.start = start ∧ start < token.span.stop ∧ Contiguous token.span.stop stop rest

namespace Contiguous
variable {start mid stop : Nat} {token : Token} {tokens front back : List Token}

theorem start_le_stop (h : Contiguous start stop tokens) : start ≤ stop := by
  induction tokens generalizing start with
  | nil => exact Nat.le_of_eq h
  | cons first rest ih => exact Nat.le_trans (Nat.le_of_lt h.2.1) (ih h.2.2)

/-- Every token of a row stops behind the start of the row and not behind its end. -/
theorem stop_bounds (h : Contiguous start stop tokens) (mem : token ∈ tokens) :
    start < token.span.stop ∧ token.span.stop ≤ stop := by
  induction tokens generalizing start with
  | nil => contradiction
  | cons first rest ih =>
    obtain ⟨-, positive, row⟩ := h
    rcases List.mem_cons.mp mem with rfl | later
    · exact ⟨positive, row.start_le_stop⟩
    · exact (ih row later).imp_left (Nat.lt_trans positive)

theorem start_le (h : Contiguous start stop tokens) (mem : token ∈ tokens) :
    start ≤ token.span.start := by
  induction tokens generalizing start with
  | nil => contradiction
  | cons first rest ih =>
    obtain ⟨rfl, positive, row⟩ := h
    rcases List.mem_cons.mp mem with rfl | later
    · exact Nat.le_refl _
    · exact Nat.le_trans (Nat.le_of_lt positive) (ih row later)

theorem nonempty (h : Contiguous start stop tokens) (mem : token ∈ tokens) :
    token.span.start < token.span.stop := by
  induction tokens generalizing start with
  | nil => contradiction
  | cons first rest ih =>
    obtain ⟨rfl, positive, row⟩ := h
    rcases List.mem_cons.mp mem with rfl | later
    · exact positive
    · exact ih row later

theorem append (h : Contiguous start mid front) (more : Contiguous mid stop back) :
    Contiguous start stop (front ++ back) := by
  induction front generalizing start with
  | nil =>
    obtain rfl : start = mid := h
    exact more
  | cons token front ih => exact ⟨h.1, h.2.1, ih h.2.2⟩

theorem shift (h : Contiguous start stop front) (bytes : Nat) :
    Contiguous (start + bytes) (stop + bytes) (front.map (·.shift bytes)) := by
  induction front generalizing start with
  | nil => exact congrArg (· + bytes) h
  | cons token front ih =>
    obtain ⟨rfl, nonempty, row⟩ := h
    exact ⟨rfl, Nat.add_lt_add_right nonempty bytes, ih row⟩

theorem split_last (h : Contiguous start stop (front ++ [token])) :
    Contiguous start token.span.start front ∧ token.span.start < token.span.stop ∧
      token.span.stop = stop := by
  induction front generalizing start with
  | nil =>
    obtain ⟨rfl, nonempty, same⟩ := h
    exact ⟨rfl, nonempty, same⟩
  | cons first front ih =>
    obtain ⟨begins, nonempty, row⟩ := h
    obtain ⟨row, last⟩ := ih row
    exact ⟨⟨begins, nonempty, row⟩, last⟩

end Contiguous

/-- A span whose ends lie around a part of a text covers that part. -/
theorem Span.slice?_append (before part after : List Char) :
    Span.slice? ⟨Text.byteLength before, Text.byteLength before + Text.byteLength part⟩
      (before ++ part ++ after) = some part := by
  have front : Text.splitBytes? (Text.byteLength before) (before ++ part ++ after) =
      some (before, part ++ after) :=
    Text.splitBytes?_eq_some_iff.mpr ⟨by rw [List.append_assoc], rfl⟩
  have middle : Text.splitBytes? (Text.byteLength part) (part ++ after) = some (part, after) :=
    Text.splitBytes?_eq_some_iff.mpr ⟨rfl, rfl⟩
  have ordered : ¬ Text.byteLength before + Text.byteLength part < Text.byteLength before := by
    omega
  simp only [Span.slice?, Text.slice?, ordered, if_false, front, Option.bind_eq_bind,
    Option.bind_some, Nat.add_sub_cancel_left, middle, Option.pure_def]

namespace Lexer
open Cursor

/-- The invariant of lexing. What the calls have returned divides what the cursor has moved over;
`passed` is the text in front of the first of them. -/
theorem produces_cover {cursor last : Cursor} {tokens : List Token}
    (h : Produces cursor tokens last) (passed : List Char)
    (offset : cursor.offset = Text.byteLength passed) :
    Contiguous cursor.offset last.offset tokens ∧
      ∃ pieces : List (List Char),
        tokens.map (·.span.slice? (passed ++ cursor.rest)) = pieces.map some ∧
        pieces.flatten ++ last.rest = cursor.rest ∧
        last.offset = Text.byteLength (passed ++ pieces.flatten) := by
  induction h generalizing passed with
  | done cursor =>
    exact ⟨rfl, [], rfl, rfl, by rw [List.flatten_nil, List.append_nil, offset]⟩
  | @step cursor after last token tokens call _ ih =>
    obtain ⟨c, more, -, -, -, -, taken, nonempty, -, text, span, moved⟩ := next?_eq_some call
    have reached : after.offset = Text.byteLength (passed ++ taken) := by
      rw [moved, offset, Text.byteLength_append]
    obtain ⟨row, pieces, slices, rest, stop⟩ := ih (passed ++ taken) reached
    have positive := Text.byteLength_pos nonempty
    refine ⟨⟨by rw [span], by rw [span]; simp only; omega, by rwa [span]⟩,
      taken :: pieces, ?_, ?_, ?_⟩
    · have first : token.span.slice? (passed ++ taken ++ after.rest) = some taken := by
        rw [span, moved, offset]
        exact Span.slice?_append passed taken after.rest
      rw [text, ← List.append_assoc, List.map_cons, List.map_cons, first, slices]
    · rw [text, ← rest, List.flatten_cons, List.append_assoc]
    · rw [stop, List.flatten_cons, List.append_assoc]

theorem tokensFrom_contiguous (text : List Char) (state : State) :
    Contiguous 0 (Text.byteLength text) (tokensFrom text state) ∧
    ∃ pieces : List (List Char),
      (tokensFrom text state).map (·.span.slice? text) = pieces.map some ∧
      pieces.flatten = text := by
  obtain ⟨last, calls, stop, -⟩ := produces_tokens (Cursor.start text state)
  obtain ⟨row, pieces, slices, flat, length⟩ := produces_cover calls [] rfl
  have finished : last.rest = [] := next?_eq_none_iff.mp stop
  have flat : pieces.flatten = text := by rwa [finished, List.append_nil] at flat
  rw [List.nil_append, flat] at length
  rw [length] at row
  exact ⟨row, pieces, slices, flat⟩

/-- The lexer is total on every text and from every state, and its tokens divide the text exactly.
Each call in front of a character takes a unit of at least one character and at most all that are
left, so that the calls come to an end. The tokens they return lie in a row from the first byte to
the last one, none of them empty; each has a slice, so no boundary lies inside a character; and
the slices make up the text. -/
theorem tokensFrom_divide (text : List Char) (state : State) :
    (∀ count c rest, ((Cursor.start text state).skip count).rest = c :: rest →
      ∃ token after, ((Cursor.start text state).skip count).next? = some (token, after) ∧
        0 < (((Cursor.start text state).skip count).lexeme c rest).length ∧
        (((Cursor.start text state).skip count).lexeme c rest).length ≤ (c :: rest).length ∧
        ((Cursor.start text state).skip count).offset < after.offset) ∧
    (∃ last, Produces (Cursor.start text state) (tokensFrom text state) last ∧
      last.next? = none) ∧
    Contiguous 0 (Text.byteLength text) (tokensFrom text state) ∧
    (tokensFrom text state = [] ↔ text = []) ∧
    ∃ pieces : List (List Char),
      (tokensFrom text state).map (·.span.slice? text) = pieces.map some ∧
      pieces.flatten = text := by
  obtain ⟨row, slices⟩ := tokensFrom_contiguous text state
  obtain ⟨last, calls, stop, -⟩ := produces_tokens (Cursor.start text state)
  refine ⟨?_, ⟨last, calls, stop⟩, row, tokens_eq_nil_iff, slices⟩
  intro count c rest text
  obtain ⟨⟨token, after⟩, call⟩ := Option.ne_none_iff_exists'.mp
    (fun none => List.cons_ne_nil c rest (text.symm.trans (next?_eq_none_iff.mp none)))
  obtain ⟨-, -, -, -, -, -, taken, nonempty, -, -, -, moved⟩ := next?_eq_some call
  have positive := Text.byteLength_pos nonempty
  exact ⟨token, after, call, lexeme_length_pos _ c rest, lexeme_length_le _ c rest, by omega⟩

end Lexer

/-- A byte offset between two characters of a text, or at one of its ends. -/
def IsCut (text : List Char) (offset : Nat) : Prop :=
  ∃ front back, text = front ++ back ∧ Text.byteLength front = offset

/-- Both ends of a span are between characters of a text, and in order. -/
structure Span.LiesIn (span : Span) (text : List Char) : Prop where
  start : IsCut text span.start
  stop : IsCut text span.stop
  ordered : span.start ≤ span.stop

theorem Span.LiesIn.slice? {span : Span} {text : List Char} (h : span.LiesIn text) :
    ∃ part, span.slice? text = some part := by
  obtain ⟨start, stop⟩ := span
  obtain ⟨⟨front, back, cut, rfl⟩, ⟨upTo, behind, again, rfl⟩, ordered⟩ := h
  have longer : ∃ part, upTo = front ++ part := by
    rcases List.append_eq_append_iff.mp (cut.symm.trans again) with ⟨part, longer, -⟩ |
      ⟨extra, longer, -⟩
    · exact ⟨part, longer⟩
    · have none_between : extra = [] := Decidable.byContradiction fun some_char => by
        have positive := Text.byteLength_pos some_char
        rw [longer, Text.byteLength_append] at ordered
        simp only at ordered
        omega
      exact ⟨[], by rw [longer, none_between, List.append_nil, List.append_nil]⟩
  obtain ⟨part, rfl⟩ := longer
  rw [again, Text.byteLength_append]
  exact ⟨part, Span.slice?_append front part behind⟩

end HaskellHighlight
