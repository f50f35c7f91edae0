import HaskellHighlight.Proofs.ExactCover
import HaskellHighlight.Proofs.Painting

/-! The highlights of the tokens of a text. They fit the text, and a byte has the key of the token
that contains it. -/
namespace HaskellHighlight
open Highlight

section contiguous
variable {start stop offset : Nat} {tokens : List Token} {token : Token}

private theorem keyAt_filterMap_cons (offset : Nat) (token : Token) (rest : List Token) :
    keyAt offset ((token :: rest).filterMap ofToken?) =
      if token.span.Contains offset then
        token.kind.key?.or (keyAt offset (rest.filterMap ofToken?))
      else keyAt offset (rest.filterMap ofToken?) := by
  rw [List.filterMap_cons, ofToken?]
  cases token.kind.key? with
  | none => simp
  | some key => simp [keyAt]

theorem Contiguous.keyAt_of_lt (h : Contiguous start stop tokens) (before : offset < start) :
    keyAt offset (tokens.filterMap ofToken?) = none := by
  refine keyAt_eq_none fun highlight mem => ?_
  obtain ⟨token, token_mem, found⟩ := List.mem_filterMap.mp mem
  obtain ⟨key, -, rfl⟩ := Option.map_eq_some_iff.mp found
  exact Nat.lt_of_lt_of_le before (h.start_le token_mem)

/-- The key a byte is highlighted by is the one of the token that contains it. -/
theorem Contiguous.keyAt_eq (h : Contiguous start stop tokens) (offset : Nat) :
    keyAt offset (tokens.filterMap ofToken?) =
      (tokens.find? (·.span.Contains offset)).bind (·.kind.key?) := by
  induction tokens generalizing start with
  | nil => rfl
  | cons first rest ih =>
    obtain ⟨rfl, positive, row⟩ := h
    rw [keyAt_filterMap_cons]
    by_cases inside : first.span.Contains offset
    · rw [if_pos inside, row.keyAt_of_lt inside.2, Option.or_none,
        List.find?_cons_of_pos (by simpa using inside), Option.bind_some]
    · rw [if_neg inside, List.find?_cons_of_neg (by simpa using inside), ih row]

theorem Contiguous.find?_of_le (h : Contiguous start stop tokens) (past : stop ≤ offset) :
    tokens.find? (·.span.Contains offset) = none := by
  refine List.find?_eq_none.mpr fun token mem contains => ?_
  have inside : token.span.Contains offset := by simpa using contains
  exact Nat.not_lt.mpr (Nat.le_trans (h.stop_bounds mem).2 past) inside.2

/-- Every byte between the ends of a row of tokens belongs to exactly one of them, and the key it is
highlighted by is the one of that token. -/
theorem Contiguous.token_at (h : Contiguous start stop tokens) (low : start ≤ offset)
    (high : offset < stop) : ∃ token ∈ tokens, token.span.Contains offset ∧
      (∀ other ∈ tokens, other.span.Contains offset → other = token) ∧
      keyAt offset (tokens.filterMap ofToken?) = token.kind.key? := by
  induction tokens generalizing start with
  | nil =>
    have same : start = stop := h
    omega
  | cons first rest ih =>
    obtain ⟨rfl, positive, row⟩ := h
    rw [keyAt_filterMap_cons]
    by_cases inside : offset < first.span.stop
    · have contains : first.span.Contains offset := ⟨low, inside⟩
      refine ⟨first, List.mem_cons_self, contains, fun other mem covers => ?_, ?_⟩
      · rcases List.mem_cons.mp mem with rfl | later
        · rfl
        · exact absurd (Nat.le_trans (row.start_le later) covers.1) (Nat.not_le.mpr inside)
      · rw [if_pos contains, row.keyAt_of_lt inside, Option.or_none]
    · have outside : ¬ first.span.Contains offset := fun covers => inside covers.2
      obtain ⟨token, mem, covers, unique, key⟩ := ih row (Nat.not_lt.mp inside)
      refine ⟨token, List.mem_cons_of_mem _ mem, covers, fun other mem covers => ?_, ?_⟩
      · rcases List.mem_cons.mp mem with rfl | later
        · exact absurd covers outside
        · exact unique other later covers
      · rw [if_neg outside, key]

end contiguous

/-- The highlights of the tokens that were returned lie in the text that the cursor moved over, in
order and apart. -/
theorem Lexer.Cursor.Produces.fits {cursor last : Lexer.Cursor} {tokens : List Token}
    (calls : Produces cursor tokens last) (pos : Nat) (gap : List Char)
    (offset : cursor.offset = pos + Text.byteLength gap) :
    Fits pos (gap ++ cursor.rest) (tokens.filterMap ofToken?) := by
  induction calls generalizing pos gap with
  | done => trivial
  | @step cursor after last token tokens call _ ih =>
    obtain ⟨-, -, -, -, -, -, taken, -, -, cut, span, moved⟩ := next?_eq_some call
    rw [List.filterMap_cons, ofToken?]
    cases token.kind.key? with
    | none =>
      have reached : after.offset = pos + Text.byteLength (gap ++ taken) := by
        rw [moved, offset, Text.byteLength_append, Nat.add_assoc]
      rw [cut, ← List.append_assoc]
      exact ih pos (gap ++ taken) reached
    | some key =>
      have placed : token.span =
          ⟨pos + Text.byteLength gap, pos + Text.byteLength gap + Text.byteLength taken⟩ := by
        rw [span, moved, offset]
      have stop : token.span.stop = after.offset := by rw [span]
      refine ⟨gap, taken, after.rest, by rw [cut], placed, ?_⟩
      exact stop ▸ ih after.offset [] rfl

namespace Highlight

/-- Either way of joining neighbours gives highlights that fit the text and cover the same bytes
with the same keys. -/
theorem ofTokens_spec (mergeAdjacent : Bool) (text : List Char) (state : Lexer.State) :
    Fits 0 text (ofTokens mergeAdjacent (Lexer.tokensFrom text state)) ∧
      ∀ x, keyAt x (ofTokens mergeAdjacent (Lexer.tokensFrom text state)) =
        keyAt x ((Lexer.tokensFrom text state).filterMap ofToken?) := by
  obtain ⟨last, calls, -⟩ := Lexer.Cursor.produces_tokens (.start text state)
  have fits : Fits 0 text ((Lexer.tokensFrom text state).filterMap ofToken?) :=
    calls.fits 0 [] rfl
  rw [ofTokens]
  cases mergeAdjacent with
  | false => exact ⟨fits, fun _ => rfl⟩
  | true => exact merge_spec fits

private theorem Fits.slice?_append {pos : Nat} {text : List Char} {highlights : List Highlight}
    (h : Fits pos text highlights) (before : List Char) (offset : pos = Text.byteLength before)
    {highlight : Highlight} (mem : highlight ∈ highlights) :
    (∃ part, highlight.span.slice? (before ++ text) = some part) ∧
      highlight.span.stop ≤ Text.byteLength (before ++ text) := by
  induction highlights generalizing pos text before with
  | nil => contradiction
  | cons first more ih =>
    obtain ⟨gap, part, after, rfl, span, fits⟩ := h
    have whole : before ++ (gap ++ (part ++ after)) = before ++ gap ++ part ++ after := by
      simp only [List.append_assoc]
    rw [offset, ← Text.byteLength_append] at span
    rw [whole]
    rcases List.mem_cons.mp mem with rfl | later
    · rw [span]
      refine ⟨⟨part, Span.slice?_append (before ++ gap) part after⟩, ?_⟩
      rw [Text.byteLength_append _ after, Text.byteLength_append _ part]
      exact Nat.le_add_right _ _
    · refine ih fits (before ++ gap ++ part) ?_ later
      rw [span, Text.byteLength_append _ part]

theorem Fits.slice? {text : List Char} {highlights : List Highlight} (h : Fits 0 text highlights)
    {highlight : Highlight} (mem : highlight ∈ highlights) :
    (∃ part, highlight.span.slice? text = some part) ∧
      highlight.span.stop ≤ Text.byteLength text := h.slice?_append [] rfl mem

end Highlight

end HaskellHighlight
