import HaskellHighlight.Proofs.CharacterBody
import HaskellHighlight.Proofs.Iteration

/-! Character literals in front of any text. A quote opens a character literal exactly where one of
the forms of the grammar stands in front, and that form is then the token. -/
namespace HaskellHighlight.Lexer
open Unicode

/-- The character literals: between two quotes a character of the line other than a quote and a
backslash, a control escape, or a backslash with a character of the line and a run of letters and
digits, which does not start with an upper-case letter behind a caret. -/
def IsCharacterLiteral (literal : List Char) : Prop :=
  ∃ body, literal = '\'' :: (body ++ ['\'']) ∧
    ((∃ c, body = [c] ∧ c ≠ '\'' ∧ c ≠ '\\' ∧ isLineBreak c = false) ∨
      (∃ c, body = ['\\', '^', c] ∧ isControlName c = true) ∨
      ∃ c run, body = '\\' :: c :: run ∧ isLineBreak c = false ∧
        (∀ d ∈ run, isAsciiAlphanumeric d = true) ∧
        (c = '^' → ∀ d, run.head? = some d → isAsciiUppercase d = false))

theorem isControlName_of_isAsciiAlphanumeric {d : Char} (h : isAsciiAlphanumeric d = true) :
    isControlName d = isAsciiUppercase d := by
  have others : ("@[\\]^_".toList.any isAsciiAlphanumeric) = false := by decide
  have not_mem : d ∉ "@[\\]^_".toList := fun mem => List.any_eq_false.mp others d mem h
  rw [isControlName, List.contains_eq_mem, decide_eq_false not_mem, Bool.or_false]

private theorem unnamed_iff {run : List Char} (h : ∀ d ∈ run, isAsciiAlphanumeric d = true) :
    run.head?.any isControlName = false ↔ ∀ d, run.head? = some d → isAsciiUppercase d = false := by
  cases run with
  | nil => simp
  | cons d run =>
    have same := isControlName_of_isAsciiAlphanumeric (h d List.mem_cons_self)
    simp [same]

/-- The character literals are the bodies between two quotes. -/
theorem isCharacterLiteral_iff {literal : List Char} :
    IsCharacterLiteral literal ↔ ∃ body, CharacterBody body ∧ literal = '\'' :: (body ++ ['\'']) := by
  constructor
  · rintro ⟨body, whole, form⟩
    refine ⟨body, ?_, whole⟩
    -- behind a caret no upper-case letter may start the run: that would be a control escape
    rcases form with ⟨c, rfl, quote, slash, line⟩ | ⟨c, rfl, name⟩ |
      ⟨c, run, rfl, line, alphanumeric, other⟩
    · exact .plain quote slash line
    · exact .control name
    · exact .escape line alphanumeric fun caret => (unnamed_iff alphanumeric).mpr (other caret)
  · rintro ⟨body, form, whole⟩
    refine ⟨body, whole, ?_⟩
    cases form with
    | @plain c quote slash line => exact Or.inl ⟨c, rfl, quote, slash, line⟩
    | @control c name => exact Or.inr (Or.inl ⟨c, rfl, name⟩)
    | @escape c run line alphanumeric other =>
      exact Or.inr (Or.inr ⟨c, run, rfl, line, alphanumeric, fun caret =>
        (unnamed_iff alphanumeric).mp (other caret)⟩)

/-- The scan from an opening quote ends where a character literal does that stands there. -/
theorem IsCharacterLiteral.scanned {literal rest after : List Char} (h : IsCharacterLiteral literal)
    (text : '\'' :: rest = literal ++ after) :
    ∃ length, characterTail? rest = some length ∧ literal.length = 1 + length := by
  obtain ⟨body, form, rfl⟩ := isCharacterLiteral_iff.mp h
  have behind : rest = body ++ '\'' :: after := by simpa using text
  refine ⟨body.length + 1, characterTail?_eq_some_iff.mpr ⟨body, after, form, behind, rfl⟩, ?_⟩
  simp only [List.length_cons, List.length_append, List.length_nil]
  omega

/-- Where the scan from an opening quote finds an end, a character literal stands there. -/
theorem exists_of_characterTail? {rest : List Char} {length : Nat}
    (h : characterTail? rest = some length) :
    ∃ literal, IsCharacterLiteral literal ∧ literal <+: '\'' :: rest := by
  obtain ⟨body, more, form, rfl, -⟩ := characterTail?_eq_some_iff.mp h
  exact ⟨'\'' :: (body ++ ['\'']), isCharacterLiteral_iff.mpr ⟨body, form, rfl⟩, more, by simp⟩

theorem IsCharacterLiteral.unique {literal other rest : List Char} (h : IsCharacterLiteral literal)
    (h' : IsCharacterLiteral other) (front : literal <+: '\'' :: rest)
    (front' : other <+: '\'' :: rest) : literal = other := by
  obtain ⟨after, text⟩ := front
  obtain ⟨after', text'⟩ := front'
  obtain ⟨length, tail, reach⟩ := h.scanned text.symm
  obtain ⟨length', tail', reach'⟩ := h'.scanned text'.symm
  obtain rfl : length = length' := Option.some.inj (tail.symm.trans tail')
  exact List.append_inj_left (text.trans text'.symm) (reach.trans reach'.symm)

/-- Where a document starts with a quote, the character literal in front is its first token. There
is at most one, and where there is none the quote is a token by itself. -/
theorem character_token (rest : List Char) :
    (∀ literal after, IsCharacterLiteral literal → '\'' :: rest = literal ++ after →
      FirstToken (.literal .character) literal after) ∧
    (∀ literal other, IsCharacterLiteral literal → IsCharacterLiteral other →
      literal <+: '\'' :: rest → other <+: '\'' :: rest → literal = other) ∧
    ((∀ literal, IsCharacterLiteral literal → ¬ literal <+: '\'' :: rest) →
      FirstToken .badCharacter ['\''] rest) := by
  refine ⟨?_, ?_, ?_⟩
  · intro literal after shape text
    obtain ⟨length, tail, reach⟩ := shape.scanned text
    have unit := Dispatch.character tail
    rw [← reach] at unit
    exact firstToken_of_dispatch unit text
  · intro literal other shape shape' front front'
    exact shape.unique shape' front front'
  · intro none_there
    have tail : characterTail? rest = none := by
      apply Option.eq_none_iff_forall_ne_some.mpr
      intro length found
      obtain ⟨literal, shape, front⟩ := exists_of_characterTail? found
      exact none_there literal shape front
    exact firstToken_of_dispatch (.strayQuote tail) rfl

example : tokens "'\\''".toList = [⟨.literal .character, ⟨0, 4⟩⟩] ∧
    (tokens "'\\^AB'".toList).head? = some ⟨.badCharacter, ⟨0, 1⟩⟩ := by decide +kernel

end HaskellHighlight.Lexer
