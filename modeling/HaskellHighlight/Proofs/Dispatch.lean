import HaskellHighlight.Lexer.Lexeme
import HaskellHighlight.Proofs.CharClass
import HaskellHighlight.Proofs.Extent

/-! Which unit starts a text, one case for each rule of the lexical syntax. Later proofs go by
these cases and not by the order in which the lexer tries them. -/
namespace HaskellHighlight.Lexer
open Unicode

/-- `Dispatch c rest lexeme` says that `lexeme` is a unit at the front of `c :: rest`, and by which
rule, where no comment is open and no dot is due. -/
inductive Dispatch : Char → List Char → Lexeme → Prop where
  | comment (body : List Char) :
      Dispatch '\x7b' ('-' :: body) (.comment 2 (commentTail 1 body))
  | special (special : Special) {rest : List Char}
      (h : special = .leftBrace → rest.head? ≠ some '-') :
      Dispatch special.char rest (.plain (.special special) 1)
  | lineFeed (rest : List Char) : Dispatch '\n' rest (.plain .newline 1)
  | carriageReturn {rest : List Char} (h : rest.head? ≠ some '\n') :
      Dispatch '\r' rest (.plain .newline 1)
  | bothBreaks (rest : List Char) : Dispatch '\r' ('\n' :: rest) (.plain .newline 2)
  | space {c : Char} (h : isSpace c = true) (rest : List Char) :
      Dispatch c rest (.plain .whitespace (runLength isSpace (c :: rest)))
  | string (rest : List Char) :
      Dispatch '"' rest (.plain (.literal .string) (1 + stringTail .body rest))
  | character {rest : List Char} {length : Nat} (h : characterTail? rest = some length) :
      Dispatch '\'' rest (.plain (.literal .character) (1 + length))
  | strayQuote {rest : List Char} (h : characterTail? rest = none) :
      Dispatch '\'' rest (.plain .badCharacter 1)
  | number {c : Char} (h : isAsciiDigit c = true) (rest : List Char) :
      Dispatch c rest (.plain (.literal (number (c :: rest)).1) (number (c :: rest)).2)
  | smallName {c : Char} (h : isSmall c = true) (rest : List Char) :
      Dispatch c rest (.word (c :: rest))
  | largeName {c : Char} (h : isLarge c = true) (rest : List Char) :
      Dispatch c rest (.constructor (c :: rest))
  | operator {c : Char} (h : isSymbol c = true) (rest : List Char) :
      Dispatch c rest (.symbol (c :: rest))
  | unknown {c : Char} (rest : List Char) (special : Special.ofChar? c = none)
      (blank : isBlank c = false) (quote : c ≠ '"' ∧ c ≠ '\'') (digit : isAsciiDigit c = false)
      (name : isSmall c = false ∧ isLarge c = false) (symbol : isSymbol c = false) :
      Dispatch c rest (.plain .badCharacter 1)

private theorem dispatch_special {c : Char} {special : Special}
    (h : Special.ofChar? c = some special) (rest : List Char) :
    Dispatch c rest (Lexeme.first c rest) := by
  obtain rfl := Special.ofChar?_eq_some_iff.mp h
  simp only [Lexeme.first, h, Bool.and_eq_true, decide_eq_true_eq]
  split
  · rename_i opening
    obtain ⟨rfl, head⟩ := opening
    obtain ⟨body, rfl⟩ := List.head?_eq_some_iff.mp head
    exact .comment body
  · rename_i plain
    exact .special special fun brace dash => plain ⟨brace, dash⟩

private theorem isBlank_eq_false {c : Char} (h : isSpace c = false) (feed : c ≠ '\n')
    (ret : c ≠ '\r') : isBlank c = false := by
  simpa [isSpace, isLineBreak, feed, ret] using h

/-- The unit that the lexer takes is one that a rule gives. -/
theorem Lexeme.first_dispatch (c : Char) (rest : List Char) :
    Dispatch c rest (Lexeme.first c rest) := by
  cases special : Special.ofChar? c with
  | some found => exact dispatch_special special rest
  | none =>
    simp only [Lexeme.first, special]
    split
    · subst c
      exact .lineFeed rest
    rename_i feed
    split
    · subst c
      split
      · rename_i next
        obtain ⟨more, rfl⟩ := List.head?_eq_some_iff.mp next
        exact .bothBreaks more
      · exact .carriageReturn ‹_›
    rename_i ret
    split
    · exact .space ‹_› rest
    rename_i space
    split
    · subst c
      exact .string rest
    rename_i double
    split
    · subst c
      split
      · exact .character ‹_›
      · exact .strayQuote ‹_›
    rename_i single
    split
    · exact .number ‹_› rest
    rename_i digit
    split
    · exact .smallName ‹_› rest
    rename_i small
    split
    · exact .largeName ‹_› rest
    rename_i large
    split
    · exact .operator ‹_› rest
    rename_i symbol
    simp only [Bool.not_eq_true] at space digit small large symbol
    exact .unknown rest special (isBlank_eq_false space feed ret) ⟨double, single⟩ digit
      ⟨small, large⟩ symbol

private def fixedChars : List Char := Special.all.map Special.char ++ ['\n', '\r', '"', '\'']

private theorem first_of_not_mem {c : Char} (h : c ∉ fixedChars) (rest : List Char) :
    Lexeme.first c rest =
      if isBlank c then .plain .whitespace (runLength isSpace (c :: rest))
      else if isAsciiDigit c then
        .plain (.literal (number (c :: rest)).1) (number (c :: rest)).2
      else if isSmall c then .word (c :: rest)
      else if isLarge c then .constructor (c :: rest)
      else if isSymbol c then .symbol (c :: rest)
      else .plain .badCharacter 1 := by
  simp only [fixedChars, List.mem_append, List.mem_map, List.mem_cons, List.not_mem_nil, or_false,
    not_or] at h
  obtain ⟨special, feed, ret, double, single⟩ := h
  have special : Special.ofChar? c = none := by
    cases found : Special.ofChar? c with
    | none => rfl
    | some s => exact absurd ⟨s, s.mem_all, (Special.ofChar?_eq_some_iff.mp found).symm⟩ special
  have space : isSpace c = isBlank c := by simp [isSpace, isLineBreak, feed, ret]
  simp only [Lexeme.first, special, feed, ret, double, single, space, if_false]

private theorem not_mem_of_class {p : Char → Bool} (hp : fixedChars.any p = false) {c : Char}
    (h : p c = true) : c ∉ fixedChars :=
  fun mem => List.any_eq_false.mp hp c mem h

/-- The rules exclude one another: a unit that a rule gives is the one that the lexer takes. -/
theorem Dispatch.first_eq {c : Char} {rest : List Char} {lexeme : Lexeme}
    (h : Dispatch c rest lexeme) : Lexeme.first c rest = lexeme := by
  cases h with
  | comment body => rfl
  | special special h =>
    simp only [Lexeme.first, Special.ofChar?_char, Bool.and_eq_true, decide_eq_true_eq]
    exact if_neg fun opening => h opening.1 opening.2
  | lineFeed => rfl
  | carriageReturn h =>
    change Lexeme.plain .newline (if rest.head? = some '\n' then 2 else 1) = _
    rw [if_neg h]
  | bothBreaks => rfl
  | space h =>
    have blank : isBlank c = true := by
      simp only [isSpace, Bool.and_eq_true] at h
      exact h.1
    rw [first_of_not_mem (not_mem_of_class (p := isSpace) (by decide) h), if_pos blank]
  | string => rfl
  | character h =>
    simp only [Lexeme.first, h]
    rfl
  | strayQuote h =>
    simp only [Lexeme.first, h]
    rfl
  | number h =>
    rw [first_of_not_mem (not_mem_of_class (p := isAsciiDigit) (by decide) h)]
    simp [isBlank_eq_false_of_isAsciiDigit h, h]
  | smallName h =>
    rw [first_of_not_mem (not_mem_of_class (p := isSmall) (by decide) h)]
    simp [isName_apart (Or.inl h), h]
  | largeName h =>
    rw [first_of_not_mem (not_mem_of_class (p := isLarge) (by decide) h)]
    simp [isName_apart (Or.inr h), isSmall_eq_false_of_isLarge h, h]
  | operator h =>
    rw [first_of_not_mem (not_mem_of_class (p := isSymbol) (by decide) h)]
    simp [isSymbol_apart h, not_name_of_isSymbol h, h]
  | unknown rest special blank quote digit name symbol =>
    have other : c ∉ fixedChars := by
      intro mem
      simp only [fixedChars, List.mem_append, List.mem_map, List.mem_cons, List.not_mem_nil,
        or_false] at mem
      rcases mem with ⟨s, -, rfl⟩ | rfl | rfl | rfl | rfl
      · simp [Special.ofChar?_char] at special
      · exact absurd blank (by decide)
      · exact absurd blank (by decide)
      · exact quote.1 rfl
      · exact quote.2 rfl
    rw [first_of_not_mem other]
    simp [blank, digit, name, symbol]

namespace Dispatch
variable {c : Char} {rest : List Char} {lexeme : Lexeme}

private theorem word_length (text : List Char) :
    (Lexeme.word text).length = runLength isIdentChar text := rfl

private theorem symbol_length_pos {text : List Char} (h : text.takeWhile isSymbol ≠ []) :
    0 < (Lexeme.symbol text).length := by
  have run := List.length_pos_iff.mpr h
  simp only [Lexeme.symbol]
  split
  · exact Nat.add_pos_left run _
  · exact run

private theorem symbol_length_le (text : List Char) :
    (Lexeme.symbol text).length ≤ text.length := by
  have run := runLength_le isSymbol text
  have comment := runLength_le (!isLineBreak ·) (text.drop (text.takeWhile isSymbol).length)
  rw [List.length_drop] at comment
  rw [runLength] at run
  simp only [Lexeme.symbol]
  split
  · simp only [Lexeme.plain]
    omega
  · exact run

/-- No unit is empty. For the name of a constructor this rests on upper-case characters being
alphanumeric. -/
theorem length_pos (h : Dispatch c rest lexeme) : 0 < lexeme.length := by
  cases h with
  | comment body => exact Nat.add_pos_left (by decide) _
  | special | lineFeed | carriageReturn | bothBreaks | strayQuote | unknown => exact Nat.succ_pos _
  | space h => simp only [Lexeme.plain, runLength_cons_of_pos h]; omega
  | string | character => simp only [Lexeme.plain]; omega
  | number h => exact number_pos h rest
  | smallName h =>
    rw [word_length, runLength_cons_of_pos (isIdentChar_of_isSmall h)]
    omega
  | largeName h =>
    simp only [Lexeme.constructor, runLength_cons_of_pos (isIdentChar_of_isLarge h)]
    omega
  | operator h =>
    apply symbol_length_pos
    rw [List.takeWhile_cons_of_pos h]
    exact List.cons_ne_nil _ _

theorem length_le (h : Dispatch c rest lexeme) : lexeme.length ≤ (c :: rest).length := by
  cases h with
  | comment body =>
    have := commentTail_le 1 body
    simp only [Lexeme.comment, List.length_cons]
    omega
  | special | lineFeed | carriageReturn | bothBreaks | strayQuote | unknown =>
    simp only [Lexeme.plain, List.length_cons]
    omega
  | space h => exact runLength_le _ _
  | string =>
    have := stringTail_le .body rest
    simp only [Lexeme.plain, List.length_cons]
    omega
  | character h =>
    have := characterTail?_le h
    simp only [Lexeme.plain, List.length_cons]
    omega
  | number h => exact number_le _
  | smallName h => exact runLength_le _ _
  | largeName h => exact runLength_le _ _
  | operator h => exact symbol_length_le _

end Dispatch

end HaskellHighlight.Lexer
