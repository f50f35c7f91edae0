import HaskellHighlight.Proofs.CharacterBody
import HaskellHighlight.Proofs.CommentScan
import HaskellHighlight.Proofs.Iteration
import HaskellHighlight.Proofs.Lookahead

/-! Text taken away at the end of a text. A unit that lies before the cut is found there as before,
although the lexer may have looked beyond the cut to see where it ends: what it saw there did not
belong to the unit, and nothing at all does not belong to it either. -/
namespace HaskellHighlight.Lexer
open Unicode

section cut
variable {p : Char → Bool} {text more : List Char}

theorem takeWhile_cut (h : runLength p (text ++ more) ≤ text.length) :
    text.takeWhile p = (text ++ more).takeWhile p := by
  rw [runLength, List.takeWhile_append] at h
  rw [List.takeWhile_append]
  split
  · rename_i all
    rw [if_pos all, List.length_append] at h
    have none_beyond : more.takeWhile p = [] := List.length_eq_zero_iff.mp (by omega)
    rw [none_beyond, List.append_nil, (List.takeWhile_prefix p).eq_of_length all]
  · rfl

theorem runLength_cut (h : runLength p (text ++ more) ≤ text.length) :
    runLength p text = runLength p (text ++ more) := by
  rw [runLength, takeWhile_cut h, runLength]

private theorem one_lt_commentTail (depth : Nat) (c d : Char) (rest : List Char) :
    1 < (commentTail depth (c :: d :: rest)).1 := by
  cases mark : isMark c (d :: rest) with
  | false =>
    have later := commentTail_pos depth d rest
    rw [commentTail_plain mark]
    omega
  | true =>
    obtain ⟨more, ⟨rfl, same⟩ | ⟨rfl, same⟩⟩ := isMark_iff.mp mark
    · rw [same, commentTail_opening]
      omega
    · rw [same, commentTail_closing]
      split <;> omega

theorem commentTail_cut {depth : Nat} (h : (commentTail depth (text ++ more)).1 ≤ text.length) :
    commentTail depth text = commentTail depth (text ++ more) := by
  cases more with
  | nil => rw [List.append_nil]
  | cons d more =>
    induction depth, text using scan_induction with
    | finish depth => exact absurd h (Nat.not_le.mpr (commentTail_pos depth d more))
    | opening depth rest ih =>
      rw [List.cons_append, List.cons_append, commentTail_opening] at h
      rw [List.cons_append, List.cons_append, commentTail_opening, commentTail_opening,
        ih (by simpa using h)]
    | closing depth rest ih =>
      rw [List.cons_append, List.cons_append, commentTail_closing] at h
      rw [List.cons_append, List.cons_append, commentTail_closing, commentTail_closing]
      split
      · rfl
      · rename_i inner
        rw [if_neg inner] at h
        rw [ih (by omega) (by simpa using h)]
    | plain depth c rest plain ih =>
      cases rest with
      | nil => exact absurd h (Nat.not_le.mpr (one_lt_commentTail depth c d more))
      | cons e rest =>
        have same : isMark c (e :: rest ++ d :: more) = false := plain
        rw [List.cons_append, commentTail_plain same] at h
        rw [List.cons_append, commentTail_plain plain, commentTail_plain same,
          ih (by simpa using h)]

theorem stringTail_cut {mode : StringMode} (h : stringTail mode (text ++ more) ≤ text.length) :
    stringTail mode text = stringTail mode (text ++ more) := by
  fun_induction stringTail mode text with
  | case1 mode => exact (Nat.le_zero.mp h).symm
  | case2 | case3 | case10 | case11 | case14 =>
    simp only [List.cons_append, stringTail, *, if_true, if_false, Bool.false_eq_true]
  | _ =>
    rename_i ih
    simp only [List.cons_append, stringTail, *, if_true, if_false, Bool.false_eq_true] at h
    have inner := ih (by rw [List.length_cons] at h; omega)
    simp only [List.cons_append, stringTail, *, if_true, if_false, Bool.false_eq_true]

/-- Whether a quote opens a character literal is the same without the text behind the literal. -/
theorem characterTail?_cut {length : Nat} (h : characterTail? (text ++ more) = some length)
    (le : length ≤ text.length) : characterTail? text = some length := by
  obtain ⟨body, tail, form, eq, rfl⟩ := characterTail?_eq_some_iff.mp h
  refine characterTail?_eq_some_iff.mpr ⟨body, text.drop (body.length + 1), form, ?_, rfl⟩
  have front : text.take (body.length + 1) = body ++ ['\''] := by
    have whole : (text ++ more).take (body.length + 1) = text.take (body.length + 1) :=
      List.take_append_of_le_length le
    rw [← whole, eq, List.take_length_add_append]
    rfl
  rw [← List.singleton_append, ← List.append_assoc, ← front, List.take_append_drop]

theorem characterTail?_eq_none_of_append (h : characterTail? (text ++ more) = none) :
    characterTail? text = none := by
  cases found : characterTail? text with
  | none => rfl
  | some length =>
    obtain ⟨body, tail, form, rfl, -⟩ := characterTail?_eq_some_iff.mp found
    have longer : characterTail? (body ++ '\'' :: tail ++ more) = some (body.length + 1) :=
      characterTail?_eq_some_iff.mpr ⟨body, tail ++ more, form, by simp, rfl⟩
    rw [h] at longer
    contradiction

theorem fractionLength_cut (h : fractionLength (text ++ more) ≤ text.length) :
    fractionLength text = fractionLength (text ++ more) := by
  cases text with
  | nil => exact (Nat.le_zero.mp h).symm
  | cons c rest =>
    simp only [List.cons_append, fractionLength] at h ⊢
    have digits : runLength isAsciiDigit (rest ++ more) ≤ rest.length ∨ c ≠ '.' := by
      by_cases point : c = '.'
      · left
        split at h
        · rw [List.length_cons] at h
          omega
        · rename_i none_there
          have : runLength isAsciiDigit (rest ++ more) = 0 := by simpa [point] using none_there
          omega
      · exact Or.inr point
    rcases digits with digits | other
    · rw [runLength_cut digits]
    · simp [other]

def signLength (text : List Char) : Nat :=
  if text.head? = some '+' || text.head? = some '-' then 1 else 0

def exponentDigits (text : List Char) : Nat :=
  runLength isAsciiDigit (text.drop (signLength text))

theorem exponentLength_cons (c : Char) (rest : List Char) :
    exponentLength (c :: rest) =
      if (c = 'e' || c = 'E') && exponentDigits rest ≠ 0
      then 1 + signLength rest + exponentDigits rest else 0 := rfl

theorem exponentLength_cut (h : exponentLength (text ++ more) ≤ text.length) :
    exponentLength text = exponentLength (text ++ more) := by
  cases text with
  | nil => exact (Nat.le_zero.mp h).symm
  | cons c rest =>
    rw [List.cons_append, exponentLength_cons] at h
    rw [List.cons_append, exponentLength_cons, exponentLength_cons]
    cases mark : (c = 'e' || c = 'E') with
    | false => rfl
    | true =>
      simp only [mark, Bool.true_and, decide_eq_true_eq] at h ⊢
      have reach : exponentDigits (rest ++ more) = 0 ∨
          signLength (rest ++ more) + exponentDigits (rest ++ more) ≤ rest.length := by
        rw [List.length_cons] at h
        split at h <;> omega
      cases rest with
      | nil =>
        have beyond : exponentDigits ([] ++ more) = 0 := by
          rw [List.length_nil] at reach
          omega
        rw [beyond]
        rfl
      | cons d rest =>
        have sign : signLength (d :: rest ++ more) = signLength (d :: rest) := rfl
        have sign_le : signLength (d :: rest) ≤ (d :: rest).length := by
          rw [signLength, List.length_cons]
          split <;> omega
        have digits : exponentDigits (d :: rest) = exponentDigits (d :: rest ++ more) := by
          simp only [exponentDigits, sign] at reach ⊢
          rw [List.drop_append_of_le_length sign_le] at reach ⊢
          apply runLength_cut
          rw [List.length_drop]
          omega
        rw [sign, digits]

theorem decimalNumber_cut (h : (decimalNumber (text ++ more)).2 ≤ text.length) :
    decimalNumber text = decimalNumber (text ++ more) := by
  simp only [decimalNumber] at h ⊢
  have whole : runLength isAsciiDigit text = runLength isAsciiDigit (text ++ more) := by
    apply runLength_cut
    omega
  rw [← whole] at h ⊢
  have whole_le := runLength_le isAsciiDigit text
  generalize runLength isAsciiDigit text = n at h whole_le ⊢
  rw [List.drop_append_of_le_length whole_le] at h ⊢
  have fraction : fractionLength (text.drop n) = fractionLength (text.drop n ++ more) := by
    apply fractionLength_cut
    rw [List.length_drop]
    omega
  rw [← fraction] at h ⊢
  have fraction_le := fractionLength_le (text.drop n)
  rw [List.length_drop] at fraction_le
  generalize fractionLength (text.drop n) = m at h fraction_le ⊢
  have inside : n + m ≤ text.length := by omega
  rw [List.drop_append_of_le_length inside] at h ⊢
  rw [exponentLength_cut]
  rw [List.length_drop]
  omega

private theorem number_of_short (h : (number text).2 ≤ 2) : number text = decimalNumber text := by
  rcases number_cases text with decimal | ⟨mark, rest, -, -, head, eq⟩ |
    ⟨mark, rest, -, -, head, eq⟩
  · exact decimal
  · have := runLength_pos head
    rw [eq] at h
    simp only at h
    omega
  · have := runLength_pos head
    rw [eq] at h
    simp only at h
    omega

private theorem number_of_ne {c : Char} (hc : c ≠ '0') (rest : List Char) :
    number (c :: rest) = decimalNumber (c :: rest) := by
  rcases number_cases (c :: rest) with decimal | ⟨_, _, same, -⟩ | ⟨_, _, same, -⟩
  · exact decimal
  · exact absurd (List.cons.inj same).1 hc
  · exact absurd (List.cons.inj same).1 hc

theorem number_cut (h : (number (text ++ more)).2 ≤ text.length) :
    number text = number (text ++ more) := by
  by_cases short : text.length ≤ 2
  · have plain := number_of_short (Nat.le_trans h short)
    rw [plain] at h ⊢
    rw [number_of_short (Nat.le_trans (number_le text) short), decimalNumber_cut h]
  obtain ⟨c, mark, d, tail, rfl⟩ : ∃ c mark d tail, text = c :: mark :: d :: tail := by
    match text with
    | [] | [_] | [_, _] => exact absurd (by simp) short
    | c :: mark :: d :: tail => exact ⟨c, mark, d, tail, rfl⟩
  by_cases zero : c = '0'
  · subst zero
    have digits {p : Char → Bool}
        (inside : 2 + runLength p (d :: tail ++ more) ≤ ('0' :: mark :: d :: tail).length) :
        runLength p (d :: tail) = runLength p (d :: tail ++ more) := by
      apply runLength_cut
      rw [List.length_cons, List.length_cons] at inside
      omega
    simp only [List.cons_append, number_based] at h digits ⊢
    split
    · rename_i hexadecimal
      rw [if_pos hexadecimal] at h
      rw [digits h]
    rename_i hexadecimal
    rw [if_neg hexadecimal] at h
    split
    · rename_i octal
      rw [if_pos octal] at h
      rw [digits h]
    rename_i octal
    rw [if_neg octal] at h
    exact decimalNumber_cut h
  · rw [List.cons_append, number_of_ne zero] at h
    rw [List.cons_append, number_of_ne zero, number_of_ne zero]
    exact decimalNumber_cut h

end cut

end HaskellHighlight.Lexer
